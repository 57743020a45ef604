import PeerBridge.Continuity.Capture

namespace PeerBridge.Continuity
open Checked JsonDoc

section Search
variable {a b x : List Char} {p : List Char} {q : Char → Bool}

theorem stripPrefix_quote (hp : ∀ c ∈ p, '"' ∉ variants c) (x b : List Char) :
    stripPrefix p (x ++ '"' :: b) = (stripPrefix p x).map (fun r => r ++ '"' :: b) := by
  induction p generalizing x with
  | nil => rfl
  | cons c p ih =>
    cases x with
    | nil =>
      simp only [List.nil_append, stripPrefix, if_neg (hp c List.mem_cons_self), Option.map_none]
    | cons y x =>
      simp only [List.cons_append, stripPrefix]
      by_cases hy : y ∈ variants c
      · rw [if_pos hy, if_pos hy, ih (fun d hd => hp d (List.mem_cons_of_mem c hd))]
      · rw [if_neg hy, if_neg hy, Option.map_none]

theorem takeWhile_quote (hq : q '"' = false) (x b : List Char) :
    (x ++ '"' :: b).takeWhile q = x.takeWhile q := by
  induction x with
  | nil => simp [hq]
  | cons y x ih => simp only [List.cons_append, List.takeWhile_cons, ih]

theorem dropWhile_quote (hq : q '"' = false) (x b : List Char) :
    (x ++ '"' :: b).dropWhile q = x.dropWhile q ++ '"' :: b := by
  induction x with
  | nil => simp [hq]
  | cons y x ih =>
    simp only [List.cons_append, List.dropWhile_cons, ih]
    split <;> rfl

theorem keyFollows_quote (x b : List Char) : keyFollows (x ++ '"' :: b) = keyFollows x := by
  rw [keyFollows, takeWhile_quote (by decide), keyFollows]

-- no alternative reads past a quote
theorem follows_quote : ∀ f ∈ alternatives, ∀ x b, f.2 (x ++ '"' :: b) = f.2 x := by
  intro f hf x b
  simp only [alternatives, List.mem_cons, List.not_mem_nil, or_false] at hf
  rcases hf with rfl | rfl | rfl | rfl | rfl
  · exact keyFollows_quote x b
  · exact keyFollows_quote x b
  · exact keyFollows_quote x b
  · simp only [bearerFollows, takeWhile_quote (show isSpace '"' = false by decide),
      dropWhile_quote (show isSpace '"' = false by decide), keyFollows_quote]
  · simp only [accessFollows, takeWhile_quote (show isAccessChar '"' = false by decide)]

theorem prefix_quoteless : ∀ f ∈ alternatives, ∀ c ∈ f.1, '"' ∉ variants c := by
  have hall : (alternatives.all (fun f => f.1.all (fun c => !(variants c).contains '"'))) = true := by
    decide
  simp only [List.all_eq_true, Bool.not_eq_true', List.contains_eq_mem, decide_eq_false_iff_not] at hall
  exact hall

theorem any_congr {α : Type} {f g : α → Bool} {xs : List α} (h : ∀ x ∈ xs, f x = g x) :
    xs.any f = xs.any g := by
  induction xs with
  | nil => rfl
  | cons x xs ih =>
    rw [List.any_cons, List.any_cons, h x List.mem_cons_self,
      ih (fun y hy => h y (List.mem_cons_of_mem x hy))]

theorem matchesHere_quote (x b : List Char) : matchesHere (x ++ '"' :: b) = matchesHere x := by
  refine any_congr (fun f hf => ?_)
  rw [stripPrefix_quote (prefix_quoteless f hf)]
  cases stripPrefix f.1 x with
  | none => rfl
  | some r => exact follows_quote f hf r b

theorem sensitive_split (a b : List Char) :
    sensitive (a ++ '"' :: b) = (sensitive a || sensitive b) := by
  induction a with
  | nil =>
    rw [List.nil_append, sensitive, sensitive, ← List.nil_append ('"' :: b), matchesHere_quote]
  | cons c a ih =>
    rw [List.cons_append, sensitive, sensitive, ih, ← List.cons_append, matchesHere_quote,
      Bool.or_assoc]

theorem stripPrefix_mem {r : List Char} (h : stripPrefix p x = some r) :
    ∀ c ∈ p, ∃ y ∈ x, y ∈ variants c := by
  induction p generalizing x with
  | nil => exact fun c hc => absurd hc List.not_mem_nil
  | cons c p ih =>
    cases x with
    | nil => cases h
    | cons y x =>
      rw [stripPrefix] at h
      split at h
      · next hy =>
        intro d hd
        rcases List.mem_cons.mp hd with rfl | hd
        · exact ⟨y, List.mem_cons_self, hy⟩
        · obtain ⟨z, hz, hzd⟩ := ih h d hd
          exact ⟨z, List.mem_cons_of_mem y hz, hzd⟩
      · cases h

-- every alternative needs a character the given ones do not match
def lacksPrefixes (q : Char → Bool) : Bool :=
  alternatives.all (fun f => f.1.any (fun c => (variants c).all (fun y => !q y)))

theorem matchesHere_absent (hq : lacksPrefixes q = true) (h : ∀ y ∈ x, q y = true) :
    matchesHere x = false := by
  refine List.any_eq_false.mpr (fun f hf => ?_)
  obtain ⟨c, hc, hvariants⟩ := List.any_eq_true.mp (List.all_eq_true.mp hq f hf)
  have hall : ∀ y ∈ variants c, q y = false := fun y hy =>
    Bool.eq_false_of_not_eq_true' (List.all_eq_true.mp hvariants y hy)
  cases hs : stripPrefix f.1 x with
  | none => simp
  | some r =>
    obtain ⟨y, hy, hyc⟩ := stripPrefix_mem hs c hc
    have hin := h y hy
    rw [hall y hyc] at hin
    cases hin

theorem sensitive_absent (hq : lacksPrefixes q = true) (h : ∀ y ∈ x, q y = true) :
    sensitive x = false := by
  induction x with
  | nil => rw [sensitive, matchesHere_absent hq h]
  | cons c x ih =>
    rw [sensitive, matchesHere_absent hq h, ih (fun y hy => h y (List.mem_cons_of_mem c hy))]
    rfl

theorem sensitive_search : StringSearch sensitive :=
  ⟨sensitive_split, fun _ h => sensitive_absent (q := isStructural) (by decide) h⟩

end Search

section Documents
variable {vs : List Value} {fs : List (String × Value)}

theorem distinctItems_iff : DistinctItems vs ↔ ∀ v ∈ vs, Distinct v := by
  induction vs with
  | nil => simp [DistinctItems]
  | cons v vs ih => simp [DistinctItems, ih]

theorem distinct_map {α : Type} {f : α → Value} (h : ∀ x, Distinct (f x)) (xs : List α) :
    Distinct (.arr (xs.map f)) := by
  refine distinctItems_iff.mpr (fun v hv => ?_)
  obtain ⟨x, -, rfl⟩ := List.mem_map.mp hv
  exact h x

theorem distinct_column (c : Column) : Distinct c.value := by
  cases c <;> trivial

theorem distinct_optional (t : Option String) : Distinct (optional t) := by
  cases t <;> trivial

theorem distinct_task (t : TaskLine) : Distinct t.value :=
  ⟨by simp, distinct_column _, distinct_column _, distinct_column _, distinct_column _,
    distinct_column _, distinct_column _, distinct_column _, trivial⟩

theorem distinct_room (r : RoomLine) : Distinct r.value :=
  ⟨by simp, distinct_column _, distinct_column _, distinct_column _, distinct_column _,
    distinct_column _, trivial⟩

theorem distinct_route (r : RouteLine) : Distinct r.value :=
  ⟨by simp, distinct_column _, distinct_column _, distinct_column _, distinct_column _,
    distinct_column _, distinct_column _, distinct_column _, distinct_column _, distinct_column _,
    trivial⟩

theorem distinct_counts (t : TableCounts) : Distinct t.value := by
  obtain ⟨_, _, _, _, _, _, memories⟩ := t
  cases memories with
  | none => exact ⟨by simp, trivial, trivial, trivial, trivial, trivial, trivial, trivial⟩
  | some n => exact ⟨by simp, trivial, trivial, trivial, trivial, trivial, trivial, trivial, trivial⟩

theorem distinct_statuses (d : Database) :
    Distinct (.obj (d.dispatchStatusCounts.map (fun c => (c.1, .int c.2)))) := by
  refine ⟨?_, distinctFields_iff.mpr (fun f hf => ?_)⟩
  · rw [List.map_map]
    exact d.statuses
  · obtain ⟨c, -, rfl⟩ := List.mem_map.mp hf
    trivial

theorem distinct_database (d : Database) : Distinct d.value :=
  ⟨by simp, trivial, trivial, trivial, distinct_optional _, distinct_counts _, distinct_statuses d,
    ⟨by simp, trivial, distinct_column _, trivial⟩,
    ⟨by simp, trivial, distinct_column _, trivial, trivial⟩,
    distinct_map distinct_task _, distinct_map distinct_room _, distinct_map distinct_route _, trivial⟩

theorem distinct_contract : Distinct contract := ⟨by simp, trivial, trivial, trivial, trivial, trivial⟩

theorem body_keys (o : Observed) (d : Database) : ((body o d).map Prod.fst).Nodup := by
  simp [body]

theorem distinct_text (t : String) : Distinct (.str t) := trivial

theorem distinct_receipt (r : Receipt) : Distinct r.value :=
  ⟨by simp, trivial, trivial, trivial, trivial⟩

theorem distinct_body (o : Observed) (d : Database) : DistinctFields (body o d) :=
  ⟨trivial, trivial, trivial,
    ⟨by simp, trivial, distinct_optional _, trivial, distinct_map distinct_text _, trivial,
      trivial⟩,
    distinct_database d, distinct_map distinct_receipt _, distinct_contract, trivial⟩

theorem unsigned_body (o : Observed) (d : Database) :
    "snapshot_sha256" ∉ (body o d).map Prod.fst := by
  simp [body]

end Documents

section Verification
variable {sha : List Char → String} {o : Observed} {d : Database} {snapshot : Value} {path : String}
  {io : Io} {old : Option (List Char)} {report : Report}

theorem signed_keys (o : Observed) (d : Database) (t : String) :
    ((body o d ++ [("snapshot_sha256", Value.str t)]).map Prod.fst).Nodup := by
  rw [List.map_append, List.map_singleton, ← List.concat_eq_append]
  exact (body_keys o d).concat (unsigned_body o d)

theorem distinct_signed (o : Observed) (d : Database) : Distinct (signed sha (body o d)) := by
  refine ⟨signed_keys o d _, distinctFields_iff.mpr (fun f hf => ?_)⟩
  rcases List.mem_append.mp hf with hf | hf
  · exact distinctFields_iff.mp (distinct_body o d) f hf
  · rw [List.mem_singleton.mp hf]
    trivial

theorem bounded_contract : boundedContract (some (sortKeys contract)) = true := by
  decide

structure Built (sha : List Char → String) (o : Observed) (d : Database) (snapshot : Value) :
    Prop where
  eq : snapshot = signed sha (body o d)
  secretless : sensitive (JsonDoc.dumps spaced snapshot) = false
  small : utf8Length (JsonDoc.dumps spaced snapshot) ≤ maxSnapshotBytes

theorem buildSnapshot_ok (ok : buildSnapshot sha o = .ok snapshot) :
    ∃ d, o.database = .ok d ∧ Built sha o d snapshot := by
  simp only [buildSnapshot, bind_eq_ok, require_eq_ok, pure_eq_ok] at ok
  obtain ⟨-, -, -, -, d, hd, -, hs, -, hn, rfl⟩ := ok
  exact ⟨d, hd, rfl, hs, hn⟩

-- the digest a snapshot carries
def Carries (snapshot : Value) (digest : String) : Prop :=
  get "snapshot_sha256" snapshot = some (.str digest)

theorem loads_payload (hb : Built sha o d snapshot) :
    loads (payload snapshot) = some (sortKeys snapshot) := by
  rw [hb.eq]
  exact loads_dumps indented (distinct_signed o d) (List.all_eq_true.mp rfl)

theorem payload_secretless (hb : Built sha o d snapshot) : sensitive (payload snapshot) = false := by
  have hspaced := sensitive_search.dumps (L := spaced) snapshot blank_nil
  rw [List.append_nil, hb.secretless] at hspaced
  rw [payload, sensitive_search.dumps snapshot (List.all_eq_true.mp rfl), ← hspaced]

-- the digest the build put into the snapshot
def digest (sha : List Char → String) (o : Observed) (d : Database) : String :=
  sha (JsonDoc.dumps compact (.obj (body o d)))

theorem get_signed (key : String) (o : Observed) (d : Database) :
    get key (sortKeys (signed sha (body o d))) = (get key (signed sha (body o d))).map sortKeys :=
  get_sortKeys key (signed_keys o d _)

theorem without_signed (o : Observed) (d : Database) :
    JsonDoc.dumps compact (without "snapshot_sha256" (sortKeys (signed sha (body o d)))) =
      JsonDoc.dumps compact (.obj (body o d)) := by
  rw [JsonDoc.dumps, signed, sortKeys_without (body_keys o d) (unsigned_body o d), JsonDoc.dumps]

-- the size of the indented text decides what reading it back says
theorem verify_payload (hb : Built sha o d snapshot) :
    verifySnapshot sha path (some (payload snapshot)) =
      if utf8Length (payload snapshot) ≤ maxSnapshotBytes then
        .ok ⟨"PASS", path, utf8Length (payload snapshot), digest sha o d⟩
      else .error (.snapshot "snapshot exceeds the bounded size limit") := by
  have hschema : isText (get "schema" (sortKeys snapshot)) snapshotSchema = true := by
    rw [hb.eq, get_signed]
    rfl
  have hsha : isText (get "snapshot_sha256" (sortKeys snapshot)) (digest sha o d) = true := by
    rw [hb.eq, get_signed]
    exact decide_eq_true rfl
  have hcontract : boundedContract (get "continuity_contract" (sortKeys snapshot)) = true := by
    rw [hb.eq, get_signed]
    exact bounded_contract
  have hactual : sha (JsonDoc.dumps compact (without "snapshot_sha256" (sortKeys snapshot))) =
      digest sha o d := by
    rw [hb.eq, without_signed, digest]
  by_cases hsmall : utf8Length (payload snapshot) ≤ maxSnapshotBytes
  · simp [verifySnapshot, demand, require, loads_payload hb, hsmall, hschema, hactual, hsha,
      payload_secretless hb, hcontract, Bind.bind, Except.bind, pure, Except.pure]
  · simp [verifySnapshot, demand, require, loads_payload hb, hsmall, Bind.bind, Except.bind]

theorem built_carries (hb : Built sha o d snapshot) : Carries snapshot (digest sha o d) := by
  rw [hb.eq]
  rfl

-- what the capture promises: a working disk gives a verified file, a refusal keeps the old one
structure Preserves (sha : List Char → String) (path : String) (io : Io)
    (old : Option (List Char)) (snapshot : Value) : Prop where
  written : io.replaces = true → io.readsBack = true → ∃ report,
    (writeSnapshot sha path io old snapshot).1 = .ok report ∧
      verifySnapshot sha path (writeSnapshot sha path io old snapshot).2 = .ok report ∧
        Carries snapshot report.snapshotSha256
  kept : ∀ e, (writeSnapshot sha path io old snapshot).1 = .error e →
    (writeSnapshot sha path io old snapshot).2 = old

-- nothing is replaced, or the indented text is small enough and read back, or it is the old text
def Harmless (io : Io) (old : Option (List Char)) (snapshot : Value) : Prop :=
  io.replaces = false ∨
    (io.readsBack = true ∧ utf8Length (payload snapshot) ≤ maxSnapshotBytes) ∨
    (io.readsBack = false ∧ old = some (payload snapshot))

theorem preserves_iff (ok : buildSnapshot sha o = .ok snapshot) :
    Preserves sha path io old snapshot ↔ Harmless io old snapshot := by
  obtain ⟨d, -, hb⟩ := buildSnapshot_ok ok
  have hverify := @verify_payload _ _ _ _ path hb
  obtain ⟨replaces, readsBack⟩ := io
  cases replaces with
  | false =>
    refine ⟨fun _ => Or.inl rfl, fun _ => ⟨?_, fun _ _ => rfl⟩⟩
    exact fun h => absurd h Bool.false_ne_true
  | true =>
    cases readsBack with
    | false =>
      constructor
      · intro h
        exact Or.inr (Or.inr ⟨rfl, (h.kept _ rfl).symm⟩)
      · rintro (h | ⟨h, -⟩ | ⟨-, rfl⟩)
        · cases h
        · cases h
        · exact ⟨fun _ h => absurd h Bool.false_ne_true, fun _ _ => rfl⟩
    | true =>
      constructor
      · intro h
        obtain ⟨report, hw, -⟩ := h.written rfl rfl
        have hw' : verifySnapshot sha path (some (payload snapshot)) = .ok report := hw
        rw [hverify] at hw'
        split at hw'
        · next hsmall => exact Or.inr (Or.inl ⟨rfl, hsmall⟩)
        · cases hw'
      · rintro (h | ⟨-, hsmall⟩ | ⟨h, -⟩)
        · cases h
        · rw [if_pos hsmall] at hverify
          refine ⟨fun _ _ => ⟨_, hverify, hverify, built_carries hb⟩, fun e he => ?_⟩
          have he' : verifySnapshot sha path (some (payload snapshot)) = .error e := he
          rw [hverify] at he'
          cases he'
        · cases h

end Verification


section Sample

def sampleDatabase : Database where
  path := "/d"
  bytes := 0
  mtimeNs := 0
  schemaVersion := none
  tableCounts := ⟨0, 0, 0, 0, 0, 0, none⟩
  dispatchStatusCounts := []
  statuses := List.nodup_nil
  messageHighwater := (0, .null)
  eventHighwater := (0, .null, "")
  tasks := []
  rooms := []
  routes := []

def sampleObserved (changed : List String) : Observed where
  isDirectory := true
  scope := "s"
  generatedAtUtc := "t"
  root := "/p"
  gitHead := none
  changed := changed
  database := .ok sampleDatabase
  receipts := []

def capturedSha (_ : List Char) : String :=
  "90f3ad2f1d3efd772eb541c70c53cd0e53fc3bb27c0514c83d3674f47be48c3e"

def sampleSnapshot : Value := signed capturedSha (body (sampleObserved []) sampleDatabase)

theorem sampleSnapshot_secretless : ∀ t ∈ strings sampleSnapshot, sensitive t = false := by
  decide +kernel

theorem sampleSnapshot_spaced : utf8Length (JsonDoc.dumps spaced sampleSnapshot) = 910 := by
  rw [utf8Length, JsonDoc.dumps, weight_sortKeys]
  decide +kernel

theorem sampleSnapshot_payload : utf8Length (payload sampleSnapshot) = 1105 := by
  rw [payload, utf8Length, JsonText.weight_append, JsonDoc.dumps, weight_sortKeys]
  decide +kernel

theorem sampleSnapshot_built :
    buildSnapshot capturedSha (sampleObserved []) = .ok sampleSnapshot := by
  have hs := sensitive_search.dumps_eq_false (L := spaced) sampleSnapshot_secretless blank_nil
  rw [List.append_nil] at hs
  have hn : utf8Length (JsonDoc.dumps spaced sampleSnapshot) ≤ maxSnapshotBytes := by
    rw [sampleSnapshot_spaced]
    decide
  simp only [buildSnapshot, bind_eq_ok, require_eq_ok, pure_eq_ok]
  exact ⟨(), rfl, (), by decide, sampleDatabase, rfl, (), hs, (), hn, rfl⟩

theorem preserves_iff_sample :
    Preserves capturedSha "/o" ⟨true, true⟩ (some ['x']) sampleSnapshot := by
  have hn : utf8Length (payload sampleSnapshot) ≤ maxSnapshotBytes := by
    rw [sampleSnapshot_payload]
    decide
  exact (preserves_iff sampleSnapshot_built).mpr (Or.inr (Or.inl ⟨rfl, hn⟩))

end Sample

section Oversized

-- a file in the n-th directory of a chain
def longPath (n : ℕ) : List Char := (List.replicate n ['a', '/']).flatten ++ ['b']

def longPaths : List String := (List.range 200).map (fun i => String.ofList (longPath (1206 + i)))

def longSha (_ : List Char) : String :=
  "c3d76e2dce46a4f042d975177fab2e3b571044dca8bf32ff6ad6b5330c0bfd53"

-- the snapshot with the given changed paths, whose number is 200
def projectOf (paths : List Value) : List (String × Value) :=
  [("root", .str "/p"), ("git_head", .null), ("changed_path_count", .int 200)] ++
    ("changed_paths", .arr paths) :: [("changed_paths_truncated", .bool false)]

def documentOf (paths : List Value) : Value :=
  .obj ([("schema", .str snapshotSchema), ("generated_at_utc", .str "t"), ("scope", .str "s")] ++
    ("project", .obj (projectOf paths)) ::
      [("database", sampleDatabase.value), ("receipt_bindings", .arr []),
        ("continuity_contract", contract), ("snapshot_sha256", .str (longSha []))])

theorem documentOf_eq :
    signed longSha (body (sampleObserved longPaths) sampleDatabase) =
      documentOf (longPaths.map Value.str) := by
  have hlen : longPaths.length = 200 := by rw [longPaths, List.length_map, List.length_range]
  have htake : longPaths.take maxChangedPaths = longPaths := List.take_of_length_le hlen.le
  simp only [signed, body, sampleObserved, hlen, htake]
  rfl

def isPathChar (c : Char) : Bool := c ∈ ['a', '/', 'b']

theorem longPath_chars (n : ℕ) : ∀ c ∈ longPath n, isPathChar c = true := by
  intro c hc
  rcases List.mem_append.mp hc with hc | hc
  · obtain ⟨t, ht, hct⟩ := List.mem_flatten.mp hc
    rw [List.eq_of_mem_replicate ht] at hct
    exact List.all_eq_true.mp (show ['a', '/'].all isPathChar = true from rfl) c hct
  · rw [List.mem_singleton.mp hc]
    rfl

theorem isPathChar_plain : ∀ c, isPathChar c = true →
    JsonText.escapeChar c = [c] ∧ Char.utf8Size c = 1 := by
  intro c hc
  simp only [isPathChar, List.mem_cons, List.not_mem_nil, or_false, decide_eq_true_eq] at hc
  rcases hc with rfl | rfl | rfl <;> decide

theorem escape_longPath (n : ℕ) : JsonText.escape (longPath n) = longPath n :=
  JsonText.escape_plain (fun c hc => (isPathChar_plain c (longPath_chars n c hc)).1)

theorem longPath_quote (n : ℕ) :
    JsonText.weight Char.utf8Size (JsonText.quote (longPath n)) = 2 * n + 3 := by
  have hones : ∀ cs : List Char, (∀ c ∈ cs, isPathChar c = true) →
      JsonText.weight Char.utf8Size cs = cs.length := by
    intro cs
    induction cs with
    | nil => exact fun _ => rfl
    | cons c cs ih =>
      intro hc
      rw [JsonText.weight_cons, (isPathChar_plain c (hc c List.mem_cons_self)).2,
        ih (fun e he => hc e (List.mem_cons_of_mem _ he)), List.length_cons, Nat.add_comm]
  rw [JsonText.quote, escape_longPath, JsonText.weight_cons, JsonText.weight_append,
    hones _ (longPath_chars n), longPath, List.length_append, List.length_flatten,
    List.map_replicate, List.sum_replicate_nat]
  simp only [JsonText.weight_cons, JsonText.weight_nil, List.length_cons, List.length_nil,
    show Char.utf8Size '"' = 1 from rfl]
  omega

theorem longPaths_sum (L : Layout) (d : ℕ) : ((longPaths.map Value.str).map
    (fun v => JsonText.weight Char.utf8Size (render L d v))).sum = 522800 := by
  have hsum : ((List.range 200).map (fun i => 2 * (1206 + i) + 3)).sum = 522800 := by decide +kernel
  rw [← hsum, longPaths, List.map_map, List.map_map]
  refine congrArg List.sum (List.map_congr_left (fun i _ => ?_))
  simp only [Function.comp_apply, render, String.toList_ofList, longPath_quote]

-- the paths come on top of the document without them
theorem documentOf_weight (L : Layout) {paths : List Value} (h : paths ≠ []) :
    utf8Length (JsonDoc.dumps L (documentOf paths)) =
      JsonText.weight Char.utf8Size (render L 0 (documentOf [])) +
        JsonText.weight Char.utf8Size (L.first 3) + JsonText.weight Char.utf8Size (L.close 2) +
          (paths.map (fun v => JsonText.weight Char.utf8Size (render L 3 v))).sum +
            (paths.length - 1) * (1 + JsonText.weight Char.utf8Size (L.gap 3)) := by
  have houter : JsonText.weight Char.utf8Size (render L 0 (documentOf paths)) +
      JsonText.weight Char.utf8Size (render L 1 (.obj (projectOf []))) =
        JsonText.weight Char.utf8Size (render L 0 (documentOf [])) +
          JsonText.weight Char.utf8Size (render L 1 (.obj (projectOf paths))) :=
    weight_swap _ L 0 _ _ "project" _ _
  have hinner : JsonText.weight Char.utf8Size (render L 1 (.obj (projectOf paths))) +
      JsonText.weight Char.utf8Size (render L 2 (.arr [])) =
        JsonText.weight Char.utf8Size (render L 1 (.obj (projectOf []))) +
          JsonText.weight Char.utf8Size (render L 2 (.arr paths)) :=
    weight_swap _ L 1 _ _ "changed_paths" _ _
  have hempty : JsonText.weight Char.utf8Size (render L 2 (.arr [])) = 2 := rfl
  have hpaths := weight_arr Char.utf8Size L 2 h
  simp only [Nat.reduceAdd] at hpaths
  rw [show Char.utf8Size '[' = 1 from rfl, show Char.utf8Size ']' = 1 from rfl,
    show Char.utf8Size ',' = 1 from rfl] at hpaths
  rw [utf8Length, JsonDoc.dumps, weight_sortKeys]
  omega

theorem longPaths_length : (longPaths.map Value.str).length = 200 := by
  rw [longPaths, List.length_map, List.length_map, List.length_range]

theorem longPaths_ne : longPaths.map Value.str ≠ [] :=
  List.ne_nil_of_length_pos (by rw [longPaths_length]; decide)

def longSnapshot : Value := signed longSha (body (sampleObserved longPaths) sampleDatabase)

theorem longSnapshot_spaced : utf8Length (JsonDoc.dumps spaced longSnapshot) = 524110 := by
  have hrest : JsonText.weight Char.utf8Size (render spaced 0 (documentOf [])) = 912 := by
    decide +kernel
  rw [longSnapshot, documentOf_eq, documentOf_weight spaced longPaths_ne, longPaths_sum,
    longPaths_length, hrest]
  rfl

theorem longSnapshot_payload : utf8Length (payload longSnapshot) = 525511 := by
  have hrest : JsonText.weight Char.utf8Size (render indented 0 (documentOf [])) = 1106 := by
    decide +kernel
  have hdumps : utf8Length (JsonDoc.dumps indented longSnapshot) = 525510 := by
    rw [longSnapshot, documentOf_eq, documentOf_weight indented longPaths_ne, longPaths_sum,
      longPaths_length, hrest]
    rfl
  rw [payload, utf8Length, JsonText.weight_append, ← utf8Length, hdumps]
  rfl

theorem longSnapshot_secretless : ∀ t ∈ strings longSnapshot, sensitive t = false := by
  have hrest : ∀ t ∈ strings (documentOf []), sensitive t = false := by decide +kernel
  have hempty : ∀ t ∈ strings (.obj (projectOf [])), t ∈ strings (documentOf []) := by
    intro t ht
    rw [documentOf, strings, mem_stringsFields]
    exact ⟨("project", _), by simp, Or.inr ht⟩
  intro t ht
  rw [longSnapshot, documentOf_eq, documentOf] at ht
  rcases strings_swap (u := .obj (projectOf [])) ht with ht | ht
  · exact hrest t ht
  · rcases strings_swap (u := .arr []) ht with ht | ht
    · exact hrest t (hempty t ht)
    · rw [strings, mem_stringsItems] at ht
      obtain ⟨v, hv, ht⟩ := ht
      simp only [longPaths, List.map_map, List.mem_map, Function.comp_apply] at hv
      obtain ⟨i, -, rfl⟩ := hv
      rw [strings, List.mem_singleton, String.toList_ofList, escape_longPath] at ht
      rw [ht]
      exact sensitive_absent (by decide) (longPath_chars _)

theorem longSnapshot_built :
    buildSnapshot longSha (sampleObserved longPaths) = .ok longSnapshot := by
  have hs := sensitive_search.dumps_eq_false (L := spaced) longSnapshot_secretless blank_nil
  rw [List.append_nil] at hs
  have hn : utf8Length (JsonDoc.dumps spaced longSnapshot) ≤ maxSnapshotBytes := by
    rw [longSnapshot_spaced]
    decide
  simp only [buildSnapshot, bind_eq_ok, require_eq_ok, pure_eq_ok]
  exact ⟨(), rfl, (), by decide, sampleDatabase, rfl, (), hs, (), hn, rfl⟩

theorem long_snapshot_destroys :
    buildSnapshot longSha (sampleObserved longPaths) = .ok longSnapshot ∧
      ¬ Preserves longSha "/o" ⟨true, true⟩ (some (payload sampleSnapshot)) longSnapshot := by
  refine ⟨longSnapshot_built, fun h => ?_⟩
  rw [preserves_iff longSnapshot_built, Harmless, longSnapshot_payload] at h
  rcases h with h | ⟨-, h⟩ | ⟨h, -⟩
  · cases h
  · exact absurd h (by decide)
  · cases h

end Oversized

end PeerBridge.Continuity
