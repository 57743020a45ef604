import PeerBridge.Imports.Records

namespace PeerBridge
open Checked Rows

section Same

attribute [local simp] Json.same

theorem same_opt {a b : Option String} (h : (Json.opt a).same (.opt b) = true) : a = b := by
  cases a <;> cases b <;> simp_all [Json.opt, Json.same, Json.text?]

theorem same_str {a b : String} (h : (Json.str a).same (.str b) = true) : a = b := by
  simpa [Json.same, Json.text?, eq_comm] using h

theorem same_bool {a b : Bool} (h : (Json.bool a).same (.bool b) = true) : a = b := by
  cases a <;> cases b <;> simp_all [Json.same, Json.number?]

theorem same_int {a b : Int} (h : (Json.int a).same (.int b) = true) : a = b := by
  simp only [Json.same, Json.number?, decide_eq_true_eq, Option.some.injEq] at h
  exact_mod_cast h.symm

theorem same_items {α : Type} {f : α → Json} (hf : ∀ x y, (f x).same (f y) = true → x = y)
    {xs ys : List α} (h : sameItems (xs.map f) (ys.map f) = true) : xs = ys := by
  induction xs generalizing ys with
  | nil =>
    cases ys with
    | nil => rfl
    | cons y ys => simp [sameItems] at h
  | cons x xs ih =>
    cases ys with
    | nil => simp [sameItems] at h
    | cons y ys =>
      rw [List.map_cons, List.map_cons, sameItems, Bool.and_eq_true] at h
      rw [hf x y h.1, ih h.2]

theorem same_arr {α : Type} {f : α → Json} (hf : ∀ x y, (f x).same (f y) = true → x = y)
    {xs ys : List α} (h : (Json.arr (xs.map f)).same (.arr (ys.map f)) = true) : xs = ys :=
  same_items hf (by simpa only [Json.same] using h)

theorem sameFields_member {fs gs : List (String × Json)} (h : sameFields fs gs = true) {k : String}
    {v : Json} (hv : (k, v) ∈ fs) :
    ∃ w, (lookup Prod.fst k gs).map Prod.snd = some w ∧ v.same w = true := by
  induction fs with
  | nil => cases hv
  | cons f fs ih =>
    obtain ⟨k', v'⟩ := f
    rw [sameFields, Bool.and_eq_true] at h
    rcases List.mem_cons.mp hv with he | hm
    · obtain ⟨rfl, rfl⟩ := Prod.mk.inj he
      cases hl : (lookup Prod.fst k gs).map Prod.snd with
      | none => simp [hl] at h
      | some w => exact ⟨w, rfl, by simpa [hl] using h.1⟩
    · exact ih h.2 hm

/-- Members with one key are the same in equal objects. -/
theorem same_member {v w x y : Json} (h : v.same w = true) (hv : v.isObj = true) (k : String)
    (hx : v.get? k = some x) (hy : w.get? k = some y) : x.same y = true := by
  cases v with
  | obj fs =>
    cases w with
    | obj gs =>
      rw [Json.same, Bool.and_eq_true] at h
      obtain ⟨⟨k', x'⟩, hl, rfl⟩ := Option.map_eq_some_iff.mp hx
      obtain rfl : k' = k := lookup_key hl
      obtain ⟨z, hz, hs⟩ := sameFields_member h.2 (lookup_mem hl)
      rwa [Option.some.inj (hy.symm.trans hz)]
    | _ => simp [Json.same] at h
  | _ => cases hv

end Same

namespace ConversationImport
variable (T : Toolkit)

theorem Role.text_inj {r s : Role} (h : r.text = s.text) : r = s := by
  revert h; cases r <;> cases s <;> decide

theorem Provider.text_inj {p q : Provider} (h : p.text = q.text) : p = q := by
  revert h; cases p <;> cases q <;> decide

theorem HistoryMessage.same_json {m n : HistoryMessage} (h : (m.json T).same (n.json T) = true) :
    m = n := by
  have hcreated := same_opt (same_member h rfl "created_utc" rfl rfl)
  have hrole := Role.text_inj (same_str (same_member h rfl "role" rfl rfl))
  have hredacted := same_bool (same_member h rfl "secret_redacted" rfl rfl)
  have hsequence := same_int (same_member h rfl "sequence" rfl rfl)
  have hid := same_str (same_member h rfl "source_message_id" rfl rfl)
  have htext := same_str (same_member h rfl "text" rfl rfl)
  obtain ⟨⟨i, r, c, t, d⟩, n⟩ := m
  simp_all

-- what a repeated import compares
def Record.fixed (r : Record) : Json := withoutKeys volatileKeys (r.json T)

theorem Record.same_fixed {r s : Record} (h : (r.fixed T).same (s.fixed T) = true) :
    r.conversation.messages = s.conversation.messages := by
  have hm := same_member h rfl "messages" rfl rfl
  exact same_arr (fun _ _ => HistoryMessage.same_json T) hm

/-- Records that compare as one differ in their volatile members only. -/
theorem Record.json_eq {r s : Record} (h : (r.fixed T).same (s.fixed T) = true)
    (hname : r.sourceName = s.sourceName) (hutc : r.importedUtc = s.importedUtc) :
    r.json T = s.json T := by
  have hmessages := Record.same_fixed T h
  have hended := same_opt (same_member h rfl "ended_utc" rfl rfl)
  have hid := same_str (same_member h rfl "import_id" rfl rfl)
  have hprovider := same_str (same_member h rfl "provider" rfl rfl)
  have hscope := same_str (same_member h rfl "scope" rfl rfl)
  have hbytes := same_int (same_member h rfl "source_bytes" rfl rfl)
  have hsource := same_str (same_member h rfl "source_conversation_id" rfl rfl)
  have hsha := same_str (same_member h rfl "source_sha256" rfl rfl)
  have hstarted := same_opt (same_member h rfl "started_utc" rfl rfl)
  have hstatus := same_str (same_member h rfl "timestamp_status" rfl rfl)
  have htitle := same_str (same_member h rfl "title" rfl rfl)
  have hfields (sha : List (String × Json)) : r.fields T sha = s.fields T sha := by
    simp [Record.fields, Record.roomId, *]
  rw [Record.json, Record.json, Record.sha, Record.sha, hfields, hfields]

theorem hex_length (d : Sha256) : d.hex.length = 64 := by
  rw [Sha256.hex, ← String.length_toList, String.toList_ofList, hexText_length]

-- a record as its reader hands it on
def Record.listed (r : Record) : Json :=
  withMember "record_sha256" (.str (r.sha T).hex) (.obj (r.fields T []))

theorem Record.without_sha (r : Record) :
    withoutKeys ["record_sha256"] (r.json T) = .obj (r.fields T []) := rfl

theorem verifyRecord_json (r : Record) (scope : String) :
    verifyRecord T (r.json T) scope =
      if r.scope = scope then .ok (r.listed T) else .error (invalid "scope does not match") := by
  have hschema : ((r.json T).item "schema").is importSchema = true := by
    change decide (importSchema = importSchema) = true
    exact decide_eq_true rfl
  have hscope : ((r.json T).item "scope").is scope = decide (r.scope = scope) := rfl
  have hclaimed : (((r.json T).get? "record_sha256").map T.str).getD "" = (r.sha T).hex := rfl
  unfold verifyRecord
  rw [hschema, hclaimed, hscope, Record.without_sha]
  by_cases hs : r.scope = scope
  · simp [require, hs, Record.json, Json.isObj, hex_length, Record.sha, Record.listed,
      Json.item, Json.get?, Record.fields, lookup, Json.truthy, Json.items?, bind, Except.bind,
      pure, Except.pure]
  · simp [require, hs, Record.json, Json.isObj, hex_length, Record.sha, bind, Except.bind]

/-- `json.loads` reads back a text `json.dumps` wrote, and refuses what a cut leaves of it. -/
structure ReadsBack (v : Json) : Prop where
  whole : T.read (String.ofList (encodedText T v)) = .ok (some v)
  trimmed : T.read (String.ofList (JsonText.ascii (jsonChars T.forms v))) = .ok (some v)
  part : ∀ n < (JsonText.ascii (jsonChars T.forms v)).length,
    T.read (String.ofList ((JsonText.ascii (jsonChars T.forms v)).take n)) = .ok none

theorem ReadsBack.take {v : Json} (h : ReadsBack T v) (n : Nat) :
    T.read (String.ofList ((encodedText T v).take n)) = .ok none ∨
      T.read (String.ofList ((encodedText T v).take n)) = .ok (some v) := by
  unfold encodedText
  rw [List.take_append]
  rcases Nat.lt_or_ge n (JsonText.ascii (jsonChars T.forms v)).length with hn | hn
  · rw [Nat.sub_eq_zero_of_le hn.le, List.take_zero, List.append_nil]
    exact .inl (h.part n hn)
  · rw [List.take_of_length_le hn]
    cases n - (JsonText.ascii (jsonChars T.forms v)).length with
    | zero =>
      rw [List.take_zero, List.append_nil]
      exact .inr h.trimmed
    | succ k =>
      rw [List.take_of_length_le (by simp)]
      exact .inr h.whole

-- a record file, cut off or whole
structure FileOf (r : Record) (f : RecordFile) : Prop where
  name : f.name = r.fileName
  text : ∃ n, f.text = (r.file T).text.take n
  back : ReadsBack T (r.json T)

variable {T}

theorem FileOf.read {r : Record} {f : RecordFile} (h : FileOf T r f) :
    T.read (String.ofList f.text) = .ok none ∨
      T.read (String.ofList f.text) = .ok (some (r.json T)) := by
  obtain ⟨n, hn⟩ := h.text
  rw [hn]
  exact h.back.take T n

theorem Record.file_of {r : Record} (h : ReadsBack T (r.json T)) : FileOf T r (r.file T) where
  name := rfl
  text := ⟨(r.file T).text.length, by rw [List.take_length]⟩
  back := h

theorem fileName_inj {r s : Record} (h : r.fileName = s.fileName) : r.importId = s.importId :=
  String.append_left_inj ".json" |>.mp h

/-- The records of a store: one file a name, each the text of a record or a part of one. -/
structure Kept (s : Store) : Prop where
  nodup : (s.map RecordFile.name).Nodup
  files : ∀ f ∈ s, ∃ r, FileOf T r f

theorem Kept.lookup {s : Store} (h : Kept (T := T) s) {f : RecordFile} (hf : f ∈ s) :
    lookup RecordFile.name f.name s = some f := lookup_of_mem h.nodup hf

theorem Kept.append {s : Store} (h : Kept (T := T) s) {r : Record} {f : RecordFile}
    (hr : FileOf T r f) (hnew : Rows.lookup RecordFile.name r.fileName s = none) :
    Kept (T := T) (s ++ [f]) where
  nodup := by
    rw [List.map_append, List.map_singleton, List.nodup_append]
    refine ⟨h.nodup, by simp, ?_⟩
    intro a ha b hb hab
    obtain ⟨g, hg, rfl⟩ := List.mem_map.mp ha
    refine lookup_eq_none.mp hnew g hg ?_
    rw [hab, List.mem_singleton.mp hb, hr.name]
  files := by
    intro g hg
    rcases List.mem_append.mp hg with hg | hg
    · exact h.files g hg
    · rw [List.mem_singleton.mp hg]
      exact ⟨r, hr⟩

-- everything one round of the loop can do
inductive Imported (r : Record) (s : Store) :
    Store → Except Halt (ImportRow × Option Nat) → Prop
  | refused (e : Halt) : Imported r s s (.error e)
  | existing (f : RecordFile) (x : Json) (left : Option Nat)
      (held : lookup RecordFile.name r.fileName s = some f) (same : existingRecord T r f = .ok x) :
      Imported r s s (.ok (r.row .existing x, left))
  | part (n : Nat) (absent : lookup RecordFile.name r.fileName s = none) :
      Imported r s (s ++ [{ r.file T with text := (r.file T).text.take n }]) (.error .cut)
  | created (left : Option Nat) (absent : lookup RecordFile.name r.fileName s = none) :
      Imported r s (s ++ [r.file T]) (.ok (r.row .created (r.json T), left))

theorem importRecord_cases (r : Record) (room : Option Nat) (s : Store) :
    Imported (T := T) r s (importRecord T r room s).1 (importRecord T r room s).2 := by
  unfold importRecord
  dsimp only
  by_cases hsize : maxImportRecordBytes < (r.file T).size
  · rw [if_pos hsize]
    exact .refused _
  · rw [if_neg hsize]
    cases hl : lookup RecordFile.name r.fileName s with
    | some f =>
      dsimp only
      cases hx : existingRecord T r f with
      | ok x => exact .existing f x room hl hx
      | error e => exact .refused _
    | none =>
      dsimp only
      by_cases hq : quotaExceeded (r.file T).size 0 0 s = true
      · rw [if_pos hq]
        exact .refused _
      · rw [if_neg hq]
        cases room with
        | none => exact .created none hl
        | some n =>
          cases n with
          | zero => exact .refused _
          | succ n =>
            by_cases hn : n < (r.file T).size
            · simp only [createRecord, if_pos hn]
              exact .part n hl
            · simp only [createRecord, if_neg hn]
              exact .created _ hl

theorem Imported.kept {r : Record} {s t : Store} {e : Except Halt (ImportRow × Option Nat)}
    (h : Imported (T := T) r s t e) (hr : ReadsBack T (r.json T)) (hs : Kept (T := T) s) :
    Kept (T := T) t := by
  cases h with
  | refused e => exact hs
  | existing f x left held same => exact hs
  | part n absent => exact hs.append ⟨rfl, ⟨n, rfl⟩, hr⟩ absent
  | created left absent => exact hs.append (Record.file_of hr) absent

theorem Imported.extends {r : Record} {s t : Store} {e : Except Halt (ImportRow × Option Nat)}
    (h : Imported (T := T) r s t e) :
    t = s ∨ ∃ f, f.name = r.fileName ∧ lookup RecordFile.name r.fileName s = none ∧
      t = s ++ [f] := by
  cases h with
  | refused e => exact .inl rfl
  | existing f x left held same => exact .inl rfl
  | part n absent => exact .inr ⟨_, rfl, absent, rfl⟩
  | created left absent => exact .inr ⟨_, rfl, absent, rfl⟩

theorem Imported.idle {r : Record} {s t : Store} {e : Except Halt (ImportRow × Option Nat)}
    (h : Imported (T := T) r s t e) {f : RecordFile}
    (hf : lookup RecordFile.name r.fileName s = some f) : t = s := by
  rcases h.extends with he | ⟨g, -, hn, -⟩
  · exact he
  · rw [hf] at hn
    cases hn

theorem Imported.ok_held {r : Record} {s t : Store} {row : ImportRow} {left : Option Nat}
    (h : Imported (T := T) r s t (.ok (row, left))) :
    ∃ f ∈ t, f.name = r.fileName := by
  cases h with
  | existing f x left held same => exact ⟨f, lookup_mem held, lookup_key held⟩
  | created left absent =>
    exact ⟨r.file T, List.mem_append_right _ (List.mem_singleton.mpr rfl), rfl⟩

section Loop
variable {r : Record} {rs : List Record} {room left : Option Nat} {s t : Store} {row : ImportRow}

theorem importRecords_error {e : Halt} (h : importRecord T r room s = (t, .error e)) :
    importRecords T (r :: rs) room s = (t, .error e) := by
  rw [importRecords, h]

theorem importRecords_ok (h : importRecord T r room s = (t, .ok (row, left))) :
    importRecords T (r :: rs) room s =
      ((importRecords T rs left t).1, (importRecords T rs left t).2.map (row :: ·)) := by
  rw [importRecords, h]
  dsimp only
  cases importRecords T rs left t with
  | mk u e => cases e <;> rfl

/-- What every round preserves, every call preserves. -/
theorem importRecords_keeps {I : Store → Prop}
    (hstep : ∀ r ∈ rs, ∀ s t e, Imported (T := T) r s t e → I s → I t) (hs : I s) :
    I (importRecords T rs room s).1 := by
  induction rs generalizing room s with
  | nil => exact hs
  | cons r rs ih =>
    have hcases := importRecord_cases (T := T) r room s
    cases hr : importRecord T r room s with
    | mk t e =>
      rw [hr] at hcases
      have hnext := hstep r List.mem_cons_self s t e hcases hs
      cases e with
      | error e =>
        rw [importRecords_error hr]
        exact hnext
      | ok x =>
        rw [importRecords_ok hr]
        exact ih (fun x hx => hstep x (List.mem_cons_of_mem _ hx)) hnext

variable (T) in
-- the file a row of the answer stands for
def Recorded (u : Store) (r : Record) (row : ImportRow) : Prop :=
  ∃ f ∈ u, f.name = r.fileName ∧
    ((f = r.file T ∧ row = r.row .created (r.json T)) ∨
      ∃ x, existingRecord T r f = .ok x ∧ row = r.row .existing x)

theorem Recorded.mono {u : Store} (h : Recorded T t r row) (hp : t <+: u) : Recorded T u r row :=
  h.imp fun _ hf => ⟨hp.subset hf.1, hf.2⟩

theorem Imported.recorded (h : Imported (T := T) r s t (.ok (row, left))) : Recorded T t r row := by
  cases h with
  | existing f x left held same =>
    exact ⟨f, lookup_mem held, lookup_key held, .inr ⟨x, same, rfl⟩⟩
  | created left absent =>
    exact ⟨_, List.mem_append_right _ (List.mem_singleton.mpr rfl), rfl, .inl ⟨rfl, rfl⟩⟩

theorem Imported.grows {e : Except Halt (ImportRow × Option Nat)}
    (h : Imported (T := T) r s t e) : s <+: t := by
  rcases h.extends with rfl | ⟨f, -, -, rfl⟩
  · exact List.prefix_rfl
  · exact List.prefix_append _ _

theorem Imported.ok_origin (h : Imported (T := T) r s t (.ok (row, left))) :
    ∀ f ∈ t, f ∈ s ∨ f = r.file T := by
  intro f hf
  cases h with
  | existing g x left held same => exact .inl hf
  | created left absent => exact (List.mem_append.mp hf).imp id List.mem_singleton.mp

theorem importRecords_grows : s <+: (importRecords T rs room s).1 :=
  importRecords_keeps (I := fun t => s <+: t) (fun _ _ _ _ _ h hs => hs.trans h.grows)
    List.prefix_rfl

/-- What a call that answers has done. -/
theorem importRecords_done {rows : List ImportRow} {u : Store}
    (h : importRecords T rs room s = (u, .ok rows)) :
    List.Forall₂ (Recorded T u) rs rows ∧ ∀ f ∈ u, f ∈ s ∨ ∃ r ∈ rs, f = r.file T := by
  induction rs generalizing room s rows with
  | nil =>
    obtain ⟨rfl, hr⟩ := Prod.mk.inj h
    obtain rfl := Except.ok.inj hr
    exact ⟨.nil, fun f hf => .inl hf⟩
  | cons r rs ih =>
    have hcases := importRecord_cases (T := T) r room s
    cases hr : importRecord T r room s with
    | mk t e =>
      rw [hr] at hcases
      cases e with
      | error e =>
        rw [importRecords_error hr] at h
        cases (Prod.mk.inj h).2
      | ok x =>
        rw [importRecords_ok hr] at h
        obtain ⟨hu, hrows⟩ := Prod.mk.inj h
        cases hrest : (importRecords T rs x.2 t).2 with
        | error e =>
          rw [hrest] at hrows
          cases hrows
        | ok rest =>
          rw [hrest] at hrows
          obtain rfl := Except.ok.inj hrows
          obtain ⟨hall, horigin⟩ := ih (Prod.ext hu hrest)
          have hgrows : t <+: u := hu ▸ importRecords_grows
          refine ⟨.cons (hcases.recorded.mono hgrows) hall, fun f hf => ?_⟩
          rcases horigin f hf with hf | ⟨r', hr', he⟩
          · exact (hcases.ok_origin f hf).imp id fun he => ⟨r, List.mem_cons_self, he⟩
          · exact .inr ⟨r', List.mem_cons_of_mem _ hr', he⟩

end Loop

end ConversationImport

end PeerBridge
