import PeerBridge.Trust.Timeline
import PeerBridge.Routing

namespace PeerBridge.Trust
open Checked Rows

section Disks
variable {d : Disk} {paths cleaned : List String} {total : Nat} {hashed : List (String × Reading)}

-- what hashing a path on this disk reads
def Disk.reading (d : Disk) (path : String) : Option Reading :=
  match d.existing path with
  | .ok (_, r) => some r
  | .error _ => none

theorem reading_of_existing {path : String} {x : String × Reading} (h : d.existing path = .ok x) :
    d.reading path = some x.2 := by
  rw [Disk.reading, h]

theorem wrapped_ok {α : Type} {x : Except BridgeError α} {a : α} (h : wrapped x = .ok a) :
    x = .ok a := by
  cases x with
  | ok b => exact congrArg _ (Except.ok.inj h)
  | error e => cases e <;> cases h

theorem hashFrom_ok (h : hashFrom d total paths = .ok hashed) :
    hashed.map Prod.fst = paths ∧ ∀ x ∈ hashed, d.reading x.1 = some x.2 := by
  induction paths generalizing total hashed with
  | nil =>
    obtain rfl := Except.ok.inj h
    exact ⟨rfl, fun _ hx => absurd hx List.not_mem_nil⟩
  | cons path paths ih =>
    simp only [hashFrom, bind_eq_ok, pure_eq_ok] at h
    obtain ⟨x, hx, -, -, more, hmore, rfl⟩ := h
    obtain ⟨hkeys, hread⟩ := ih hmore
    refine ⟨congrArg (List.cons path) hkeys, ?_⟩
    intro y hy
    rcases List.mem_cons.mp hy with rfl | hy
    · rw [reading_of_existing hx]
    · exact hread y hy

theorem hashProofFiles_ok (h : hashProofFiles d paths = .ok hashed) :
    hashed.map Prod.fst = paths.eraseDups ∧ ∀ x ∈ hashed, d.reading x.1 = some x.2 := by
  simp only [hashProofFiles, bind_eq_ok] at h
  obtain ⟨-, -, h⟩ := h
  exact hashFrom_ok h

theorem mem_sortedPaths {path : String} : path ∈ sortedPaths paths ↔ path ∈ paths := by
  rw [sortedPaths, List.mem_insertionSort, List.mem_eraseDups]

-- the bindings a record gets: one for each cleaned path, as the second look reads it
theorem bindings_ok {checked : Disk} {bs : List Binding} (h : bindings checked d paths = .ok bs) :
    ∃ cleaned, checked.cleanArtifacts paths = .ok cleaned ∧
      (∀ b, b ∈ bs ↔ b.path ∈ cleaned ∧ d.reading b.path = some ⟨b.bytes, b.sha256⟩) ∧
        ∀ p ∈ cleaned, ∃ b ∈ bs, b.path = p := by
  simp only [bindings, bind_eq_ok] at h
  obtain ⟨cleaned, hclean, -, -, h⟩ := h
  refine ⟨cleaned, wrapped_ok hclean, ?_⟩
  by_cases hnil : cleaned = []
  · rw [if_pos hnil, pure_eq_ok] at h
    subst hnil h
    simp
  · simp only [if_neg hnil, bind_eq_ok, pure_eq_ok] at h
    obtain ⟨files, hfiles, rfl⟩ := h
    obtain ⟨hkeys, hread⟩ := hashProofFiles_ok (wrapped_ok hfiles)
    have hmem : ∀ p, p ∈ files.map Prod.fst ↔ p ∈ cleaned := by
      intro p
      rw [hkeys, List.mem_eraseDups, mem_sortedPaths]
    refine ⟨fun b => ⟨?_, ?_⟩, ?_⟩
    · intro hb
      obtain ⟨x, hx, rfl⟩ := List.mem_map.mp hb
      exact ⟨(hmem x.1).mp (List.mem_map_of_mem hx), hread x hx⟩
    · rintro ⟨hp, hr⟩
      obtain ⟨x, hx, hpath⟩ := List.mem_map.mp ((hmem b.path).mpr hp)
      have hr' := hread x hx
      rw [hpath, hr] at hr'
      have heq : b = bind x.1 x.2 := by
        rw [← Option.some.inj hr', hpath]
        rfl
      exact heq ▸ List.mem_map_of_mem hx
    · intro p hp
      obtain ⟨x, hx, rfl⟩ := List.mem_map.mp ((hmem p).mpr hp)
      exact ⟨bind x.1 x.2, List.mem_map_of_mem hx, rfl⟩

end Disks

section Rows
variable {site : Site} {s s' : Store} {r : TrustRow} {id : String} {p : Named}

theorem row_ok (h : s.row site id = .ok r) :
    r ∈ s.rows ∧ r.key = (site.scope, id) ∧ site.stableSha256 r.payload = r.trustSha256 := by
  simp only [Store.row, bind_eq_ok, demand_eq_ok, require_eq_ok, pure_eq_ok] at h
  obtain ⟨x, hx, -, hsha, rfl⟩ := h
  exact ⟨lookup_mem hx, lookup_key hx, hsha⟩

theorem append_ok (h : append site s p = .ok (s', r)) :
    s'.rows = s.rows ++ [r] ∧ r = ⟨p.1, site.stableSha256 p.1⟩ ∧
      ∀ id ∈ p.1.relatedRecordIds, ∃ x, s.row site id = .ok x ∧ x.payload.taskId = p.1.taskId := by
  simp only [append, bind_eq_ok, pure_eq_ok] at h
  obtain ⟨_, hrel, t, ht, heq⟩ := h
  obtain ⟨rfl, rfl⟩ := Prod.mk.inj heq
  rw [Store.insert] at ht
  split at ht
  · obtain rfl := Except.ok.inj ht
    refine ⟨rfl, rfl, ?_⟩
    generalize p.1.relatedRecordIds = ids at hrel
    induction ids with
    | nil => exact fun id hid => absurd hid List.not_mem_nil
    | cons x xs ih =>
      obtain ⟨_, hx, hxs⟩ := bind_eq_ok.mp hrel
      intro id hid
      rcases List.mem_cons.mp hid with rfl | hid
      · obtain ⟨y, hy, hreq⟩ := bind_eq_ok.mp hx
        exact ⟨y, hy, require_eq_ok.mp hreq⟩
      · exact ih hxs id hid
  · cases ht

theorem cleanRelated_safe {ids related out : List String} (hsafe : ∀ id ∈ ids, isSafeId id = true)
    (h : cleanRelated ids related = .ok out) :
    ∀ id, id ∈ out ↔ id ∈ ids ∨ id ∈ related := by
  induction ids generalizing related with
  | nil =>
    obtain rfl := Except.ok.inj h
    simp
  | cons x xs ih =>
    have hx : strip x = x := strip_safe (hsafe x List.mem_cons_self)
    simp only [cleanRelated, bind_eq_ok, hx] at h
    obtain ⟨-, -, h⟩ := h
    intro id
    rw [ih (fun y hy => hsafe y (List.mem_cons_of_mem x hy)) h id, List.mem_cons]
    split
    · next hin =>
      constructor
      · rintro (h | h)
        · exact Or.inl (Or.inr h)
        · exact Or.inr h
      · rintro ((rfl | h) | h)
        · exact Or.inr hin
        · exact Or.inl h
        · exact Or.inr h
    · rw [List.mem_append, List.mem_singleton]
      tauto

structure Prepared (site : Site) (checked hashed : Disk) (a : RecordArgs) (p : Payload) : Prop where
  scope : p.scope = site.scope
  taskId : p.taskId = strip a.taskId
  stage : p.stage = a.stage
  bindings : bindings checked hashed a.artifactPaths = .ok p.sourceBindings
  related : cleanRelated a.relatedRecordIds [] = .ok p.relatedRecordIds

theorem prepare_ok {checked hashed : Disk} {now : Utc} {a : RecordArgs}
    (h : prepare site checked hashed now a = .ok p) : Prepared site checked hashed a p.1 := by
  simp only [prepare, bind_eq_ok] at h
  obtain ⟨-, -, -, -, statement, -, bs, hbs, related, hrel, -, -, -, -, h⟩ := h
  split at h
  · obtain rfl := pure_eq_ok.mp h
    exact ⟨rfl, rfl, rfl, hbs, hrel⟩
  · cases h

structure Recorded (site : Site) (h : Nat → World) (n : Nat) (a : RecordArgs) (s : Store)
    (r : TrustRow) : Prop where
  rows : s.rows = (h (n + 2)).store.rows ++ [r]
  digest : site.stableSha256 r.payload = r.trustSha256
  prepared : Prepared site (h n).disk (h (n + 1)).disk a r.payload
  related : ∀ id ∈ r.payload.relatedRecordIds,
    ∃ x, (h (n + 2)).store.row site id = .ok x ∧ x.payload.taskId = r.payload.taskId

theorem record_ok {h : Nat → World} {n : Nat} {now : Utc} {a : RecordArgs}
    (ok : record site h n now a = .ok (s, r)) : Recorded site h n a s r := by
  simp only [record, bind_eq_ok] at ok
  obtain ⟨p, hp, ok⟩ := ok
  obtain ⟨hrows, rfl, hrel⟩ := append_ok ok
  exact ⟨hrows, rfl, prepare_ok hp, hrel⟩

end Rows

section Histories
variable {site : Site} {h : Nat → World} {n m : Nat} {ids : List String} {rows : List TrustRow}
  {live : List Live} {taskId id : String} {x : TrustRow}

-- nothing updates or deletes a trust record
def Appending (h : Nat → World) : Prop := ∀ n, (h n).store.rows <+: (h (n + 1)).store.rows

theorem Appending.subset (ha : Appending h) (hnm : n ≤ m) (hx : x ∈ (h n).store.rows) :
    x ∈ (h m).store.rows := by
  induction m, hnm using Nat.le_induction with
  | base => exact hx
  | succ m _ ih => exact (ha m).subset ih

structure ReadAll (site : Site) (s : Store) (ids : List String) (rows : List TrustRow) : Prop where
  each : ∀ id ∈ ids, ∃ r ∈ rows, r.key = (site.scope, id)
  stored : ∀ r ∈ rows, r ∈ s.rows
  named : ∀ r ∈ rows, ∃ id ∈ ids, r.key = (site.scope, id)

theorem readEach_ok (ha : Appending h) (hm : n + ids.length ≤ m)
    (ok : readEach site h n ids = .ok rows) : ReadAll site (h m).store ids rows := by
  induction ids generalizing n rows with
  | nil =>
    obtain rfl := Except.ok.inj ok
    exact ⟨fun _ hx => absurd hx List.not_mem_nil, fun _ hx => absurd hx List.not_mem_nil,
      fun _ hx => absurd hx List.not_mem_nil⟩
  | cons id ids ih =>
    simp only [readEach, bind_eq_ok, pure_eq_ok] at ok
    obtain ⟨r, hr, more, hmore, rfl⟩ := ok
    obtain ⟨hin, hkey, -⟩ := row_ok hr
    rw [List.length_cons] at hm
    have hrest := ih (by omega) hmore
    refine ⟨?_, ?_, ?_⟩
    · intro x hx
      rcases List.mem_cons.mp hx with rfl | hx
      · exact ⟨r, List.mem_cons_self, hkey⟩
      · obtain ⟨y, hy, hyk⟩ := hrest.each x hx
        exact ⟨y, List.mem_cons_of_mem r hy, hyk⟩
    · intro y hy
      rcases List.mem_cons.mp hy with rfl | hy
      · exact ha.subset (by omega) hin
      · exact hrest.stored y hy
    · intro y hy
      rcases List.mem_cons.mp hy with rfl | hy
      · exact ⟨id, List.mem_cons_self, hkey⟩
      · obtain ⟨x, hx, hyk⟩ := hrest.named y hy
        exact ⟨x, List.mem_cons_of_mem id hx, hyk⟩

theorem mem_taskRows {s : Store} (hx : x ∈ taskRows site s taskId) :
    x ∈ s.rows ∧ x.payload.scope = site.scope ∧ x.payload.taskId = taskId := by
  have hin := List.mem_of_mem_take hx
  rw [List.mem_insertionSort, List.mem_filter, decide_eq_true_eq] at hin
  exact hin

structure Listed (site : Site) (h : Nat → World) (n : Nat) (taskId : String)
    (hashes : List (String × Reading)) : Prop where
  few : (taskRows site (h n).store taskId).length ≤ 500
  paths : (boundPaths (taskRows site (h n).store taskId)).length ≤ 100
  read : ∀ x ∈ hashes, (h (n + 2)).disk.reading x.1 = some x.2

theorem hashExisting_ok {d : Disk} {existing : List String} {hashes : List (String × Reading)}
    (ok : hashExisting d existing = .ok hashes) : ∀ x ∈ hashes, d.reading x.1 = some x.2 := by
  rw [hashExisting] at ok
  split at ok
  · obtain rfl := Except.ok.inj ok
    exact fun _ hx => absurd hx List.not_mem_nil
  · exact (hashProofFiles_ok (wrapped_ok ok)).2

theorem timeline_ok (ok : timeline site h n taskId = .ok live) :
    ∃ hashes, Listed site h n (strip taskId) hashes ∧
      live = (taskRows site (h n).store (strip taskId)).map (liveRow hashes) := by
  simp only [timeline, bind_eq_ok, require_eq_ok, pure_eq_ok] at ok
  obtain ⟨-, -, -, hfew, _, -, -, hpaths, existing, -, hashes, hhash, rfl⟩ := ok
  refine ⟨hashes, ⟨hfew, hpaths, ?_⟩, rfl⟩
  exact hashExisting_ok hhash

theorem fresh_binding {hashes : List (String × Reading)} {b : Binding}
    (hb : (freshness hashes b).stale = false) :
    ∃ p, (p, (⟨b.bytes, b.sha256⟩ : Reading)) ∈ hashes ∧ p = b.path := by
  rw [freshness] at hb
  split at hb
  · cases hb
  · next p r hl =>
    split at hb
    · cases hb
    · next hsame =>
      push Not at hsame
      obtain ⟨hbytes, hsha⟩ := hsame
      refine ⟨p, ?_, lookup_key hl⟩
      rw [← hbytes, ← hsha]
      exact lookup_mem hl

theorem fresh_row {hashes : List (String × Reading)}
    (hlive : live = (taskRows site (h n).store taskId).map (liveRow hashes))
    (hread : ∀ x ∈ hashes, (h (n + 2)).disk.reading x.1 = some x.2)
    (hfresh : isStale live id = false) :
    ∃ x ∈ taskRows site (h n).store taskId, x.payload.recordId = id ∧
      ∀ b ∈ x.payload.sourceBindings,
        (h (n + 2)).disk.reading b.path = some ⟨b.bytes, b.sha256⟩ := by
  rw [isStale] at hfresh
  split at hfresh
  · cases hfresh
  · next y hl =>
    have hmem := lookup_mem hl
    rw [hlive] at hmem
    obtain ⟨x, hx, rfl⟩ := List.mem_map.mp hmem
    refine ⟨x, hx, @lookup_key _ _ _ Live.recordId _ _ _ hl, ?_⟩
    intro b hb
    have hstale : (freshness hashes b).stale = false := by
      by_contra hne
      rw [Bool.not_eq_false] at hne
      have hany : (liveRow hashes x).stale = true :=
        List.any_eq_true.mpr ⟨freshness hashes b, List.mem_map_of_mem hb, hne⟩
      rw [hfresh] at hany
      cases hany
    obtain ⟨p, hp, rfl⟩ := fresh_binding hstale
    exact hread _ hp

end Histories

section Sources

-- the bound paths are still themselves, and their files read as at the freshness check
structure Unmoved (fresh checked hashed : Disk) (paths : List String) : Prop where
  names : ∃ cleaned, checked.cleanArtifacts paths = .ok cleaned ∧ ∀ p, p ∈ cleaned ↔ p ∈ paths
  contents : ∀ p ∈ paths, hashed.reading p = fresh.reading p

theorem sameSet_iff_unmoved {fresh checked hashed : Disk} {paths : List String}
    {bs evidence : List Binding} (hbs : bindings checked hashed paths = .ok bs)
    (hpaths : ∀ p, p ∈ paths ↔ ∃ b ∈ evidence, b.path = p)
    (hfresh : ∀ b ∈ evidence, fresh.reading b.path = some ⟨b.bytes, b.sha256⟩) :
    SameSet bs evidence ↔ Unmoved fresh checked hashed paths := by
  obtain ⟨cleaned, hclean, hmem, hall⟩ := bindings_ok hbs
  constructor
  · rintro ⟨hsub, hsup⟩
    refine ⟨⟨cleaned, hclean, fun p => ⟨?_, ?_⟩⟩, ?_⟩
    · intro hp
      obtain ⟨b, hb, rfl⟩ := hall p hp
      exact (hpaths b.path).mpr ⟨b, hsub b hb, rfl⟩
    · intro hp
      obtain ⟨b, hb, rfl⟩ := (hpaths p).mp hp
      exact ((hmem b).mp (hsup b hb)).1
    · intro p hp
      obtain ⟨b, hb, rfl⟩ := (hpaths p).mp hp
      rw [((hmem b).mp (hsup b hb)).2, hfresh b hb]
  · rintro ⟨⟨cleaned', hclean', hnames⟩, hcontents⟩
    obtain rfl := Except.ok.inj (hclean.symm.trans hclean')
    constructor
    · intro b hb
      obtain ⟨hc, hr⟩ := (hmem b).mp hb
      have hp := (hnames b.path).mp hc
      obtain ⟨e, he, hpath⟩ := (hpaths b.path).mp hp
      have hre := hfresh e he
      rw [hpath, ← hcontents b.path hp, hr] at hre
      have heq : e = b := by
        obtain ⟨h1, h2⟩ := Reading.mk.inj (Option.some.inj hre)
        cases e
        cases b
        simp_all
      exact heq ▸ he
    · intro e he
      have hp : e.path ∈ paths := (hpaths e.path).mpr ⟨e, he, rfl⟩
      exact (hmem e).mpr ⟨(hnames e.path).mpr hp, (hcontents e.path hp).trans (hfresh e he)⟩

end Sources

-- the test, proof, review and decision records a record refers to
def evidenceOf (s : Store) (r : TrustRow) : List TrustRow :=
  s.rows.filter (fun x => x.payload.scope = r.payload.scope ∧
    x.payload.recordId ∈ r.payload.relatedRecordIds ∧ x.payload.stage.isEvidence = true)

def BindsEvidence (s : Store) (r : TrustRow) : Prop :=
  ∀ x ∈ evidenceOf s r, SameSet r.payload.sourceBindings x.payload.sourceBindings

instance (s : Store) (r : TrustRow) : Decidable (BindsEvidence s r) :=
  inferInstanceAs (Decidable (∀ x ∈ evidenceOf s r, _))

structure Vouched (s : Store) (r : TrustRow) : Prop where
  stages : ∀ stage ∈ requiredStages, ∃ x ∈ evidenceOf s r, x.payload.stage = stage
  oneSet : ∀ x ∈ evidenceOf s r, ∀ y ∈ evidenceOf s r,
    SameSet x.payload.sourceBindings y.payload.sourceBindings
  sameTask : ∀ x ∈ evidenceOf s r, x.payload.taskId = r.payload.taskId

section Evidence
variable {site : Site} {h : Nat → World} {n : Nat} {now : Utc} {a : RelationArgs} {s : Store}
  {r : TrustRow} {rows : List TrustRow} {paths : List String} {xs ys zs : List Binding}

theorem SameSet.symm (h : SameSet xs ys) : SameSet ys xs := ⟨h.2, h.1⟩

theorem SameSet.trans (h : SameSet xs ys) (h' : SameSet ys zs) : SameSet xs zs :=
  ⟨fun x hx => h'.1 x (h.1 x hx), fun z hz => h.2 z (h'.2 z hz)⟩

structure Agreed (rows : List TrustRow) (paths : List String) (first : List Binding) : Prop where
  stages : ∀ stage ∈ requiredStages, ∃ x ∈ rows, x.payload.stage = stage
  some : ∃ x ∈ rows, x.payload.stage.isEvidence = true ∧ x.payload.sourceBindings = first
  same : ∀ x ∈ rows, x.payload.stage.isEvidence = true → SameSet x.payload.sourceBindings first
  paths : ∀ p, p ∈ paths ↔ ∃ b ∈ first, b.path = p

theorem evidencePaths_ok (ok : evidencePaths rows = .ok paths) :
    ∃ first, Agreed rows paths first := by
  simp only [evidencePaths, bind_eq_ok, require_eq_ok] at ok
  obtain ⟨-, hstages, ok⟩ := ok
  split at ok
  · cases ok
  · next first others hsets =>
    simp only [bind_eq_ok, require_eq_ok, pure_eq_ok] at ok
    obtain ⟨-, ⟨-, hsame⟩, rfl⟩ := ok
    refine ⟨first, fun stage hs => List.mem_map.mp (hstages stage hs), ?_, ?_, ?_⟩
    · have hfirst : first ∈ evidenceSets rows := hsets ▸ List.mem_cons_self
      obtain ⟨x, hx, hxf⟩ := List.mem_map.mp hfirst
      obtain ⟨hx, hev⟩ := List.mem_filter.mp hx
      exact ⟨x, hx, hev, hxf⟩
    · intro x hx hev
      have hin : x.payload.sourceBindings ∈ evidenceSets rows :=
        List.mem_map.mpr ⟨x, List.mem_filter.mpr ⟨hx, hev⟩, rfl⟩
      rw [hsets] at hin
      rcases List.mem_cons.mp hin with heq | hin
      · rw [heq]
        exact ⟨fun _ hb => hb, fun _ hb => hb⟩
      · exact hsame _ hin
    · intro p
      simp only [List.mem_map, List.mem_insertionSort, List.mem_eraseDups]

theorem requiredStages_evidence : ∀ stage ∈ requiredStages, stage.isEvidence = true := by
  decide

-- one completion call: what its evidence reading, its freshness check and its record saw
structure Completed (site : Site) (h : Nat → World) (n : Nat) (a : RelationArgs) (rows : List TrustRow)
    (paths : List String) (s : Store) (r : TrustRow) : Prop where
  read : readEach site h n a.evidenceRecordIds.eraseDups = .ok rows
  evidence : evidencePaths rows = .ok paths
  fresh : ∃ hashes live, Listed site h (n + a.evidenceRecordIds.eraseDups.length) (strip a.taskId)
      hashes ∧ live = (taskRows site (h (n + a.evidenceRecordIds.eraseDups.length)).store
        (strip a.taskId)).map (liveRow hashes) ∧
    ∀ id ∈ a.evidenceRecordIds.eraseDups, isStale live id = false
  recorded : Recorded site h (n + a.evidenceRecordIds.eraseDups.length + 3)
    ⟨a.taskId, .completion, a.statement, paths, a.evidenceRecordIds.eraseDups, none, a.uuid⟩ s r

theorem recordCompletion_ok (ok : recordCompletion site h n now a = .ok (s, r)) :
    ∃ rows paths, Completed site h n a rows paths s r := by
  simp only [recordCompletion, bind_eq_ok, require_eq_ok] at ok
  obtain ⟨rows, hread, paths, hpaths, live, hlive, -, hfresh, ok⟩ := ok
  obtain ⟨hashes, hlisted, hmap⟩ := timeline_ok hlive
  refine ⟨rows, paths, hread, hpaths, ⟨hashes, live, hlisted, hmap, ?_⟩, record_ok ok⟩
  intro id hid
  simpa using List.all_eq_true.mp hfresh id hid

section Completions
variable (ha : Appending h) (hc : Completed site h n a rows paths s r)
include ha hc

theorem Completed.readAll : ReadAll site s a.evidenceRecordIds.eraseDups rows := by
  have hread := readEach_ok ha (m := n + a.evidenceRecordIds.eraseDups.length + 5) (by omega)
    hc.read
  refine ⟨hread.each, fun y hy => ?_, hread.named⟩
  rw [hc.recorded.rows]
  exact List.mem_append_left _ (hread.stored y hy)

theorem Completed.related (id : String) :
    id ∈ r.payload.relatedRecordIds ↔ id ∈ a.evidenceRecordIds.eraseDups := by
  have hread := hc.readAll ha
  have hsafe : ∀ id ∈ a.evidenceRecordIds.eraseDups, isSafeId id = true := by
    intro id hid
    obtain ⟨y, hy, hkey⟩ := hread.each id hid
    have hs := s.safe y (hread.stored y hy)
    rwa [show y.payload.recordId = id from (Prod.mk.inj hkey).2] at hs
  rw [cleanRelated_safe hsafe hc.recorded.prepared.related id]
  simp

theorem mem_evidenceOf {x : TrustRow} :
    x ∈ evidenceOf s r ↔ x ∈ rows ∧ x.payload.stage.isEvidence = true := by
  have hread := hc.readAll ha
  rw [evidenceOf, List.mem_filter, decide_eq_true_eq, hc.recorded.prepared.scope, hc.related ha]
  constructor
  · rintro ⟨hx, hscope, hid, hev⟩
    obtain ⟨y, hy, hkey⟩ := hread.each _ hid
    have hxk : x.key = y.key := by rw [hkey, TrustRow.key, hscope]
    rw [eq_of_key_eq s.keys hx (hread.stored y hy) hxk]
    exact ⟨hy, by rwa [← eq_of_key_eq s.keys hx (hread.stored y hy) hxk]⟩
  · rintro ⟨hx, hev⟩
    obtain ⟨id, hid, hkey⟩ := hread.named x hx
    obtain ⟨hscope, rfl⟩ := Prod.mk.inj hkey
    exact ⟨hread.stored x hx, hscope, hid, hev⟩

theorem Completed.freshRow {x : TrustRow} (hx : x ∈ rows) :
    x.payload.taskId = strip a.taskId ∧ ∀ b ∈ x.payload.sourceBindings,
      (h (n + a.evidenceRecordIds.eraseDups.length + 2)).disk.reading b.path =
        some ⟨b.bytes, b.sha256⟩ := by
  obtain ⟨hashes, live, hlisted, hmap, hfresh⟩ := hc.fresh
  have hread := readEach_ok ha (m := n + a.evidenceRecordIds.eraseDups.length) (by omega) hc.read
  obtain ⟨id, hid, hkey⟩ := hread.named x hx
  obtain ⟨y, hy, hyid, hybs⟩ := fresh_row hmap hlisted.read (hfresh id hid)
  obtain ⟨hin, hscope, htask⟩ := mem_taskRows hy
  have hyk : y.key = x.key := by rw [hkey, TrustRow.key, hscope, hyid]
  rw [← eq_of_key_eq (h _).store.keys hin (hread.stored x hx) hyk]
  exact ⟨htask, hybs⟩

theorem completion_vouched : Vouched s r := by
  obtain ⟨first, hagreed⟩ := evidencePaths_ok hc.evidence
  refine ⟨?_, ?_, ?_⟩
  · intro stage hs
    obtain ⟨x, hx, rfl⟩ := hagreed.stages stage hs
    exact ⟨x, (mem_evidenceOf ha hc).mpr ⟨hx, requiredStages_evidence _ hs⟩, rfl⟩
  · intro x hx y hy
    obtain ⟨hx, hxe⟩ := (mem_evidenceOf ha hc).mp hx
    obtain ⟨hy, hye⟩ := (mem_evidenceOf ha hc).mp hy
    exact (hagreed.same x hx hxe).trans (hagreed.same y hy hye).symm
  · intro x hx
    obtain ⟨hx, -⟩ := (mem_evidenceOf ha hc).mp hx
    rw [(hc.freshRow ha hx).1, hc.recorded.prepared.taskId]

theorem binds_iff_unmoved :
    BindsEvidence s r ↔ Unmoved (h (n + a.evidenceRecordIds.eraseDups.length + 2)).disk
      (h (n + a.evidenceRecordIds.eraseDups.length + 3)).disk
      (h (n + a.evidenceRecordIds.eraseDups.length + 4)).disk paths := by
  obtain ⟨first, hagreed⟩ := evidencePaths_ok hc.evidence
  obtain ⟨x, hx, hxe, hxf⟩ := hagreed.some
  rw [← sameSet_iff_unmoved hc.recorded.prepared.bindings hagreed.paths
    (fun b hb => (hc.freshRow ha hx).2 b (hxf ▸ hb))]
  constructor
  · intro hb
    exact hxf ▸ hb x ((mem_evidenceOf ha hc).mpr ⟨hx, hxe⟩)
  · intro hsame y hy
    obtain ⟨hy, hye⟩ := (mem_evidenceOf ha hc).mp hy
    exact hsame.trans (hagreed.same y hy hye).symm

end Completions

theorem completion_binds_iff_unmoved (ha : Appending h)
    (ok : recordCompletion site h n now a = .ok (s, r)) :
    ∃ rows paths, readEach site h n a.evidenceRecordIds.eraseDups = .ok rows ∧
      evidencePaths rows = .ok paths ∧ Vouched s r ∧
      (BindsEvidence s r ↔ Unmoved (h (n + a.evidenceRecordIds.eraseDups.length + 2)).disk
        (h (n + a.evidenceRecordIds.eraseDups.length + 3)).disk
        (h (n + a.evidenceRecordIds.eraseDups.length + 4)).disk paths) := by
  obtain ⟨rows, paths, hc⟩ := recordCompletion_ok ok
  exact ⟨rows, paths, hc.read, hc.evidence, completion_vouched ha hc, binds_iff_unmoved ha hc⟩

end Evidence

section Sample

def sampleSite : Site := ⟨"s", "human-operator", fun _ => false, fun _ => ⟨0⟩⟩

def sampleRow (id : String) (stage : Stage) : TrustRow :=
  ⟨⟨"s", id, "k", "human-operator", stage, "seen", [⟨"f", 1, ⟨5⟩⟩], [], 0⟩, ⟨0⟩⟩

def sampleRows : List TrustRow :=
  [sampleRow "1" .test, sampleRow "2" .proof, sampleRow "3" .review, sampleRow "4" .decision]

def sampleStore : Store := ⟨sampleRows, by decide +kernel, by decide +kernel⟩

def sampleDisk (r : Reading) : Disk :=
  ⟨.ok, fun _ => .ok (), fun p => if p = "f" then some r else none, fun _ => .ok ()⟩

-- the file is edited before the given step
def sampleHistory (edit : Nat) (i : Nat) : World :=
  ⟨sampleStore, sampleDisk (if i < edit then ⟨1, ⟨5⟩⟩ else ⟨2, ⟨6⟩⟩)⟩

def sampleArgs : RelationArgs := ⟨"k", "done", ["1", "2", "3", "4"], "5"⟩

theorem sample_appending (edit : Nat) : Appending (sampleHistory edit) :=
  fun _ => List.prefix_refl _

theorem completion_binds_iff_unmoved_sample :
    ∃ x, recordCompletion sampleSite (sampleHistory 9) 0 0 sampleArgs = .ok x ∧
      ∃ rows paths, readEach sampleSite (sampleHistory 9) 0 ["1", "2", "3", "4"] = .ok rows ∧
        evidencePaths rows = .ok paths ∧ Vouched x.1 x.2 ∧
        (BindsEvidence x.1 x.2 ↔ Unmoved (sampleHistory 9 6).disk (sampleHistory 9 7).disk
          (sampleHistory 9 8).disk paths) := by
  have ok : isOk (recordCompletion sampleSite (sampleHistory 9) 0 0 sampleArgs) = true := by
    decide +kernel
  obtain ⟨⟨s, r⟩, h⟩ := isOk_iff.mp ok
  exact ⟨(s, r), h, completion_binds_iff_unmoved (sample_appending 9) h⟩

def bindsItsEvidence (x : Except Failure (Store × TrustRow)) : Bool :=
  match x with
  | .ok (s, r) => decide (BindsEvidence s r)
  | .error _ => true

-- the file is edited between the freshness check and the hashing of the record
theorem edited_source_vouched :
    ∃ x, recordCompletion sampleSite (sampleHistory 7) 0 0 sampleArgs = .ok x ∧
      ¬BindsEvidence x.1 x.2 := by
  have ok : isOk (recordCompletion sampleSite (sampleHistory 7) 0 0 sampleArgs) = true := by
    decide +kernel
  obtain ⟨⟨s, r⟩, h⟩ := isOk_iff.mp ok
  refine ⟨(s, r), h, ?_⟩
  have hnot : bindsItsEvidence (recordCompletion sampleSite (sampleHistory 7) 0 0 sampleArgs) =
      false := by
    decide +kernel
  rw [h] at hnot
  exact of_decide_eq_false hnot

end Sample

end PeerBridge.Trust
