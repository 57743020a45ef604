import PeerBridge.Memories.Listing

namespace PeerBridge.Memories
open Checked Rows

-- a record that supersedes another is for the same readers
def Vault.Kindred (v : Vault) : Prop :=
  ∀ x ∈ v.memories, ∀ id ∈ x.supersedesMemoryId,
    ∃ m, v.memory? x.scope id = some m ∧ m.audience = x.audience

section Kinship
variable {P : Platform} {F : TextForms} {c : Ctx} {v v' : Vault} {m : MemoryRow}

theorem Vault.Kindred.keeps {x : MemoryRow} {id : String} (hk : Keeps v v')
    (h : ∃ m, v.memory? x.scope id = some m ∧ m.audience = x.audience) :
    ∃ m, v'.memory? x.scope id = some m ∧ m.audience = x.audience := by
  obtain ⟨p, hp, haudience⟩ := h
  obtain ⟨q, hq, -, hsame⟩ := hk.memories hp
  exact ⟨q, hq, hsame.trans haudience⟩

theorem bindSuperseded_kin {q : RecordRequest} {x : Option MemoryRow} {id : String}
    (h : bindSuperseded P c q v = .ok x) (hid : q.supersedesMemoryId = some id) :
    ∃ p, v.memory? c.self.scope id = some p ∧ p.visibility = q.visibility ∧ p.roomId = q.roomId ∧
      (p.visibility = "private" → p.ownerAgentId = c.self.agentId) := by
  simp only [bindSuperseded, hid, bind_eq_ok, memoryRow_eq_ok, require_eq_ok] at h
  obtain ⟨p, ⟨hp, -⟩, _, haccess, _, -, _, ⟨hvisibility, hroom⟩, -⟩ := h
  refine ⟨p, hp, hvisibility, hroom, fun hprivate => ?_⟩
  rw [requireMemoryReadAccess, if_neg (by rw [hprivate]; decide), if_pos hprivate] at haccess
  simp only [bind_eq_ok, require_eq_ok] at haccess
  obtain ⟨_, howner, -⟩ := haccess
  exact howner

theorem recordMemory_kindred {a : RecordArgs} (hv : v.Kindred)
    (h : recordMemory P F c a v = .ok (v', m)) : v'.Kindred := by
  have hkeep := recordMemory_keeps h
  obtain ⟨q, source, parent, superseded, -, -, -, hsu, hm, -, hrows, -⟩ := recordMemory_eq_ok h
  intro x hx id hid
  rw [hrows] at hx
  rcases List.mem_append.mp hx with hx | hx
  · exact Vault.Kindred.keeps hkeep (hv x hx id hid)
  · obtain rfl := List.mem_singleton.mp hx
    rw [hm] at hid
    obtain ⟨p, hp, hvisibility, hroom, howner⟩ := bindSuperseded_kin hsu hid
    refine Vault.Kindred.keeps hkeep ⟨p, ?_, ?_⟩
    · rw [hm]
      exact hp
    · rw [hm]
      simp only [MemoryRow.audience, recordedRow, sealMemory, ← hvisibility, ← hroom]
      split
      · rename_i hprivate
        rw [howner hprivate]
      · rfl

theorem revokeMemory_kindred {a : RevokeArgs} (hv : v.Kindred)
    (h : revokeMemory P F c a v = .ok (v', m)) : v'.Kindred := by
  have hkeep := revokeMemory_keeps h
  obtain ⟨row, hold, -, ⟨_, _, _, hm⟩, hrows, -⟩ := revokeMemory_eq_ok h
  intro x hx id hid
  rw [hrows] at hx
  rcases mem_upsert hx with rfl | hx
  · rw [hm] at hid ⊢
    exact Vault.Kindred.keeps hkeep (hv row (lookup_mem hold) id hid)
  · exact Vault.Kindred.keeps hkeep (hv x hx id hid)

theorem reachable_kindred {a : Archive} (h : (archive P F).Reachable a) : a.vault.Kindred := by
  refine h.invariant (fun a => a.vault.Kindred) (fun a ha => ?_) (fun a i hi _ => ?_)
  · have hnil : a.vault.memories = [] := ha.2
    simp [Vault.Kindred, hnil]
  · change (attemptArchive P F a i).1.vault.Kindred
    unfold attemptArchive
    split
    · exact hi
    · exact finish_cases hi (fun v m hr => recordMemory_kindred hi hr)
    · exact finish_cases hi (fun v m hr => revokeMemory_kindred hi hr)

theorem readable_audience {b : Bridge} {n : MemoryRow} (h : m.audience = n.audience) :
    readable b v m = readable b v n := by
  simp only [MemoryRow.audience, Prod.mk.injEq] at h
  obtain ⟨hvisibility, hroom, howner⟩ := h
  rw [readable, readable, requireMemoryReadAccess, requireMemoryReadAccess, hvisibility, hroom]
  by_cases hprivate : n.visibility = "private"
  · rw [if_pos (hvisibility.trans hprivate), if_pos hprivate] at howner
    rw [Option.some.inj howner]
  · rw [if_neg hprivate, if_neg hprivate]

end Kinship

section Order
variable {m n o : MemoryRow}

theorem later_total (m n : MemoryRow) : later m n ∨ later n m := by
  unfold later
  rcases lt_trichotomy m.createdUtc n.createdUtc with h | h | h
  · exact .inr (.inl h)
  · exact (le_total n.memoryId m.memoryId).imp (fun hle => .inr ⟨h.symm, hle⟩)
      (fun hle => .inr ⟨h, hle⟩)
  · exact .inl (.inl h)

theorem later_trans (h : later m n) (k : later n o) : later m o := by
  rcases h with h | ⟨h, hle⟩ <;> rcases k with k | ⟨k, kle⟩
  · exact .inl (k.trans h)
  · exact .inl (k ▸ h)
  · exact .inl (h ▸ k)
  · exact .inr ⟨k.trans h, kle.trans hle⟩

theorem later_antisymm (h : later m n) (k : later n m) :
    m.createdUtc = n.createdUtc ∧ m.memoryId = n.memoryId := by
  rcases h with h | ⟨h, hle⟩ <;> rcases k with k | ⟨k, kle⟩
  · exact absurd h k.asymm
  · exact absurd h (k ▸ lt_irrefl _)
  · exact absurd k (h ▸ lt_irrefl _)
  · exact ⟨h.symm, le_antisymm kle hle⟩

instance : Std.Total later := ⟨later_total⟩

instance : IsTrans MemoryRow later := ⟨fun _ _ _ => later_trans⟩

end Order

def superseders (scope : String) (v : Vault) (memoryId : String) : List MemoryRow :=
  v.memories.filter (fun m => m.scope = scope ∧ m.supersedesMemoryId = some memoryId)

-- what a report of the most recently created superseder says
def IsNewest (rows : List MemoryRow) : Option String → Prop
  | none => rows = []
  | some memoryId => ∃ x ∈ rows, x.memoryId = memoryId ∧ ∀ y ∈ rows, later x y

theorem getLast?_head?_iff {α β : Type} {f : α → β} {xs : List α} (h : (xs.map f).Nodup) :
    xs.getLast?.map f = xs.head?.map f ↔ xs.length ≤ 1 := by
  cases xs with
  | nil => simp
  | cons x xs =>
    cases xs using List.reverseRecOn with
    | nil => simp
    | append_singleton xs y =>
      have hne : f x ≠ f y := by
        intro he
        simp [he] at h
      have hlast : (x :: (xs ++ [y])).getLast? = some y :=
        List.getLast?_append_of_ne_nil (x :: xs) (by simp)
      simp [hlast, hne.symm]

section Reports
variable {P : Platform} {F : TextForms} {b : Bridge} {v : Vault} {id : String}

theorem lookup_enter {items : List MemoryRow} {dict : List (String × String)}
    (h : ∀ m ∈ items, m.supersedesMemoryId.isSome = true) :
    (lookup Prod.fst id (items.foldl (enter b v) dict)).map Prod.snd =
      ((items.filter (fun m => readable b v m = true ∧ m.supersedesMemoryId = some id)).getLast?.map
        MemoryRow.memoryId).or ((lookup Prod.fst id dict).map Prod.snd) := by
  induction items generalizing dict with
  | nil => rfl
  | cons m items ih =>
    obtain ⟨hm, hitems⟩ := List.forall_mem_cons.mp h
    obtain ⟨k, hk⟩ := Option.isSome_iff_exists.mp hm
    rw [List.foldl_cons, ih hitems]
    by_cases hr : readable b v m = true
    · rw [enter, if_pos hr, hk, Option.getD_some, lookup_upsert]
      by_cases hid : k = id
      · rw [if_pos (show (k, m.memoryId).1 = id from hid), List.filter_cons_of_pos (by simp [hr, hk, hid]), List.getLast?_cons]
        cases (items.filter _).getLast? <;> simp
      · rw [if_neg (show ¬ (k, m.memoryId).1 = id from hid), List.filter_cons_of_neg (by simp [hk, hid])]
    · rw [enter, if_neg hr, List.filter_cons_of_neg (by simp [hr])]

theorem sorted_superseders (hkeys : (v.memories.map MemoryRow.key).Nodup) (scope : String) :
    (superseding scope v).filter (fun m => m.supersedesMemoryId = some id) =
      (superseders scope v id).insertionSort later := by
  refine @List.Perm.eq_of_pairwise _ later _ _ (fun m n hm hn h k => ?_)
    ((List.pairwise_insertionSort later _).filter _) (List.pairwise_insertionSort later _) ?_
  · obtain ⟨hm, hmscope, -⟩ := mem_superseding.mp (List.mem_of_mem_filter hm)
    have hn := (List.mem_insertionSort later).mp hn
    simp only [superseders, List.mem_filter, decide_eq_true_eq] at hn
    refine eq_of_key_eq hkeys hm hn.1 (Prod.ext (hmscope.trans hn.2.1.symm) ?_)
    exact (later_antisymm h k).2
  · refine ((List.perm_insertionSort later _).filter _).trans (.trans ?_
      (List.perm_insertionSort later _).symm)
    rw [List.filter_filter, superseders]
    refine List.Perm.of_eq (List.filter_congr (fun m _ => ?_))
    by_cases hid : m.supersedesMemoryId = some id <;> simp [hid]

theorem superseder_readable {m x : MemoryRow} (hv : v.Kindred)
    (hkeys : (v.memories.map MemoryRow.key).Nodup) (hm : m ∈ v.memories)
    (hr : readable b v m = true) (hx : x ∈ v.memories) (hscope : x.scope = m.scope)
    (hid : x.supersedesMemoryId = some m.memoryId) : readable b v x = true := by
  obtain ⟨p, hp, haudience⟩ := hv x hx m.memoryId hid
  rw [hscope, memory?_of_mem hkeys hm] at hp
  obtain rfl := Option.some.inj hp
  rwa [← readable_audience haudience]

theorem listed_report {lowercase : String → String} {x : ListArgs} {listing : MemoryListing}
    {l : Listed} (hs : v.Sound P) (hk : v.Kindred)
    (h : listMemories P lowercase b x v = .ok listing) (hl : l ∈ listing.memories) :
    l.supersededByMemoryId =
      ((superseders b.scope v l.row.memoryId).insertionSort later).getLast?.map
        MemoryRow.memoryId := by
  obtain ⟨q, hq⟩ : ∃ q, requireListing lowercase b x v = .ok q := by
    simp only [listMemories, bind_eq_ok] at h
    obtain ⟨q, hq, -⟩ := h
    exact ⟨q, hq⟩
  obtain ⟨dict, hdict, hrows⟩ := listMemories_eq_ok hq h
  rw [hrows] at hl
  obtain ⟨m, hm, rfl⟩ := List.mem_map.mp hl
  obtain ⟨hm, hshows⟩ := List.mem_filter.mp (List.mem_of_mem_take hm)
  obtain ⟨hmem, hscope, -⟩ := mem_selected.mp (List.mem_of_mem_take hm)
  have hr : readable b v m = true := by
    simp only [ListRequest.shows, Bool.and_eq_true] at hshows
    exact hshows.1
  rw [supersededBy_eq hs] at hdict
  obtain rfl := Except.ok.inj hdict
  change (lookup Prod.fst m.memoryId _).map Prod.snd =
    ((superseders b.scope v m.memoryId).insertionSort later).getLast?.map MemoryRow.memoryId
  rw [lookup_enter (fun x hx => (mem_superseding.mp hx).2.2)]
  change (Option.map _ _).or none = _
  rw [Option.or_none, ← sorted_superseders hs.keys]
  congr 2
  refine List.filter_congr (fun x hx => ?_)
  obtain ⟨hx, hxscope, -⟩ := mem_superseding.mp hx
  by_cases hid : x.supersedesMemoryId = some m.memoryId
  · simp [hid, superseder_readable hk hs.keys hmem hr hx (hxscope.trans hscope.symm) hid]
  · simp [hid]

theorem readMemory_eq_ok {t : String} {r : Listed} (h : readMemory P b t v = .ok r) :
    r.supersededByMemoryId =
      ((superseders b.scope v r.row.memoryId).insertionSort later).head?.map
        MemoryRow.memoryId := by
  simp only [readMemory, bind_eq_ok, memoryRow_eq_ok, pure_eq_ok] at h
  obtain ⟨id, -, row, ⟨hrow, -⟩, _, -, rfl⟩ := h
  have hkey : row.key = (b.scope, id) := lookup_key hrow
  obtain rfl := (Prod.mk.inj hkey).2
  rfl

theorem head?_newest (rows : List MemoryRow) :
    IsNewest rows ((rows.insertionSort later).head?.map MemoryRow.memoryId) := by
  cases h : rows.insertionSort later with
  | nil =>
    have hlength := List.length_insertionSort later rows
    rw [h] at hlength
    exact List.eq_nil_of_length_eq_zero hlength.symm
  | cons x xs =>
    have hsorted := List.pairwise_insertionSort later rows
    rw [h] at hsorted
    have hmem : ∀ y, y ∈ rows ↔ y ∈ x :: xs := fun y => by rw [← h, List.mem_insertionSort]
    refine ⟨x, (hmem x).mpr List.mem_cons_self, rfl, fun y hy => ?_⟩
    rcases List.mem_cons.mp ((hmem y).mp hy) with rfl | hy
    · exact (later_total y y).elim id id
    · exact List.rel_of_pairwise_cons hsorted hy

theorem superseders_nodup (h : (v.memories.map MemoryRow.key).Nodup) (scope : String) :
    (((superseders scope v id).insertionSort later).map MemoryRow.memoryId).Nodup := by
  have hperm := (List.perm_insertionSort later (superseders scope v id)).map MemoryRow.memoryId
  rw [hperm.nodup_iff]
  refine (List.nodup_map_iff_inj_on (h.of_map.filter _)).mpr (fun x hx y hy he => ?_)
  simp only [List.mem_filter, decide_eq_true_eq] at hx hy
  exact eq_of_key_eq h hx.1 hy.1 (Prod.ext (hx.2.1.trans hy.2.1.symm) he)

/-- A listing and a reading of one record agree on its newest superseder exactly when no more than
one record supersedes it. -/
theorem supersession_reported_iff {a : Archive} (ha : (archive P F).Reachable a)
    (lowercase : String → String) (b : Bridge) (x : ListArgs) (t : String)
    (listing : MemoryListing) (l r : Listed)
    (h : listMemories P lowercase b x a.vault = .ok listing) (hl : l ∈ listing.memories)
    (hr : readMemory P b t a.vault = .ok r) (hid : r.row.memoryId = l.row.memoryId) :
    (l.supersededByMemoryId = r.supersededByMemoryId ∧
        IsNewest (superseders b.scope a.vault l.row.memoryId) r.supersededByMemoryId) ↔
      (superseders b.scope a.vault l.row.memoryId).length ≤ 1 := by
  have hs := reachable_sound ha
  rw [listed_report hs (reachable_kindred ha) h hl, readMemory_eq_ok hr, hid,
    getLast?_head?_iff (superseders_nodup hs.keys _), List.length_insertionSort]
  exact and_iff_left (head?_newest _)

end Reports

def superseding3 (second : Nat) : ArchiveCall × Ctx :=
  (.record { visibility := "room", roomId := "r", title := "newer", body := "text",
             supersedesMemoryId := (Uuid.ofNat 1003).text }, sampleCtx sampleHuman second)

def twiceArchive : Archive :=
  sampleArchive [sampleRecord "old" 3, superseding3 4, superseding3 5]

theorem twiceArchive_reachable : (archive samplePlatform plainForms).Reachable twiceArchive :=
  sampleArchive_reachable (by decide +kernel)

def oldArgs : ListArgs := { roomId := "r", query := "old" }

theorem twiceArchive_reports :
    (listMemories samplePlatform lower sampleHuman oldArgs twiceArchive.vault).toOption.map
      (fun x => x.memories.map (fun l => (l.row.memoryId, l.supersededByMemoryId))) =
        some [((Uuid.ofNat 1003).text, some (Uuid.ofNat 1004).text)] ∧
    (readMemory samplePlatform sampleHuman (Uuid.ofNat 1003).text twiceArchive.vault).toOption.map
      (fun r => (r.row.memoryId, r.supersededByMemoryId)) =
        some ((Uuid.ofNat 1003).text, some (Uuid.ofNat 1005).text) := by decide +kernel

theorem twiceArchive_split : ∃ listing l r,
    listMemories samplePlatform lower sampleHuman oldArgs twiceArchive.vault = .ok listing ∧
    l ∈ listing.memories ∧
    readMemory samplePlatform sampleHuman (Uuid.ofNat 1003).text twiceArchive.vault = .ok r ∧
    r.row.memoryId = l.row.memoryId ∧ l.supersededByMemoryId ≠ r.supersededByMemoryId := by
  obtain ⟨hlist, hread⟩ := twiceArchive_reports
  obtain ⟨listing, hl, hrows⟩ := Option.map_eq_some_iff.mp hlist
  obtain ⟨r, hr, hreport⟩ := Option.map_eq_some_iff.mp hread
  obtain ⟨l, hmem, hlisted⟩ : ∃ l ∈ listing.memories, (l.row.memoryId, l.supersededByMemoryId) =
      ((Uuid.ofNat 1003).text, some (Uuid.ofNat 1004).text) :=
    List.mem_map.mp (hrows ▸ List.mem_singleton_self _)
  simp only [Prod.mk.injEq] at hreport hlisted
  refine ⟨listing, l, r, toOption_eq_some hl, hmem, toOption_eq_some hr,
    hreport.1.trans hlisted.1.symm, ?_⟩
  rw [hlisted.2, hreport.2]
  decide

theorem supersession_reported_iff_twice : ∃ l r : Listed,
    (l.supersededByMemoryId = r.supersededByMemoryId ∧
        IsNewest (superseders "demo" twiceArchive.vault l.row.memoryId) r.supersededByMemoryId) ↔
      (superseders "demo" twiceArchive.vault l.row.memoryId).length ≤ 1 := by
  obtain ⟨listing, l, r, hl, hmem, hr, hid, -⟩ := twiceArchive_split
  exact ⟨l, r, supersession_reported_iff twiceArchive_reachable lower sampleHuman oldArgs _ listing
    l r hl hmem hr hid⟩

-- of two records that supersede a third, a listing names the older and a reading the newer
theorem twice_superseded_disagrees : ¬ ∀ a, (archive samplePlatform plainForms).Reachable a →
    ∀ b x t listing, ∀ l r : Listed, listMemories samplePlatform lower b x a.vault = .ok listing →
      l ∈ listing.memories → readMemory samplePlatform b t a.vault = .ok r →
      r.row.memoryId = l.row.memoryId → l.supersededByMemoryId = r.supersededByMemoryId := by
  intro h
  obtain ⟨listing, l, r, hl, hmem, hr, hid, hne⟩ := twiceArchive_split
  exact hne (h twiceArchive twiceArchive_reachable sampleHuman oldArgs _ listing l r hl hmem hr hid)

end PeerBridge.Memories
