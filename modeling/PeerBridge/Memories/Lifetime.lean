import PeerBridge.Memories.Briefing
import PeerBridge.Context.Snapshot

namespace PeerBridge.Memories
open Checked Rows

-- what becomes of a record: nothing, or one revocation
def Ages (p q : MemoryRow) : Prop :=
  q = p ∨ (p.status = "active" ∧ ∃ revoked reason sha,
    q = { p with status := "revoked", revokedUtc := some revoked,
                 revocationReason := some reason, revocationSha256 := some sha })

-- the record p as it stands in v
def StillIn (scope id : String) (p : MemoryRow) (v : Vault) : Prop :=
  ∃ q, v.memory? scope id = some q ∧ Ages p q

section Steps
variable {P : Platform} {F : TextForms} {c : Ctx} {v v' : Vault} {m p q r : MemoryRow}
  {scope id : String}

theorem Ages.frozen (h : Ages p q) (hp : p.status ≠ "active") : q = p :=
  h.resolve_right (fun h => hp h.1)

theorem Ages.trans (h : Ages p q) (k : Ages q r) : Ages p r := by
  rcases h with rfl | ⟨hp, revoked, reason, sha, rfl⟩
  · exact k
  · have hr := k.frozen (fun h =>
      absurd (show "revoked" = "active" from h) (by decide))
    exact .inr ⟨hp, revoked, reason, sha, hr⟩

theorem recordMemory_ages {a : RecordArgs} (h : recordMemory P F c a v = .ok (v', m))
    (hp : v.memory? scope id = some p) : v'.memory? scope id = some p := by
  obtain ⟨-, -, -, -, -, -, -, -, -, -, hrows, -⟩ := recordMemory_eq_ok h
  rw [Vault.memory?] at hp ⊢
  rw [hrows, lookup_append, hp, Option.some_or]

theorem revokeMemory_ages {a : RevokeArgs} (h : revokeMemory P F c a v = .ok (v', m))
    (hp : v.memory? scope id = some p) : StillIn scope id p v' := by
  obtain ⟨row, hold, hactive, ⟨revoked, reason, sha, hm⟩, hrows, -⟩ := revokeMemory_eq_ok h
  rw [StillIn, Vault.memory?, hrows, lookup_upsert]
  by_cases hk : m.key = (scope, id)
  · have hrow : some row = some p := by
      rw [← hold, ← hp, Vault.memory?, Vault.memory?, ← hk]
      rfl
    obtain rfl := Option.some.inj hrow
    exact ⟨m, if_pos hk, .inr ⟨hactive, revoked, reason, sha, hm⟩⟩
  · rw [if_neg hk]
    exact ⟨p, hp, .inl rfl⟩

theorem attemptArchive_ages {a : Archive} (i : ArchiveCall × Ctx)
    (hp : a.vault.memory? scope id = some p) :
    StillIn scope id p (attemptArchive P F a i).1.vault := by
  have hsame : StillIn scope id p a.vault := ⟨p, hp, .inl rfl⟩
  unfold attemptArchive
  split
  · exact hsame
  · exact finish_cases hsame (fun v m hr => ⟨p, recordMemory_ages hr hp, .inl rfl⟩)
  · exact finish_cases hsame (fun v m hr => revokeMemory_ages hr hp)

theorem run_ages {a a' : Archive} {tr : List ((ArchiveCall × Ctx) × ArchiveReply)}
    (h : (archive P F).Run a tr a') (hp : a.vault.memory? scope id = some p) :
    StillIn scope id p a'.vault := by
  refine h.preserves (fun x => StillIn scope id p x.vault)
    (fun x i ⟨q, hq, hages⟩ _ => ?_) ⟨p, hp, .inl rfl⟩
  obtain ⟨r, hr, hnext⟩ := attemptArchive_ages i hq
  exact ⟨r, hr, hages.trans hnext⟩

end Steps

section Queries
variable {P : Platform} {F : TextForms} {v : Vault} {m p : MemoryRow} {scope id : String}

theorem inactive_absent (hkeys : (v.memories.map MemoryRow.key).Nodup)
    (hp : v.memory? scope id = some p) (hstatus : p.status ≠ "active") (hm : m ∈ v.memories)
    (hscope : m.scope = scope) (hactive : m.status = "active") : m.memoryId ≠ id := by
  rintro rfl
  rw [← hscope, memory?_of_mem hkeys hm] at hp
  exact hstatus (Option.some.inj hp ▸ hactive)

theorem listed_active {lowercase : String → String} {b : Bridge} {x : ListArgs}
    {listing : MemoryListing} (hx : x.includeRevoked = false)
    (h : listMemories P lowercase b x v = .ok listing) :
    ∀ l ∈ listing.memories, l.row ∈ v.memories ∧ l.row.scope = b.scope ∧
      l.row.status = "active" := by
  intro l hl
  obtain ⟨q, hq⟩ : ∃ q, requireListing lowercase b x v = .ok q := by
    simp only [listMemories, bind_eq_ok] at h
    obtain ⟨q, hq, -⟩ := h
    exact ⟨q, hq⟩
  have hinclude : q.includeRevoked = false := by
    simp only [requireListing, bind_eq_ok, require_eq_ok, pure_eq_ok] at hq
    obtain ⟨-, -, roomId, -, -, -, _, -, -, -, rfl⟩ := hq
    exact hx
  obtain ⟨dict, -, hrows⟩ := listMemories_eq_ok hq h
  rw [hrows] at hl
  obtain ⟨m, hm, rfl⟩ := List.mem_map.mp hl
  obtain ⟨hm, -⟩ := List.mem_filter.mp (List.mem_of_mem_take hm)
  obtain ⟨hmem, hscope, hactive, -⟩ := mem_selected.mp (List.mem_of_mem_take hm)
  exact ⟨hmem, hscope, hactive.resolve_left (by rw [hinclude]; exact Bool.false_ne_true)⟩

theorem visibleRows_subset {b : Bridge} {rows found : List MemoryRow}
    (h : visibleRows P b v rows = .ok found) : found ⊆ rows := by
  induction rows generalizing found with
  | nil =>
    obtain rfl := pure_eq_ok.mp h
    exact List.Subset.refl _
  | cons row rows ih =>
    rw [visibleRows] at h
    split at h
    · simp only [bind_eq_ok, pure_eq_ok] at h
      obtain ⟨-, -, rest, hrest, rfl⟩ := h
      exact List.cons_subset_cons row (ih hrest)
    · exact List.subset_cons_of_subset row (ih h)

theorem briefed_active {c : Ctx} {x : BriefArgs} {briefings : List TaskBriefing} {r : Briefed}
    (h : briefTask P F c x v briefings = .ok r) :
    ∀ m ∈ r.records, m ∈ v.memories ∧ m.scope = c.self.scope ∧ m.status = "active" := by
  simp only [briefTask, bind_eq_ok, pure_eq_ok] at h
  obtain ⟨q, -, -, -, visible, hvisible, superseded, -, -, -, -, -, rfl⟩ := h
  intro m hm
  have hrow := visibleRows_subset hvisible (List.mem_filter.mp hm).1
  obtain ⟨hmem, hscope, hactive, -⟩ := mem_briefableRows.mp hrow
  exact ⟨hmem, hscope, hactive⟩

theorem recalled_active {b : Bridge} {current : MessageRow} :
    ∀ m ∈ Context.memoryRows b current v, m ∈ v.memories ∧ m.scope = b.scope ∧
      m.status = "active" := by
  intro m hm
  have hm := List.mem_of_mem_take hm
  rw [List.mem_insertionSort] at hm
  obtain ⟨hmem, hshared⟩ := List.mem_filter.mp hm
  obtain ⟨hshared, hactive⟩ := of_decide_eq_true hshared
  exact ⟨hmem, hshared.1, hactive⟩

end Queries

section Runs
variable {P : Platform} {F : TextForms} {a a' : Archive}
  {tr : List ((ArchiveCall × Ctx) × ArchiveReply)}

/-- A record changes at most once, by its revocation, and then is out of every recall. -/
theorem revoked_memory_stays (h : (archive P F).Reachable a) (hr : (archive P F).Run a tr a')
    {scope id : String} {p : MemoryRow} (hp : a.vault.memory? scope id = some p) :
    StillIn scope id p a'.vault ∧
    (p.status = "revoked" → a'.vault.memory? scope id = some p ∧
      (∀ lowercase b x listing, b.scope = scope → x.includeRevoked = false →
        listMemories P lowercase b x a'.vault = .ok listing →
        ∀ l ∈ listing.memories, l.row.memoryId ≠ id) ∧
      (∀ c x briefings r, c.self.scope = scope → briefTask P F c x a'.vault briefings = .ok r →
        ∀ m ∈ r.records, m.memoryId ≠ id) ∧
      (∀ b current, b.scope = scope →
        ∀ m ∈ Context.memoryRows b current a'.vault, m.memoryId ≠ id) ∧
      (∀ c x v m, revokeMemory P F c x a'.vault = .ok (v, m) → m.scope = scope →
        m.memoryId ≠ id)) := by
  obtain ⟨q, hq, hages⟩ := run_ages hr hp
  refine ⟨⟨q, hq, hages⟩, fun hrevoked => ?_⟩
  have hstatus : p.status ≠ "active" := by
    rw [hrevoked]
    decide
  obtain rfl := hages.frozen hstatus
  have hkeys := (reachable_sound (h.run hr)).keys
  have absent {m : MemoryRow} (hm : m ∈ a'.vault.memories ∧ m.scope = scope ∧
      m.status = "active") : m.memoryId ≠ id :=
    inactive_absent hkeys hq hstatus hm.1 hm.2.1 hm.2.2
  refine ⟨hq, fun lowercase b x listing hb hx hl l hmem => ?_, fun c x bs r hc hbrief m hm => ?_,
    fun b current hb m hm => ?_, fun c x v m hrevoke hscope => ?_⟩
  · exact absent (hb ▸ listed_active hx hl l hmem)
  · exact absent (hc ▸ briefed_active hbrief m hm)
  · exact absent (hb ▸ recalled_active m hm)
  · obtain ⟨row, hrow, hactive, ⟨_, _, _, hm⟩, -⟩ := revokeMemory_eq_ok hrevoke
    rw [hscope] at hrow
    rintro rfl
    rw [hq] at hrow
    exact hstatus (Option.some.inj hrow ▸ hactive)

end Runs

def staleCalls : List (ArchiveCall × Ctx) :=
  [sampleRecord "old" 3,
    (.revoke { memoryId := (Uuid.ofNat 1003).text, reason := "stale" }, sampleCtx sampleHuman 4)]

def staleArchive : Archive := sampleArchive staleCalls

theorem staleArchive_reachable : (archive samplePlatform plainForms).Reachable staleArchive :=
  sampleArchive_reachable (by decide +kernel)

set_option maxRecDepth 100000 in
theorem staleArchive_revoked :
    (staleArchive.vault.memory? "demo" (Uuid.ofNat 1003).text).map MemoryRow.status =
      some "revoked" := by decide +kernel

theorem revoked_memory_stays_stale :
    ∃ p, staleArchive.vault.memory? "demo" (Uuid.ofNat 1003).text = some p ∧
      ∀ b current, b.scope = "demo" → ∀ m ∈ Context.memoryRows b current staleArchive.vault,
        m.memoryId ≠ (Uuid.ofNat 1003).text := by
  obtain ⟨p, hp, hstatus⟩ := Option.map_eq_some_iff.mp staleArchive_revoked
  have hstays := revoked_memory_stays staleArchive_reachable (.nil _) hp
  exact ⟨p, hp, (hstays.2 hstatus).2.2.2.1⟩

end PeerBridge.Memories
