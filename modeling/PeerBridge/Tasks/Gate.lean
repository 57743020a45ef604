import Mathlib.Data.List.Dedup
import PeerBridge.Tasks.Exclusion

namespace PeerBridge
open Checked Rows

-- who may review and who may not, as a claim leaves it
structure TaskStore.Gated (s : TaskStore) : Prop where
  keys : (s.tasks.map TaskRow.key).Nodup
  answered : ∀ r ∈ s.reviews, ∃ q ∈ s.calls, q.requestId = r.requestId ∧
    q.taskRevision = r.taskRevision ∧ q.taskSha256 = r.taskSha256
  apart : ∀ k : String × String, ∀ t, s.task? k.1 k.2 = some t → ∀ holder ∈ t.claimedBy,
    t.requiredPeer ≠ some holder ∧ holder ∉ s.peersOf k
  quorum : ∀ k : String × String, ∀ t, s.task? k.1 k.2 = some t →
    t.approvalMode = .quorumRequired → s.peersOf k ≠ []

section Plans
variable {P : Platform} {c : TaskCtx} {self : Bridge} {a : ClaimTaskArgs} {p : TaskPlan}

theorem mem_sortedSet {t : String} {ts : List String} : t ∈ sortedSet ts ↔ t ∈ ts := by
  rw [sortedSet, List.mem_insertionSort, List.mem_dedup]

theorem sortedSet_eq_nil {ts : List String} : sortedSet ts = [] ↔ ts = [] := by
  simp only [List.eq_nil_iff_forall_not_mem, mem_sortedSet]

theorem cleanRequiredPeer_ne {value : String} {o : Option String}
    (h : cleanRequiredPeer self value = .ok o) : o ≠ some self.agentId := by
  unfold cleanRequiredPeer at h
  split at h
  · obtain rfl : none = o := by simpa using h
    exact (Option.some_ne_none _).symm
  · simp only [bind_eq_ok, require_eq_ok, pure_eq_ok] at h
    obtain ⟨peer, -, -, hne, rfl⟩ := h
    simpa using hne

theorem cleanRequiredPeers_ne {values peers : List String}
    (h : cleanRequiredPeers self values = .ok peers) : self.agentId ∉ peers := by
  simp only [cleanRequiredPeers, bind_eq_ok] at h
  obtain ⟨-, -, h⟩ := h
  intro hm
  obtain ⟨value, -, hv⟩ := exists_of_mapM h hm
  simp only [bind_eq_ok, require_eq_ok, pure_eq_ok] at hv
  obtain ⟨peer, -, -, hne, rfl⟩ := hv
  exact hne rfl

structure TaskPlan.Apart (p : TaskPlan) (b : Bridge) : Prop where
  peer : p.requiredPeer ≠ some b.agentId
  peers : b.agentId ∉ p.requiredPeers
  quorum : p.approvalMode = .quorumRequired → p.requiredPeers ≠ []

theorem prepareClaim_apart (h : prepareClaim P c a = .ok p) : p.Apart c.self := by
  simp only [prepareClaim, bind_eq_ok, require_eq_ok, pure_eq_ok] at h
  obtain ⟨_, -, _, -, _, -, _, -, _, -, peer, hpeer, peers, hpeers, -, -, -, -, -, hq, rfl⟩ := h
  refine ⟨cleanRequiredPeer_ne hpeer, fun hm => ?_, fun hm hn => hq ⟨hm, hn⟩⟩
  rcases List.mem_append.mp (mem_sortedSet.mp hm) with hm | hm
  · exact cleanRequiredPeers_ne hpeers hm
  · exact cleanRequiredPeer_ne hpeer (Option.mem_toList.mp hm)

end Plans

section Invariants
variable {P : Platform} {c : TaskCtx} {files : Files} {s s' s₁ : TaskStore} {t t' : TaskRow}
  {r : PeerReviewRow} {d : Desk}

theorem peersOf_putClaim {p : TaskPlan} {u : Utc} (k : String × String) :
    (s.putClaim t p u).peersOf k = if t.key = k then p.requiredPeers else s.peersOf k := by
  unfold TaskStore.peersOf TaskStore.putClaim
  rw [List.filter_append, List.map_append]
  by_cases hk : t.key = k
  · subst hk
    simp [List.filter_filter, List.filter_map, Function.comp_def, RequiredPeerRow.key, TaskRow.key]
  · have hnew : (p.requiredPeers.map (fun peerId =>
        ({ scope := t.scope, taskId := t.taskId, peerId } : RequiredPeerRow))).filter
          (fun q => q.key = k) = [] := by
      simp only [List.filter_eq_nil_iff, List.mem_map, decide_eq_true_eq]
      rintro _ ⟨peer, -, rfl⟩
      exact hk
    have hold : (s.requiredPeers.filter (fun q => q.key ≠ t.key)).filter (fun q => q.key = k) =
        s.requiredPeers.filter (fun q => q.key = k) := by
      rw [List.filter_filter]
      refine List.filter_congr fun q _ => ?_
      by_cases hq : q.key = k
      · simp [hq, Ne.symm hk]
      · simp [hq]
    rw [if_neg hk, hnew, hold, List.map_nil, List.append_nil]

theorem Lapsed.gated {c : Ctx} (h : Lapsed c s s') (hs : s.Gated) : s'.Gated := by
  have hpeers (k : String × String) : s'.peersOf k = s.peersOf k := by rw [h.rest]; rfl
  refine ⟨h.keys ▸ hs.keys, ?_, fun k t ht holder hh => ?_, fun k t ht hm => ?_⟩
  · rw [h.rest]
    exact hs.answered
  · rw [hpeers]
    rcases h.row k with he | ⟨u, -, -, he⟩
    · exact hs.apart k t (he ▸ ht) holder hh
    · obtain rfl := Option.some.inj (he.symm.trans ht)
      cases hh
  · rw [hpeers]
    rcases h.row k with he | ⟨u, hu, -, he⟩
    · exact hs.quorum k t (he ▸ ht) hm
    · obtain rfl := Option.some.inj (he.symm.trans ht)
      exact hs.quorum k u hu hm

theorem claim_gated {p : TaskPlan} (h : Claims P c s s₁ s' p) (hs : s.Gated) : s'.Gated := by
  have hs₁ := h.lapsed.gated hs
  obtain ⟨a, ha⟩ := h.plan
  have hplan := prepareClaim_apart ha
  obtain ⟨log, rfl⟩ := h.store_eq
  generalize hT : claimedTask P c p (s₁.task? c.self.scope p.taskId) = T
  have hby : T.claimedBy = some c.self.agentId := by rw [← hT]; rfl
  have hpeer : T.requiredPeer = p.requiredPeer := by rw [← hT]; rfl
  have hmode : T.approvalMode = p.approvalMode := by rw [← hT]; rfl
  have hkeys : ((s₁.putTask T).tasks.map TaskRow.key).Nodup := nodup_upsert T hs₁.keys
  have hpeers (k : String × String) := peersOf_putClaim (s := s₁) (t := T) (p := p)
    (u := utcNow c.clock.entry) k
  refine ⟨hkeys, hs₁.answered, fun k t ht holder hh => ?_, fun k t ht hm => ?_⟩
  · change (s₁.putTask T).task? k.1 k.2 = some t at ht
    change t.requiredPeer ≠ some holder ∧
      holder ∉ (s₁.putClaim T p (utcNow c.clock.entry)).peersOf k
    rw [TaskStore.task?_putTask] at ht
    rw [hpeers]
    split at ht
    · rename_i hk
      obtain rfl := Option.some.inj ht
      obtain rfl := Option.some.inj (hby.symm.trans hh)
      rw [if_pos hk, hpeer]
      exact ⟨hplan.peer, hplan.peers⟩
    · rename_i hk
      rw [if_neg hk]
      exact hs₁.apart k t ht holder hh
  · change (s₁.putTask T).task? k.1 k.2 = some t at ht
    change (s₁.putClaim T p (utcNow c.clock.entry)).peersOf k ≠ []
    rw [TaskStore.task?_putTask] at ht
    rw [hpeers]
    split at ht
    · rename_i hk
      obtain rfl := Option.some.inj ht
      rw [if_pos hk]
      exact hplan.quorum (hmode ▸ hm)
    · rename_i hk
      rw [if_neg hk]
      exact hs₁.quorum k t ht hm

theorem Retask.gate (h : Retask c t t') : t'.key = t.key ∧ t'.requiredPeer = t.requiredPeer ∧
    t'.approvalMode = t.approvalMode ∧ (∀ holder ∈ t'.claimedBy, holder ∈ t.claimedBy) := by
  cases h with
  | unleased => exact ⟨rfl, rfl, rfl, fun holder hh => by cases hh⟩
  | renewed | announced => exact ⟨rfl, rfl, rfl, fun holder hh => hh⟩

theorem retask_gated (h : Retasks P c s s') (hs : s.Gated) : s'.Gated := by
  obtain ⟨t, t', token, ht, -, hstep, updates, a, rfl⟩ := h
  obtain ⟨hkey, hpeer, hmode, hby⟩ := hstep.gate
  have htk : t.key = (c.self.scope, t.taskId) := lookup_key ht
  have hkeys := TaskStore.putTask_keys (s := s) (t := t')
    (hkey ▸ List.mem_map_of_mem (lookup_mem ht))
  have hold (k : String × String) (u : TaskRow) (hu : (s.putTask t').task? k.1 k.2 = some u) :
      ∃ v, s.task? k.1 k.2 = some v ∧ u.requiredPeer = v.requiredPeer ∧
        u.approvalMode = v.approvalMode ∧ ∀ holder ∈ u.claimedBy, holder ∈ v.claimedBy := by
    rw [TaskStore.task?_putTask] at hu
    split at hu
    · rename_i hk
      obtain rfl := Option.some.inj hu
      refine ⟨t, ?_, hpeer, hmode, hby⟩
      rw [← hk, hkey, htk]
      exact ht
    · exact ⟨u, hu, rfl, rfl, fun holder hh => hh⟩
  refine ⟨?_, hs.answered, fun k u hu holder hh => ?_, fun k u hu hm => ?_⟩
  · exact hkeys ▸ hs.keys
  · obtain ⟨v, hv, hvp, -, hvb⟩ := hold k u hu
    rw [hvp]
    exact hs.apart k v hv holder (hvb holder hh)
  · obtain ⟨v, hv, -, hvm, -⟩ := hold k u hu
    exact hs.quorum k v hv (hvm ▸ hm)

theorem mem_respondAll {scope requestId response : String} {paths : List String} {u : Utc}
    {q : PeerCallRow} {calls : List PeerCallRow} (h : q ∈ calls) :
    ∃ q' ∈ respondAll P scope requestId response paths u calls, q'.requestId = q.requestId ∧
      q'.taskRevision = q.taskRevision ∧ q'.taskSha256 = q.taskSha256 := by
  refine ⟨_, List.mem_map_of_mem h, ?_⟩
  unfold respond
  repeat' split
  all_goals exact ⟨rfl, rfl, rfl⟩

theorem BoardStep.gated (h : BoardStep P c files s s') (hs : s.Gated) : s'.Gated := by
  cases h with
  | lapse hl => exact hl.gated hs
  | claim s₁ p hc => exact claim_gated hc hs
  | retask hr => exact retask_gated hr hs
  | presence rows he =>
    subst he
    exact ⟨hs.keys, hs.answered, hs.apart, hs.quorum⟩
  | request hr =>
    obtain ⟨t, token, row, -, -, -, n, a, rfl⟩ := hr
    refine ⟨hs.keys, fun r hr => ?_, hs.apart, hs.quorum⟩
    obtain ⟨q, hq, he⟩ := hs.answered r hr
    exact ⟨q, List.mem_append_left _ hq, he⟩
  | review t row ht hr he =>
    obtain ⟨response, paths, a, rfl⟩ := he
    refine ⟨hs.keys, fun r hm => ?_, hs.apart, hs.quorum⟩
    obtain ⟨q, hq, hid, hrev, hsha⟩ : ∃ q ∈ s.calls, q.requestId = r.requestId ∧
        q.taskRevision = r.taskRevision ∧ q.taskSha256 = r.taskSha256 := by
      rcases List.mem_append.mp hm with hm | hm
      · exact hs.answered r hm
      · obtain rfl := List.mem_singleton.mp hm
        obtain ⟨q, hq, -, hid, -, hrev, hsha⟩ := hr.call
        exact ⟨q, hq, hid, hrev.trans hr.revision_eq.symm, hsha.trans hr.sha_eq.symm⟩
    obtain ⟨q', hq', hid', hrev', hsha'⟩ := @mem_respondAll P row.scope row.requestId
      response paths row.reviewUtc _ _ hq
    exact ⟨q', hq', hid'.trans hid, hrev'.trans hrev, hsha'.trans hsha⟩
  | prove t token row _ _ _ he =>
    obtain ⟨a, rfl⟩ := he
    exact ⟨hs.keys, hs.answered, hs.apart, hs.quorum⟩

theorem reachable_gated (h : (taskBoard P).Reachable d) : d.store.Gated := by
  refine h.invariant (fun d => d.store.Gated) ?_ fun d i hd _ => ?_
  · intro d hd
    rw [hd]
    exact ⟨List.nodup_nil, fun r hr => by (cases hr), fun k t ht => by (cases ht),
      fun k t ht => by (cases ht)⟩
  · rcases exec_store i hd.keys with he | hstep
    · exact he ▸ hd
    · exact hstep.gated hd

end Invariants

end PeerBridge
