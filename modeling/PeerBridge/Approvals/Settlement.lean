import PeerBridge.Approvals.Broker
import PeerBridge.Lib.Upsert

namespace PeerBridge.Approvals
open Checked Rows

def Broker.pendingIds (b : Broker) : List String := b.pending.map ApprovalRecord.approvalId

def Broker.historyIds (b : Broker) : List String := b.history.map ApprovalRecord.approvalId

structure Broker.Sound (b : Broker) : Prop where
  pending_nodup : b.pendingIds.Nodup
  history_nodup : b.historyIds.Nodup
  apart : ∀ id ∈ b.pendingIds, id ∉ b.historyIds
  resolved_eq : b.resolved = b.historyIds
  named : ∀ r ∈ b.pending, isApprovalId r.approvalId = true ∧
    isApprovalId r.providerRequestId = true
  providers : (b.pending.map ApprovalRecord.providerRequestId).Nodup
  few : b.pending.length ≤ maxPendingApprovals
  decided : ∀ r ∈ b.history, ∃ d ∈ r.decision, d = .deny ∨ d ∈ r.availableDecisions

-- the effect of one locked section on the broker's tables
inductive Effect (S : Session) (b b' : Broker) : Prop
  | kept (h : b' = b)
  | moved (r : ApprovalRecord) (hr : b.find? r.approvalId = some r)
      (h : b' = { b with pending := (b.pop r.approvalId).pending ++ [r] })
  | settled (r : ApprovalRecord) (d : Decision) (state : Option ApprovalState) (now : Utc)
      (hr : b.find? r.approvalId = some r) (hd : d = .deny ∨ d ∈ r.availableDecisions)
      (h : b' = { pending := (b.pop r.approvalId).pending,
                  history := b.history ++ [S.settled r d state now],
                  resolved := b.resolved ++ [r.approvalId] })

section Brokers
variable {S : Session} {b b' : Broker} {r : ApprovalRecord} {id : String}

theorem find?_isSome : (b.find? id).isSome = true ↔ id ∈ b.pendingIds := by
  simp [Broker.find?, Broker.pendingIds, lookup]

theorem find?_eq_none : b.find? id = none ↔ id ∉ b.pendingIds := by
  rw [← find?_isSome]
  simp

theorem mem_popIds {k : String} : k ∈ (b.pop id).pendingIds ↔ k ∈ b.pendingIds ∧ k ≠ id := by
  simp only [Broker.pop, Broker.pendingIds, List.mem_map, List.mem_filter, decide_eq_true_eq]
  constructor
  · rintro ⟨r, ⟨hr, hne⟩, rfl⟩
    exact ⟨⟨r, hr, rfl⟩, hne⟩
  · rintro ⟨⟨r, hr, rfl⟩, hne⟩
    exact ⟨r, ⟨hr, hne⟩, rfl⟩

theorem finalize_none {d : Decision} {state : Option ApprovalState} {now : Utc}
    (h : b.find? id = none) :
    S.finalize id d state now b = (b, .error (.key "approval request is not pending")) := by
  rw [Session.finalize, h]

theorem finalize_some {d : Decision} {state : Option ApprovalState} {now : Utc}
    (h : b.find? id = some r) (hd : d = .deny ∨ d ∈ r.availableDecisions) :
    S.finalize id d state now b =
      ({ pending := (b.pop id).pending, history := b.history ++ [S.settled r d state now],
         resolved := b.resolved ++ [id] }, .ok (S.settled r d state now)) := by
  simp only [Session.finalize, h]
  rw [if_neg fun hno => hd.elim hno.2 hno.1]
  rfl

theorem finalize_unavailable {d : Decision} {state : Option ApprovalState} {now : Utc}
    (h : b.find? id = some r) (hd : ¬(d = .deny ∨ d ∈ r.availableDecisions)) :
    S.finalize id d state now b = ({ b with pending := (b.pop id).pending ++ [r] },
      .error (.value "approval decision is unavailable")) := by
  simp only [Session.finalize, h]
  rw [if_pos ⟨fun hm => hd (.inr hm), fun hm => hd (.inl hm)⟩]
  rfl

theorem finalize_effect (d : Decision) (state : Option ApprovalState) (now : Utc) :
    Effect S b (S.finalize id d state now b).1 := by
  cases h : b.find? id with
  | none =>
    rw [finalize_none h]
    exact .kept rfl
  | some r =>
    obtain rfl : r.approvalId = id := lookup_key h
    by_cases hd : d = .deny ∨ d ∈ r.availableDecisions
    · rw [finalize_some h hd]
      exact .settled r d state now h hd rfl
    · rw [finalize_unavailable h hd]
      exact .moved r h rfl

theorem resolve_effect (decision : String) (now : Utc) :
    Effect S b (S.resolve id decision now b).1 := by
  unfold Session.resolve
  split
  · exact .kept rfl
  · split
    · exact .kept rfl
    · exact finalize_effect _ _ _

theorem approval_named (uuid : Uuid) : isApprovalId ("approval-" ++ uuid.text) = true := by
  have hsafe := uuid_safe uuid.hex
  simp only [isSafeId, Bool.and_eq_true, List.all_eq_true, decide_eq_true_eq] at hsafe
  have hex := uuid.hex
  simp only [isUuidHex, Bool.and_eq_true, decide_eq_true_eq] at hex
  have hall : ∀ c ∈ "approval-".toList, isSafeIdChar c = true := List.all_eq_true.mp (by decide)
  have hlen : ("approval-" ++ uuid.text).length = 41 := by
    rw [String.length_append, hex.2]
    decide
  simp only [isApprovalId, String.toList_append, List.all_append, Bool.and_eq_true,
    List.all_eq_true, decide_eq_true_eq, hlen]
  exact ⟨⟨by simp, hall, hsafe.1.1⟩, by decide⟩

theorem register_ok {a : RequestArgs} {uuid : Uuid} {now : Utc} {x : Admission}
    (h : S.register a uuid now b = .ok (b', x)) :
    (∃ d, x = .immediate d ∧ b' = b) ∨
      ∃ r, x = .registered r ∧ r.approvalId = "approval-" ++ uuid.text ∧
        isApprovalId r.providerRequestId = true ∧
        (∀ q ∈ b.pending, q.providerRequestId ≠ r.providerRequestId) ∧
        b.pending.length < maxPendingApprovals ∧ b' = { b with pending := b.pending ++ [r] } := by
  simp only [Session.register, bind_eq_ok] at h
  obtain ⟨clean, hclean, h⟩ := h
  split at h
  · simp only [pure_eq_ok, Prod.mk.injEq] at h
    obtain ⟨rfl, rfl⟩ := h
    exact .inl ⟨_, rfl, rfl⟩
  · simp only [bind_eq_ok, require_eq_ok] at h
    obtain ⟨-, hfew, h⟩ := h
    split at h
    · simp only [pure_eq_ok, Prod.mk.injEq] at h
      obtain ⟨rfl, rfl⟩ := h
      exact .inl ⟨_, rfl, rfl⟩
    · simp only [bind_eq_ok, require_eq_ok, pure_eq_ok, Prod.mk.injEq] at h
      obtain ⟨-, hother, rfl, rfl⟩ := h
      simp only [cleanRequest, bind_eq_ok, require_eq_ok] at hclean
      obtain ⟨-, hprovider, -⟩ := hclean
      exact .inr ⟨_, rfl, rfl, hprovider, hother, hfew, rfl⟩

theorem perm_pop (hnd : b.pendingIds.Nodup) (hr : b.find? id = some r) :
    ((b.pop id).pending ++ [r]).Perm b.pending := by
  obtain rfl : r.approvalId = id := lookup_key hr
  have hmem : r ∈ b.pending := lookup_mem hr
  have hpop (q : ApprovalRecord) : q ∈ (b.pop r.approvalId).pending ↔
      q ∈ b.pending ∧ q.approvalId ≠ r.approvalId := by simp [Broker.pop]
  refine (List.perm_ext_iff_of_nodup ?_ hnd.of_map).mpr fun q => ?_
  · refine List.nodup_append.mpr ⟨hnd.of_map.filter _, List.nodup_singleton r, ?_⟩
    rintro x hx y hy rfl
    obtain rfl := List.mem_singleton.mp hy
    exact ((hpop x).mp hx).2 rfl
  · rw [List.mem_append, hpop, List.mem_singleton]
    constructor
    · rintro (h | rfl)
      · exact h.1
      · exact hmem
    · intro hq
      by_cases hk : q.approvalId = r.approvalId
      · exact .inr (eq_of_key_eq hnd hq hmem hk)
      · exact .inl ⟨hq, hk⟩

theorem pop_sublist : (b.pop id).pending.Sublist b.pending := List.filter_sublist

theorem Session.settled_id (d : Decision) (state : Option ApprovalState) (now : Utc) :
    (S.settled r d state now).approvalId = r.approvalId := rfl

theorem Broker.Sound.settle {d : Decision} {state : Option ApprovalState} {now : Utc}
    (hs : b.Sound) (hr : b.find? r.approvalId = some r)
    (hd : d = .deny ∨ d ∈ r.availableDecisions) :
    Broker.Sound { pending := (b.pop r.approvalId).pending,
                   history := b.history ++ [S.settled r d state now],
                   resolved := b.resolved ++ [r.approvalId] } := by
  have hin : r.approvalId ∈ b.pendingIds := find?_isSome.mp (by rw [hr]; rfl)
  have hout := hs.apart _ hin
  have hids : (b.history ++ [S.settled r d state now]).map ApprovalRecord.approvalId =
      b.historyIds ++ [r.approvalId] := List.map_append
  refine ⟨hs.pending_nodup.sublist (pop_sublist.map _), ?_, fun k hk => ?_, ?_, fun q hq => ?_,
    hs.providers.sublist (pop_sublist.map _), pop_sublist.length_le.trans hs.few, fun q hq => ?_⟩
  · rw [Broker.historyIds, hids]
    exact List.nodup_append.mpr ⟨hs.history_nodup, List.nodup_singleton _, by
      rintro x hx y hy rfl
      obtain rfl := List.mem_singleton.mp hy
      exact hout hx⟩
  · obtain ⟨hk, hne⟩ := mem_popIds.mp hk
    rw [Broker.historyIds, hids, List.mem_append, List.mem_singleton]
    exact not_or.mpr ⟨hs.apart k hk, hne⟩
  · rw [Broker.historyIds, hids, ← hs.resolved_eq]
  · exact hs.named q (pop_sublist.subset hq)
  · rcases List.mem_append.mp hq with hq | hq
    · exact hs.decided q hq
    · obtain rfl := List.mem_singleton.mp hq
      exact ⟨d, rfl, hd⟩

theorem Effect.sound (h : Effect S b b') (hs : b.Sound) : b'.Sound := by
  cases h with
  | kept h => exact h ▸ hs
  | moved r hr h =>
    subst h
    have hperm := perm_pop hs.pending_nodup hr
    have hids := hperm.map ApprovalRecord.approvalId
    exact ⟨hids.nodup_iff.mpr hs.pending_nodup, hs.history_nodup,
      fun k hk => hs.apart k (hids.mem_iff.mp hk), hs.resolved_eq,
      fun q hq => hs.named q (hperm.mem_iff.mp hq),
      (hperm.map ApprovalRecord.providerRequestId).nodup_iff.mpr hs.providers,
      hperm.length_eq.le.trans hs.few, hs.decided⟩
  | settled r d state now hr hd h => exact h ▸ hs.settle hr hd

theorem Effect.history_mono (h : Effect S b b') {q : ApprovalRecord} (hq : q ∈ b.history) :
    q ∈ b'.history := by
  cases h with
  | kept h | moved _ _ h => exact h ▸ hq
  | settled _ _ _ _ _ _ h => exact h ▸ List.mem_append_left _ hq

theorem Broker.Sound.add (hs : b.Sound) (hid : isApprovalId r.approvalId = true)
    (hprovider : isApprovalId r.providerRequestId = true)
    (hfresh : r.approvalId ∉ b.pendingIds ∧ r.approvalId ∉ b.historyIds)
    (hp : ∀ q ∈ b.pending, q.providerRequestId ≠ r.providerRequestId)
    (hf : b.pending.length < maxPendingApprovals) :
    Broker.Sound { b with pending := b.pending ++ [r] } := by
  have hids : (b.pending ++ [r]).map ApprovalRecord.approvalId =
      b.pendingIds ++ [r.approvalId] := List.map_append
  refine ⟨?_, hs.history_nodup, fun k hk => ?_, hs.resolved_eq, fun q hq => ?_, ?_, ?_,
    hs.decided⟩
  · rw [Broker.pendingIds, hids]
    exact List.nodup_append.mpr ⟨hs.pending_nodup, List.nodup_singleton _, by
      rintro x hx y hy rfl
      obtain rfl := List.mem_singleton.mp hy
      exact hfresh.1 hx⟩
  · rw [Broker.pendingIds, hids, List.mem_append, List.mem_singleton] at hk
    rcases hk with hk | rfl
    · exact hs.apart k hk
    · exact hfresh.2
  · rcases List.mem_append.mp hq with hq | hq
    · exact hs.named q hq
    · obtain rfl := List.mem_singleton.mp hq
      exact ⟨hid, hprovider⟩
  · rw [List.map_append, List.nodup_append]
    refine ⟨hs.providers, List.nodup_singleton _, ?_⟩
    rintro x hx y hy rfl
    obtain ⟨q, hq, he⟩ := List.mem_map.mp hx
    obtain rfl := List.mem_singleton.mp hy
    exact hp q hq he
  · rw [List.length_append]
    exact hf

def Broker.known (b : Broker) (id : String) : Prop := id ∈ b.pendingIds ∨ id ∈ b.historyIds

theorem Effect.known_iff (h : Effect S b b') (hs : b.Sound) (k : String) :
    b'.known k ↔ b.known k := by
  cases h with
  | kept h => rw [h]
  | moved r hr h =>
    subst h
    have hids := (perm_pop hs.pending_nodup hr).map ApprovalRecord.approvalId
    exact or_congr hids.mem_iff Iff.rfl
  | settled r d state now hr hd h =>
    subst h
    have hin : r.approvalId ∈ b.pendingIds := find?_isSome.mp (by rw [hr]; rfl)
    have hhist : k ∈ (b.history ++ [S.settled r d state now]).map ApprovalRecord.approvalId ↔
        k ∈ b.historyIds ∨ k = r.approvalId := by
      rw [List.map_append, List.mem_append]
      exact or_congr Iff.rfl List.mem_singleton
    have hpop : k ∈ (b.pop r.approvalId).pending.map ApprovalRecord.approvalId ↔
        k ∈ b.pendingIds ∧ k ≠ r.approvalId := mem_popIds
    simp only [Broker.known, Broker.pendingIds, Broker.historyIds] at hin hhist hpop ⊢
    rw [hhist, hpop]
    by_cases hk : k = r.approvalId
    · subst hk
      simp [hin]
    · simp [hk]

end Brokers

end PeerBridge.Approvals
