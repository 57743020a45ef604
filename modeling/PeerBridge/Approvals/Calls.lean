import PeerBridge.Approvals.Settlement

namespace PeerBridge.Approvals
open Checked Rows

structure World.Sound (w : World) : Prop where
  broker : w.broker.Sound
  callers : (w.callers.map Caller.number).Nodup
  registered : ∀ id, id ∈ w.registered ↔ w.broker.known id
  settled : ∀ n id, w.stage? n = some (.settled id) → id ∈ w.broker.historyIds
  returned : ∀ n id d, w.stage? n = some (.returned id d) →
    ∃ r ∈ w.broker.history, r.approvalId = id ∧ r.decision = some d
  withdrawing : ∀ n id, w.stage? n = some (.withdrawing id) → w.broker.known id

section Worlds
variable {S : Session} {w : World} {b : Broker} {n : Nat} {stage : Stage} {id : String}
  {r : ApprovalRecord}

theorem stage?_with (m : Nat) :
    (w.with b n stage).stage? m = if n = m then some stage else w.stage? m := by
  rw [World.stage?, World.with, lookup_upsert]
  split <;> rfl

theorem mem_registered (hw : (w.callers.map Caller.number).Nodup) :
    id ∈ w.registered ↔ ∃ m, w.stageOf m Stage.approvalId? = some id := by
  simp only [World.registered, List.mem_filterMap, World.stageOf, World.stage?]
  constructor
  · rintro ⟨c, hc, hid⟩
    refine ⟨c.number, ?_⟩
    rw [lookup_of_mem hw hc]
    exact hid
  · rintro ⟨m, hm⟩
    obtain ⟨s, hs, hid⟩ := Option.bind_eq_some_iff.mp hm
    obtain ⟨c, hc, rfl⟩ := Option.map_eq_some_iff.mp hs
    exact ⟨c, lookup_mem hc, hid⟩

theorem World.Sound.move (hw : w.Sound) (he : Effect S w.broker b)
    (hid : w.stageOf n Stage.approvalId? = stage.approvalId?)
    (hset : ∀ id, stage = .settled id → id ∈ b.historyIds)
    (hret : ∀ id d, stage = .returned id d →
      ∃ r ∈ b.history, r.approvalId = id ∧ r.decision = some d)
    (hwith : ∀ id, stage = .withdrawing id → b.known id) : (w.with b n stage).Sound := by
  have hknown := he.known_iff hw.broker
  have hmono (k : String) (hk : k ∈ w.broker.historyIds) : k ∈ b.historyIds := by
    obtain ⟨q, hq, rfl⟩ := List.mem_map.mp hk
    exact List.mem_map_of_mem (he.history_mono hq)
  refine ⟨he.sound hw.broker, nodup_upsert _ hw.callers, fun k => ?_, fun m k hm => ?_,
    fun m k d hm => ?_, fun m k hm => ?_⟩
  · change k ∈ (w.with b n stage).registered ↔ b.known k
    rw [hknown, ← hw.registered, mem_registered hw.callers,
      mem_registered (nodup_upsert _ hw.callers)]
    refine exists_congr fun m => ?_
    by_cases hnm : n = m
    · subst hnm
      rw [hid, World.stageOf, stage?_with, if_pos rfl]
      rfl
    · rw [World.stageOf, stage?_with, if_neg hnm]
      rfl
  · rw [stage?_with] at hm
    split at hm
    · exact hset k (Option.some.inj hm)
    · exact hmono k (hw.settled m k hm)
  · rw [stage?_with] at hm
    split at hm
    · exact hret k d (Option.some.inj hm)
    · obtain ⟨q, hq, hqk⟩ := hw.returned m k d hm
      exact ⟨q, he.history_mono hq, hqk⟩
  · rw [stage?_with] at hm
    split at hm
    · exact hwith k (Option.some.inj hm)
    · exact (hknown k).mpr (hw.withdrawing m k hm)

theorem World.Sound.register (hw : w.Sound) (hn : w.stage? n = none)
    (hid : isApprovalId r.approvalId = true) (hprovider : isApprovalId r.providerRequestId = true)
    (hfresh : r.approvalId ∉ w.registered)
    (hp : ∀ q ∈ w.broker.pending, q.providerRequestId ≠ r.providerRequestId)
    (hf : w.broker.pending.length < maxPendingApprovals) :
    (w.with { w.broker with pending := w.broker.pending ++ [r] } n
      (.waiting r.approvalId)).Sound := by
  rw [hw.registered, Broker.known, not_or] at hfresh
  have hknown (k : String) : Broker.known { w.broker with pending := w.broker.pending ++ [r] } k ↔
      w.broker.known k ∨ k = r.approvalId := by
    simp only [Broker.known, Broker.pendingIds, List.map_append, List.mem_append, List.map_cons,
      List.map_nil, List.mem_singleton]
    exact or_right_comm
  refine ⟨hw.broker.add hid hprovider hfresh hp hf, nodup_upsert _ hw.callers, fun k => ?_,
    fun m k hm => ?_, fun m k d hm => ?_, fun m k hm => ?_⟩
  · refine Iff.trans ?_ (hknown k).symm
    rw [← hw.registered, mem_registered hw.callers, mem_registered (nodup_upsert _ hw.callers)]
    constructor
    · rintro ⟨m, hm⟩
      rw [World.stageOf, stage?_with] at hm
      split at hm
      · exact .inr (Option.some.inj hm).symm
      · exact .inl ⟨m, hm⟩
    · rintro (⟨m, hm⟩ | rfl)
      · refine ⟨m, ?_⟩
        have hne : n ≠ m := by
          rintro rfl
          rw [World.stageOf, hn] at hm
          cases hm
        rw [World.stageOf, stage?_with, if_neg hne]
        exact hm
      · exact ⟨n, by rw [World.stageOf, stage?_with, if_pos rfl]; rfl⟩
  · rw [stage?_with] at hm
    split at hm
    · cases hm
    · exact hw.settled m k hm
  · rw [stage?_with] at hm
    split at hm
    · cases hm
    · exact hw.returned m k d hm
  · rw [stage?_with] at hm
    split at hm
    · cases hm
    · exact (hknown k).mpr (.inl (hw.withdrawing m k hm))

theorem World.Sound.settle (hw : w.Sound) (he : Effect S w.broker b) :
    World.Sound { w with broker := b } := by
  have hknown := he.known_iff hw.broker
  refine ⟨he.sound hw.broker, hw.callers, fun k => (hw.registered k).trans (hknown k).symm,
    fun m k hm => ?_, fun m k d hm => ?_, fun m k hm => (hknown k).mpr (hw.withdrawing m k hm)⟩
  · obtain ⟨q, hq, rfl⟩ := List.mem_map.mp (hw.settled m k hm)
    exact List.mem_map_of_mem (he.history_mono hq)
  · obtain ⟨q, hq, hqk⟩ := hw.returned m k d hm
    exact ⟨q, he.history_mono hq, hqk⟩

theorem finalize_ok {d : Decision} {state : Option ApprovalState} {now : Utc}
    (h : S.finalize id d state now w.broker = (b, .ok r)) :
    id ∈ w.broker.pendingIds ∧ id ∈ b.historyIds := by
  cases hq : w.broker.find? id with
  | none =>
    rw [finalize_none hq] at h
    cases h
  | some q =>
    obtain rfl : q.approvalId = id := lookup_key hq
    have hin : q.approvalId ∈ w.broker.pendingIds := find?_isSome.mp (by rw [hq]; rfl)
    by_cases hd : d = .deny ∨ d ∈ q.availableDecisions
    · rw [finalize_some hq hd] at h
      obtain ⟨rfl, -⟩ := Prod.mk.inj h
      refine ⟨hin, ?_⟩
      exact List.mem_map.mpr ⟨_, List.mem_append_right _ (List.mem_singleton_self _), rfl⟩
    · rw [finalize_unavailable hq hd] at h
      cases h

theorem find?_history (hs : w.broker.Sound) (h : id ∈ w.broker.historyIds) :
    ∃ q ∈ w.broker.history, q.approvalId = id ∧
      ∃ d, q.decision = some d ∧ w.broker.decided id = .ok d := by
  have hmem : id ∈ w.broker.history.reverse.map ApprovalRecord.approvalId := by
    simpa [Broker.historyIds] using h
  obtain ⟨q, hq, hk⟩ := List.mem_map.mp hmem
  obtain ⟨x, hx⟩ := Option.isSome_iff_exists.mp
    (show (w.broker.history.reverse.find? (fun q => q.approvalId = id)).isSome = true by
      simpa using ⟨q, by simpa using hq, hk⟩)
  have hxm : x ∈ w.broker.history := by simpa using List.mem_of_find?_eq_some hx
  obtain ⟨d, hd, -⟩ := hs.decided x hxm
  refine ⟨x, hxm, by simpa using List.find?_some hx, d, hd, ?_⟩
  simp only [Broker.decided, bind_eq_ok, demand_eq_ok, pure_eq_ok]
  exact ⟨x, hx, by rw [Option.mem_def.mp hd]; rfl⟩

theorem stageOf_some {α : Type} {read : Stage → Option α} {x : α}
    (h : w.stageOf n read = some x) : ∃ s, w.stage? n = some s ∧ read s = some x :=
  Option.bind_eq_some_iff.mp h

theorem waiting_stage (h : w.stageOf n Stage.waiting? = some id) :
    w.stage? n = some (.waiting id) := by
  obtain ⟨s, hs, hr⟩ := stageOf_some h
  cases s <;> simp only [Stage.waiting?, reduceCtorEq, Option.some.injEq] at hr
  exact hr ▸ hs

theorem timedOut_stage (h : w.stageOf n Stage.timedOut? = some id) :
    w.stage? n = some (.timedOut id) := by
  obtain ⟨s, hs, hr⟩ := stageOf_some h
  cases s <;> simp only [Stage.timedOut?, reduceCtorEq, Option.some.injEq] at hr
  exact hr ▸ hs

theorem settled_stage (h : w.stageOf n Stage.settled? = some id) :
    w.stage? n = some (.settled id) := by
  obtain ⟨s, hs, hr⟩ := stageOf_some h
  cases s <;> simp only [Stage.settled?, reduceCtorEq, Option.some.injEq] at hr
  exact hr ▸ hs

theorem withdrawing_stage (h : w.stageOf n Stage.withdrawing? = some id) :
    w.stage? n = some (.withdrawing id) := by
  obtain ⟨s, hs, hr⟩ := stageOf_some h
  cases s <;> simp only [Stage.withdrawing?, reduceCtorEq, Option.some.injEq] at hr
  exact hr ▸ hs

theorem cancelling_stage {next : String × List String}
    (h : w.stageOf n Stage.cancelling? = some next) :
    w.stage? n = some (.cancelling (next.1 :: next.2)) := by
  obtain ⟨s, hs, hr⟩ := stageOf_some h
  cases s <;> simp only [Stage.cancelling?, reduceCtorEq] at hr
  split at hr
  · rename_i id ids he
    obtain rfl := Option.some.inj hr
    obtain rfl := Stage.cancelling.inj he
    exact hs
  · cases hr

theorem stageOf_approvalId {x : Option String} (h : w.stage? n = some stage)
    (hx : stage.approvalId? = x) : w.stageOf n Stage.approvalId? = x := by
  rw [World.stageOf, h]
  exact hx

theorem stageOf_absent (h : w.stage? n = none) : w.stageOf n Stage.approvalId? = none := by
  rw [World.stageOf, h]
  rfl

end Worlds

section Steps
variable {S : Session} {w : World} {i : Step}

theorem requestStep_sound {n : Nat} {a : RequestArgs} {uuid : Uuid} {now : Utc} (hw : w.Sound)
    (hn : w.stage? n = none) (hfresh : "approval-" ++ uuid.text ∉ w.registered) :
    (S.requestStep w n a uuid now).1.Sound := by
  have hdone : (w.with w.broker n .finished).Sound :=
    hw.move (S := S) (.kept rfl) (stageOf_absent hn) nofun nofun nofun
  unfold Session.requestStep
  split
  · exact hdone
  · rename_i b d hreg
    rcases register_ok hreg with ⟨_, -, rfl⟩ | ⟨r, hr, -⟩
    · exact hdone
    · cases hr
  · rename_i b r hreg
    rcases register_ok hreg with ⟨d, hd, -⟩ | ⟨q, hq, hid, hprovider, hp, hf, rfl⟩
    · cases hd
    · obtain rfl := Admission.registered.inj hq
      exact hw.register hn (by rw [hid]; exact approval_named uuid) hprovider (by rwa [hid]) hp hf

theorem expireStep_sound {n : Nat} {now : Utc} {id : String} (hw : w.Sound)
    (hn : w.stage? n = some (.timedOut id)) : (S.expireStep w n now id).1.Sound := by
  have heffect := @finalize_effect S w.broker id .deny (some .expired) now
  unfold Session.expireStep
  split
  · rename_i b e he
    rw [he] at heffect
    exact hw.move heffect (stageOf_approvalId hn rfl) nofun nofun nofun
  · rename_i b r hr
    rw [hr] at heffect
    refine hw.move heffect (stageOf_approvalId hn rfl) (fun k hk => ?_) nofun nofun
    obtain rfl := Stage.settled.inj hk
    exact (finalize_ok hr).2

theorem readStep_eq {n : Nat} {id : String} (hw : w.Sound) (hn : w.stage? n = some (.settled id)) :
    ∃ q ∈ w.broker.history, q.approvalId = id ∧ ∃ d, q.decision = some d ∧
      w.readStep n id = (w.with w.broker n (.returned id d), .decided d) := by
  obtain ⟨q, hq, hid, d, hd, hdec⟩ := find?_history hw.broker (hw.settled n id hn)
  exact ⟨q, hq, hid, d, hd, by rw [World.readStep, hdec]⟩

theorem readStep_sound (S : Session) {n : Nat} {id : String} (hw : w.Sound)
    (hn : w.stage? n = some (.settled id)) : (w.readStep n id).1.Sound := by
  obtain ⟨q, hq, hid, d, hd, he⟩ := readStep_eq hw hn
  rw [he]
  refine hw.move (S := S) (.kept rfl) (stageOf_approvalId hn rfl) nofun (fun k x hk => ?_) nofun
  obtain ⟨rfl, rfl⟩ := Stage.returned.inj hk
  exact ⟨q, hq, hid, hd⟩

theorem cancelNextStep_sound {n : Nat} {now : Utc} {next : String × List String} (hw : w.Sound)
    (hn : w.stage? n = some (.cancelling (next.1 :: next.2))) :
    (S.cancelNextStep w n now next).1.Sound := by
  have heffect := @finalize_effect S w.broker next.1 .deny (some .cancelled) now
  unfold Session.cancelNextStep
  split
  all_goals
    rename_i he
    rw [he] at heffect
    exact hw.move heffect (stageOf_approvalId hn rfl) nofun nofun nofun

theorem cancelFoundStep_sound {n : Nat} {now : Utc} {id : String} (hw : w.Sound)
    (hn : w.stage? n = some (.withdrawing id)) : (S.cancelFoundStep w n now id).1.Sound := by
  have heffect := @finalize_effect S w.broker id .deny (some .cancelled) now
  unfold Session.cancelFoundStep
  split
  all_goals
    rename_i he
    rw [he] at heffect
    exact hw.move heffect (stageOf_approvalId hn rfl) nofun nofun nofun

theorem providerRequest?_known {pid id : String}
    (h : w.broker.providerRequest? pid = some id) : id ∈ w.broker.pendingIds := by
  obtain ⟨r, hr, rfl⟩ := Option.map_eq_some_iff.mp h
  exact List.mem_map_of_mem (List.mem_of_find?_eq_some hr)

theorem cancelProviderStep_sound (S : Session) {n : Nat} {pid : String} (hw : w.Sound)
    (hn : w.stage? n = none) : (w.cancelProviderStep n pid).1.Sound := by
  unfold World.cancelProviderStep
  split
  · exact hw.move (S := S) (.kept rfl) (stageOf_absent hn) nofun nofun nofun
  · rename_i id hid
    refine hw.move (S := S) (.kept rfl) (stageOf_absent hn) nofun nofun fun k hk => ?_
    obtain rfl := Stage.withdrawing.inj hk
    split at hid
    · exact .inl (providerRequest?_known hid)
    · cases hid

theorem step_sound (hw : w.Sound) (ha : w.allows i) : (S.step w i).1.Sound := by
  cases i with
  | request n a uuid now => exact requestStep_sound hw ha.1 ha.2
  | wake n =>
    obtain ⟨id, hid, hset⟩ := ha
    have hn := waiting_stage hid
    rw [Session.step, Option.mem_def.mp hid, Option.elim_some]
    refine hw.move (S := S) (.kept rfl) (stageOf_approvalId hn rfl) (fun k hk => ?_) nofun nofun
    obtain rfl := Stage.settled.inj hk
    rwa [hw.broker.resolved_eq] at hset
  | timeout n =>
    obtain ⟨id, hid, -⟩ := ha
    rw [Session.step, Option.mem_def.mp hid, Option.elim_some]
    exact hw.move (S := S) (.kept rfl) (stageOf_approvalId (waiting_stage hid) rfl) nofun nofun nofun
  | expire n now =>
    obtain ⟨id, hid⟩ := Option.isSome_iff_exists.mp ha
    rw [Session.step, hid, Option.elim_some]
    exact expireStep_sound hw (timedOut_stage hid)
  | read n =>
    obtain ⟨id, hid⟩ := Option.isSome_iff_exists.mp ha
    rw [Session.step, hid, Option.elim_some]
    exact readStep_sound S hw (settled_stage hid)
  | resolve id decision now =>
    have heffect := @resolve_effect S w.broker id decision now
    simp only [Session.step]
    split
    all_goals
      rename_i he
      rw [he] at heffect
      exact hw.settle heffect
  | cancelAll n =>
    exact hw.move (S := S) (.kept rfl) (stageOf_absent ha) nofun nofun nofun
  | cancelNext n now =>
    obtain ⟨next, hnext⟩ := Option.isSome_iff_exists.mp ha
    rw [Session.step, hnext, Option.elim_some]
    exact cancelNextStep_sound hw (cancelling_stage hnext)
  | cancelProviderRequest n pid => exact cancelProviderStep_sound S hw ha
  | cancelFound n now =>
    obtain ⟨id, hid⟩ := Option.isSome_iff_exists.mp ha
    rw [Session.step, hid, Option.elim_some]
    exact cancelFoundStep_sound hw (withdrawing_stage hid)

theorem reachable_sound (h : (approvalBroker S).Reachable w) : w.Sound := by
  refine h.invariant World.Sound (fun w hw => ?_) fun w i hw ha => step_sound hw ha
  obtain ⟨hb, hc⟩ := hw
  have hstage (n : Nat) : w.stage? n = none := by
    rw [World.stage?, hc]
    rfl
  refine ⟨?_, by rw [hc]; exact List.nodup_nil, fun id => ?_, fun n id hn => ?_,
    fun n id d hn => ?_, fun n id hn => ?_⟩
  · rw [hb]
    exact ⟨List.nodup_nil, List.nodup_nil, nofun, rfl, nofun, List.nodup_nil, Nat.zero_le _, nofun⟩
  · rw [hb, World.registered, hc]
    simp [Broker.known, Broker.pendingIds, Broker.historyIds, Broker.empty]
  all_goals
    rw [hstage] at hn
    cases hn

end Steps

end PeerBridge.Approvals
