import PeerBridge.Mailbox
import PeerBridge.Lib.Lease

namespace PeerBridge
open Checked Rows

abbrev DispatchKey := String × String × String

def Mail.dispatchAt (m : Mail) (k : DispatchKey) : Option DispatchRow :=
  m.dispatch? k.1 k.2.1 k.2.2

def leasePhase (d : DispatchRow) : Lease.Phase Sha256 DispatchRow :=
  match d.status with
  | .claimed => d.leaseTokenSha256.elim .waiting .held
  | .retryable => .waiting
  | .failed | .completed => .final d

def leaseCell (m : Mail) (k : DispatchKey) : Lease.Cell Sha256 DispatchRow :=
  match m.dispatchAt k with
  | none => ⟨.vacant, 0⟩
  | some d => ⟨leasePhase d, d.attemptCount⟩

section Cells
variable {P : Platform} {m : Mail} {k : DispatchKey} {d : DispatchRow}

theorem leaseCell_none (h : m.dispatchAt k = none) : leaseCell m k = ⟨.vacant, 0⟩ := by
  rw [leaseCell, h]

theorem leaseCell_some (h : m.dispatchAt k = some d) :
    leaseCell m k = ⟨leasePhase d, d.attemptCount⟩ := by rw [leaseCell, h]

theorem leasePhase_final : (∃ r, leasePhase d = .final r) ↔ d.status.terminal = true := by
  unfold leasePhase
  cases d.status with
  | claimed => cases d.leaseTokenSha256 <;> simp [DispatchStatus.terminal]
  | retryable => simp [DispatchStatus.terminal]
  | failed => simp [DispatchStatus.terminal]
  | completed => simp [DispatchStatus.terminal]

theorem leasePhase_terminal (h : d.status.terminal = true) : leasePhase d = .final d := by
  unfold leasePhase
  cases hs : d.status <;> simp_all [DispatchStatus.terminal]

theorem leasePhase_claimed {t : Sha256} (hs : d.status = .claimed)
    (ht : d.leaseTokenSha256 = some t) : leasePhase d = .held t := by
  simp [leasePhase, hs, ht]

theorem leaseCell_final : (leaseCell m k).Final ↔
    ∃ d, m.dispatchAt k = some d ∧ d.status.terminal = true := by
  cases h : m.dispatchAt k with
  | none => simp [leaseCell_none h, Lease.Cell.Final]
  | some d =>
    rw [leaseCell_some h, Lease.Cell.Final, leasePhase_final]
    simp

theorem leaseCell_frozen {m' : Mail} (hd : m.dispatchAt k = some d)
    (ht : d.status.terminal = true) (h : leaseCell m' k = leaseCell m k) :
    m'.dispatchAt k = some d := by
  rw [leaseCell_some hd, leasePhase_terminal ht] at h
  cases hm : m'.dispatchAt k with
  | none => simp [leaseCell_none hm] at h
  | some e =>
    rw [leaseCell_some hm, Lease.Cell.mk.injEq] at h
    have he : e.status.terminal = true := leasePhase_final.mp ⟨d, h.1⟩
    rw [leasePhase_terminal he] at h
    rw [Lease.Phase.final.inj h.1]

theorem leaseCell_grants : (leaseCell m k).grants =
    ((m.dispatchAt k).map DispatchRow.attemptCount).getD 0 := by
  cases h : m.dispatchAt k with
  | none => rw [leaseCell_none h]; rfl
  | some d => rw [leaseCell_some h]; rfl

theorem dispatchAt_put (e : DispatchRow) :
    (m.putDispatch e).dispatchAt k = if e.key = k then some e else m.dispatchAt k :=
  m.dispatch?_putDispatch e _ _ _

theorem leaseCell_put (e : DispatchRow) : leaseCell (m.putDispatch e) k =
    if e.key = k then ⟨leasePhase e, e.attemptCount⟩ else leaseCell m k := by
  by_cases hk : e.key = k <;> simp [leaseCell, dispatchAt_put, hk]

theorem leaseCell_congr {m' : Mail} (h : m'.dispatches = m.dispatches) :
    leaseCell m' k = leaseCell m k := by
  simp only [leaseCell, Mail.dispatchAt, Mail.dispatch?, h]

theorem Holder.cell {c : Ctx} {id token : String} (h : Holder P c id token m d)
    (hs : d.status = .claimed) :
    leaseCell m d.key = ⟨.held (P.sha256Bytes token), d.attemptCount⟩ := by
  rw [leaseCell_some (m := m) (d := d) (by rw [h.key_eq]; exact h.lookup_eq),
    leasePhase_claimed hs h.token_eq]

theorem Holder.not_final {c : Ctx} {id token : String} (h : Holder P c id token m d)
    (hs : d.status = .claimed) : ¬ (leaseCell m d.key).Final := by
  rw [h.cell hs]
  rintro ⟨r, hr⟩
  simp at hr

end Cells

def leaseLabel (P : Platform) (k : DispatchKey) :
    Except BridgeError Reply → Lease.Label Sha256
  | .ok (.claimed (some g)) =>
    if g.dispatch.key = k then .grant (P.sha256Bytes g.leaseToken) else .quiet
  | .ok (.completed x) => if x.replay = false ∧ x.dispatch.key = k then .finish else .quiet
  | _ => .quiet

section Steps
variable {P : Platform} {c : Ctx} {s s' : Store} {m : Mail}

theorem cancel_quiet (scope id code : String) (now : Utc) (k : DispatchKey) :
    Lease.Quiet (leaseCell m k) (leaseCell (cancelDiscussionDispatches P scope id code now m) k) := by
  have hd : (cancelDiscussionDispatches P scope id code now m).dispatchAt k =
      (m.dispatchAt k).map (fun d =>
        if m.cancellable scope id d then cancelledDispatch P code now d else d) :=
    dispatch?_cancel k.1 k.2.1 k.2.2
  cases h : m.dispatchAt k with
  | none =>
    rw [leaseCell_none h, leaseCell_none (by rw [hd, h]; rfl)]
    exact .same
  | some d =>
    rw [h] at hd
    by_cases hc : m.cancellable scope id d
    · have ht : d.status.terminal = false := by
        simp only [Mail.cancellable, Bool.and_eq_true, Bool.not_eq_true'] at hc
        exact hc.1.2
      rw [Option.map_some, if_pos hc] at hd
      rw [leaseCell_some hd, leaseCell_some h]
      exact .settled (fun hf => by simp [leasePhase_final.mp hf] at ht) _
    · rw [Option.map_some, if_neg hc] at hd
      rw [leaseCell_some hd, leaseCell_some h]
      exact .same

theorem steps_quiet {mode : Option RoomMode} {d : DiscussionRow} {a : Option Advance}
    (h : Steps P c mode d s s' a) (k : DispatchKey) :
    Lease.Quiet (leaseCell s.mail k) (leaseCell s'.mail k) := by
  cases h with
  | idle h => rw [h]; exact .same
  | freeUnavailable _ _ h =>
    rw [h.mail_eq, leaseCell_congr (Mail.putDiscussion_dispatches _ _)]
    exact cancel_quiet _ _ _ _ k
  | freeFailed _ _ _ h =>
    rw [h, leaseCell_congr (Mail.putDiscussion_dispatches _ _)]
    exact .same
  | free f m _ _ _ _ _ hi h =>
    rw [h, leaseCell_congr (Mail.putDiscussion_dispatches _ _), hi.mail_eq,
      leaseCell_congr (Mail.addMessages_dispatches _ _)]
    exact .same
  | roundUnavailable _ _ _ h =>
    rw [h.mail_eq, leaseCell_congr (Mail.putDiscussion_dispatches _ _)]
    exact cancel_quiet _ _ _ _ k
  | round r m _ _ _ _ _ _ hi h =>
    rw [h, leaseCell_congr (Mail.putDiscussion_dispatches _ _), hi.mail_eq,
      leaseCell_congr (Mail.addMessages_dispatches _ _)]
    exact .same

theorem sweep_quiet {ds : List DiscussionRow} {as : List Advance} (h : Sweep P c ds s s' as)
    (k : DispatchKey) : Lease.Quiet (leaseCell s.mail k) (leaseCell s'.mail k) := by
  induction h with
  | nil => exact .same
  | cons h _ ih => exact (steps_quiet h k).trans ih

theorem controls_quiet {extra : Nat} {action : ControlAction} {d updated : DiscussionRow}
    (h : Controls P c extra d s action m updated) (k : DispatchKey) : Lease.Quiet (leaseCell s.mail k) (leaseCell m k) := by
  cases h with
  | pause _ => exact .same
  | resume _ => exact .same
  | stop _ => exact cancel_quiet _ _ _ _ k
  | reopen _ _ => exact .same
  | extend _ hc =>
    rw [hc.inserted.mail_eq, leaseCell_congr (Mail.addMessages_dispatches _ _)]
    exact .same

theorem supersede_quiet (ds : List DiscussionRow) (k : DispatchKey) :
    Lease.Quiet (leaseCell m k) (leaseCell (supersedeMail P c ds m) k) := by
  unfold supersedeMail
  induction ds generalizing m with
  | nil => exact .same
  | cons d ds ih =>
    rw [List.foldl_cons]
    refine Lease.Quiet.trans ?_ ih
    rw [leaseCell_congr (Mail.putDiscussion_dispatches _ _)]
    exact cancel_quiet _ _ _ _ k

theorem stopForPolicy_dispatches (now : Utc) (ds : List DiscussionRow) :
    (stopForPolicy P now ds m).dispatches = m.dispatches := by
  unfold stopForPolicy
  induction ds generalizing m with
  | nil => rfl
  | cons d ds ih =>
    rw [List.foldl_cons, ih]
    rfl

theorem reconcile_quiet {a : ReconcileArgs} {xs : List Reconciled}
    (h : reconcileMessageDispatches P c a s = .ok (s', xs)) (k : DispatchKey) :
    Lease.Quiet (leaseCell s.mail k) (leaseCell s'.mail k) := by
  obtain ⟨limit, attempts, os, -, -, -, -, -, hxs, hm, -⟩ := reconcileMessageDispatches_ok h
  obtain ⟨hrows, hall⟩ := reconcileEach_ok hxs
  rw [hm]
  rcases dispatch?_putReconciled xs s.mail k.1 k.2.1 k.2.2 with ⟨x, hx, hk, he⟩ | ⟨-, he⟩
  · have hrow : x.row ∈ (reconcileRows c.self.scope s.mail).take limit := by
      have := List.mem_map_of_mem (f := Reconciled.row) hx
      rw [hrows] at this
      exact (List.mem_filter.mp this).1
    have hw := (List.mem_filter.mp (List.mem_of_mem_take hrow)).2
    simp only [reconcileWhere, Bool.and_eq_true, decide_eq_true_eq, Bool.not_eq_true'] at hw
    have hscope := hw.1.1.1.1.1.1.1
    have hsettled := hw.2
    obtain ⟨code, -, hd⟩ := (hall x hx).error_eq
    have hkey : k = (x.row.scope, x.row.messageId, x.row.recipient) := by
      have hx : x.dispatch.key = (c.self.scope, x.row.messageId, x.row.recipient) := by
        rw [hd]
        rfl
      rw [hscope, ← hx, hk]
    subst hkey
    have hcell : leaseCell (putReconciled xs s.mail) (x.row.scope, x.row.messageId, x.row.recipient)
        = ⟨.final x.dispatch, (leaseCell s.mail
            (x.row.scope, x.row.messageId, x.row.recipient)).grants⟩ := by
      rw [leaseCell_some he, leaseCell_grants, hd]
      rfl
    rw [hcell]
    refine .settled (fun hf => ?_) _
    obtain ⟨e, he, ht⟩ := leaseCell_final.mp hf
    simp only [Mail.dispatchAt] at he
    simp [Mail.settled, he, ht] at hsettled
  · rw [show leaseCell (putReconciled xs s.mail) k = leaseCell s.mail k by
      simp only [leaseCell, Mail.dispatchAt, he]]
    exact .same

theorem claim_step {a : ClaimArgs} {g : Option ClaimGrant}
    (h : claimMessageDispatch P c a s = .ok (s', g)) (k : DispatchKey) :
    Lease.Step (leaseCell s.mail k) (leaseLabel P k (.ok (.claimed g))) (leaseCell s'.mail k) := by
  rcases claimMessageDispatch_ok h with ⟨rfl, rfl⟩ | ⟨q, row, -, hrow, hm, -, rfl⟩
  · exact .quiet .same
  · have hscope : row.scope = c.self.scope := by
      have := hrow.eligible
      simp only [claimWhere, Bool.and_eq_true, decide_eq_true_eq] at this
      exact this.1.1.1.1.1.1.1.1.1
    rw [hm, leaseCell_put]
    simp only [leaseLabel]
    split
    · rename_i hk
      subst hk
      have hkey : (claimedDispatch P c q s.mail row).key =
          (row.scope, row.messageId, c.self.agentId) := by
        rw [hscope]
        rfl
      have hgrants := leaseCell_grants (m := s.mail) (k := (claimedDispatch P c q s.mail row).key)
      have hcount : (claimedDispatch P c q s.mail row).attemptCount =
          (leaseCell s.mail (claimedDispatch P c q s.mail row).key).grants + 1 := by
        rw [hgrants, hkey]
        rfl
      rw [hcount]
      refine .grant (fun hf => ?_) _
      obtain ⟨d, hd, ht⟩ := leaseCell_final.mp hf
      rw [hkey] at hd
      have := (dispatchReady_true hrow.ready).1 d hd
      simp [ht] at this
    · exact .quiet .same

theorem renew_step {a : RenewArgs} {d : DispatchRow}
    (h : renewMessageDispatch P c a s = .ok (s', d)) (k : DispatchKey) :
    Lease.Quiet (leaseCell s.mail k) (leaseCell s'.mail k) := by
  obtain ⟨row, seconds, hh, hs, rfl, hm, -⟩ := renewMessageDispatch_ok h
  rw [hm, leaseCell_put, renewedDispatch_key]
  split
  · rename_i hk
    subst hk
    have hp : leasePhase (renewedDispatch P c.clock.later seconds row) =
        .held (P.sha256Bytes a.leaseToken) := leasePhase_claimed hs hh.token_eq
    rw [hh.cell hs, hp]
    exact .same
  · exact .same

theorem fail_step {a : FailArgs} {d : DispatchRow}
    (h : failMessageDispatch P c a s = .ok (s', d)) (k : DispatchKey) :
    Lease.Quiet (leaseCell s.mail k) (leaseCell s'.mail k) := by
  obtain ⟨code, row, notBefore, hh, hs, rfl, -, hm⟩ := failMessageDispatch_ok h
  have hframe : (if a.retryable then s.mail.addSchedule (sealSchedule P
      { scope := c.self.scope, messageId := strip a.messageId, agentId := c.self.agentId,
        attemptCount := row.attemptCount, notBeforeEpoch := notBefore, errorCode := code,
        createdUtc := utcNow c.clock.locked, scheduleSha256 := zeroSha256 })
      else s.mail).dispatches = s.mail.dispatches := by split <;> rfl
  rw [hm, leaseCell_put, failedDispatch_key, leaseCell_congr hframe]
  split
  · rename_i hk
    subst hk
    have ha : (failedDispatch P (utcNow c.clock.locked) a.retryable code row).attemptCount =
        (leaseCell s.mail row.key).grants := by
      rw [hh.cell hs]
      rfl
    rw [ha]
    cases hr : a.retryable with
    | true => exact .released (congrArg Lease.Cell.phase (hh.cell hs))
    | false => exact .settled (hh.not_final hs) _
  · exact .same

theorem complete_step {a : CompleteArgs} {x : Completion}
    (h : completeMessageDispatch P c a s = .ok (s', x)) (k : DispatchKey) :
    Lease.Step (leaseCell s.mail k) (leaseLabel P k (.ok (.completed x)))
      (leaseCell s'.mail k) := by
  rcases completeMessageDispatch_ok h with
    ⟨hx, rfl, -⟩ | ⟨row, source, reply, subject, body, sha, -, hc, rfl, -, hm⟩
  · simp only [leaseLabel, hx, Bool.true_eq_false, false_and, if_false]
    exact .quiet .same
  · have hframe : ((s.mail.addMessages [reply]).ignoreReceipt
        { scope := c.self.scope, messageId := source.messageId, agentId := c.self.agentId,
          acknowledgedUtc := utcNow c.clock.locked }).dispatches = s.mail.dispatches := by simp
    rw [hm, leaseCell_put, leaseCell_congr hframe, completedDispatch_key]
    by_cases hk : row.key = k
    · subst hk
      simp only [leaseLabel, completedDispatch_key, and_self, if_true]
      have ha : (completedDispatch P (utcNow c.clock.locked) reply.messageId sha
          row).attemptCount = (leaseCell s.mail row.key).grants := by
        rw [hc.holder.cell hc.claimed]
        rfl
      rw [ha]
      exact .finish (hc.holder.not_final hc.claimed) _
    · simp only [leaseLabel, completedDispatch_key, hk, and_false, if_false]
      exact .quiet .same

theorem perform_step {call : Call} {r : Reply} (h : perform P c s call = .ok (s', r))
    (k : DispatchKey) :
    Lease.Step (leaseCell s.mail k) (leaseLabel P k (.ok r)) (leaseCell s'.mail k) := by
  have same {m' : Mail} (hm : m' = s.mail) : Lease.Quiet (leaseCell s.mail k) (leaseCell m' k) := by
    rw [hm]
    exact .same
  have inserted {ds : List Draft} {rows : List MessageRow} {m' : Mail}
      (hi : Inserted P c ds rows s.mail m') :
      Lease.Quiet (leaseCell s.mail k) (leaseCell m' k) := by
    rw [hi.mail_eq, leaseCell_congr (Mail.addMessages_dispatches _ _)]
    exact .same
  cases call <;> simp only [perform] at h
  case openScope =>
    simp only [pure_eq_ok, Prod.mk.injEq] at h
    obtain ⟨rfl, rfl⟩ := h
    exact .quiet (same (initDb_mail _ _ _))
  case createRoom a =>
    obtain ⟨x, hx, rfl⟩ := replyWith_ok h
    exact .quiet (same (createRoom_ok hx).1)
  case joinRoom a =>
    obtain ⟨x, hx, rfl⟩ := replyWith_ok h
    exact .quiet (same (joinRoom_ok hx).1)
  case leaveRoom a =>
    obtain ⟨x, hx, rfl⟩ := replyWith_ok h
    exact .quiet (same (leaveRoom_ok hx).1)
  case setRoomAutomation a =>
    obtain ⟨x, hx, rfl⟩ := replyWith_ok h
    obtain ⟨_, _, _, _, _, _, _, _, hm⟩ := setRoomAutomation_ok hx
    rw [hm]
    refine .quiet ?_
    split
    · exact .same
    · rw [leaseCell_congr (stopForPolicy_dispatches _ _)]
      exact .same
  case upsertRouteProfile a =>
    obtain ⟨x, hx, rfl⟩ := replyWith_ok h
    exact .quiet (same (upsertRouteProfile_ok hx).1)
  case sendMessage a =>
    obtain ⟨x, hx, rfl⟩ := replyWith_ok h
    obtain ⟨_, _, _, hi, _⟩ := sendMessage_ok hx
    exact .quiet (inserted hi)
  case sendRoomFanout a =>
    obtain ⟨x, hx, rfl⟩ := replyWith_ok h
    obtain ⟨_, _, hi, _⟩ := sendRoomFanout_ok hx
    exact .quiet (inserted hi)
  case postRoomMessage a =>
    obtain ⟨x, hx, rfl⟩ := replyWith_ok h
    rcases postRoomMessage_ok hx with ⟨_, _, hi, _⟩ | ⟨p, policy, seats, m, ho⟩
    · exact .quiet (inserted hi)
    · rw [ho.mail_eq, leaseCell_congr (Mail.putDiscussion_dispatches _ _), ho.inserted.mail_eq,
        leaseCell_congr (Mail.addMessages_dispatches _ _)]
      exact .quiet (supersede_quiet _ k)
  case claim a =>
    obtain ⟨x, hx, rfl⟩ := replyWith_ok h
    exact claim_step hx k
  case renew a =>
    obtain ⟨x, hx, rfl⟩ := replyWith_ok h
    exact .quiet (renew_step hx k)
  case fail a =>
    obtain ⟨x, hx, rfl⟩ := replyWith_ok h
    exact .quiet (fail_step hx k)
  case recordTrusted a =>
    obtain ⟨x, hx, rfl⟩ := replyWith_ok h
    exact .quiet (same (recordTrustedInferenceReceipt_ok hx).1)
  case complete a =>
    obtain ⟨x, hx, rfl⟩ := replyWith_ok h
    exact complete_step hx k
  case ack a =>
    obtain ⟨x, hx, rfl⟩ := replyWith_ok h
    obtain ⟨_, _, _, _, _, hm⟩ := ackMessage_ok hx
    rw [hm, leaseCell_congr (Mail.ignoreReceipt_dispatches _ _)]
    exact .quiet .same
  case advance a =>
    obtain ⟨x, hx, rfl⟩ := replyWith_ok h
    obtain ⟨_, _, hw⟩ := advanceDiscussions_ok hx
    exact .quiet (sweep_quiet hw k)
  case control a =>
    obtain ⟨x, hx, rfl⟩ := replyWith_ok h
    obtain ⟨_, _, _, m, _, _, _, _, hc, _, hm⟩ := controlDiscussion_ok hx
    rw [hm, leaseCell_congr (Mail.putDiscussion_dispatches _ _)]
    exact .quiet (controls_quiet hc k)
  case reconcile a =>
    obtain ⟨x, hx, rfl⟩ := replyWith_ok h
    exact .quiet (reconcile_quiet hx k)

end Steps

end PeerBridge
