import PeerBridge.QueueSafety

namespace PeerBridge
open Checked Rows

def Mail.NoLiveWork (m : Mail) (scope id : String) : Prop :=
  ∀ e ∈ m.dispatches, m.cancellable scope id e = false

def Mail.HasOpen (m : Mail) (scope id : String) : Prop :=
  ∃ d, m.discussion? scope id = some d ∧ d.status.isOpen = true

structure Mail.ClosedQuiet (m : Mail) (scope id : String) : Prop where
  closed : ∃ d, m.discussion? scope id = some d ∧ d.status.isOpen = false
  quiet : m.NoLiveWork scope id

-- what the queue does to one discussion
inductive Fate (scope id : String) (m m' : Mail) : Prop
  | kept (row : m'.discussion? scope id = m.discussion? scope id)
      (work : m'.NoLiveWork scope id ↔ m.NoLiveWork scope id)
  | closed (before : m.HasOpen scope id) (after : m'.ClosedQuiet scope id)

section Fates
variable {P : Platform} {c : Ctx} {direct : Bool} {m m' m'' : Mail} {scope id : String}
  {q q' : Database}

theorem Mail.HasOpen.not_closed (h : m.HasOpen scope id) : ¬ m.ClosedQuiet scope id := by
  rintro ⟨⟨d, hd, hc⟩, -⟩
  obtain ⟨e, he, ho⟩ := h
  obtain rfl := Option.some.inj (hd.symm.trans he)
  simp [hc] at ho

theorem Mail.ClosedQuiet.congr (h : m.ClosedQuiet scope id)
    (hr : m'.discussion? scope id = m.discussion? scope id)
    (hw : m'.NoLiveWork scope id ↔ m.NoLiveWork scope id) : m'.ClosedQuiet scope id :=
  ⟨hr ▸ h.closed, hw.mpr h.quiet⟩

theorem Fate.refl (m : Mail) : Fate scope id m m := .kept rfl Iff.rfl

theorem Fate.trans (h : Fate scope id m m') (k : Fate scope id m' m'') : Fate scope id m m'' := by
  cases h with
  | kept hr hw =>
    cases k with
    | kept kr kw => exact .kept (kr.trans hr) (kw.trans hw)
    | closed before after =>
      obtain ⟨d, hd, ho⟩ := before
      exact .closed ⟨d, hr ▸ hd, ho⟩ after
  | closed before after =>
    cases k with
    | kept kr kw => exact .closed before (after.congr kr kw)
    | closed before' => exact absurd after before'.not_closed

-- a closed discussion stays closed
theorem Fate.stays (h : Fate scope id m m')
    (hc : ∀ d, m.discussion? scope id = some d → d.status.isOpen = false) :
    ∀ d, m'.discussion? scope id = some d → d.status.isOpen = false := by
  cases h with
  | kept hr => exact fun d hd => hc d (hr ▸ hd)
  | closed before =>
    obtain ⟨d, hd, ho⟩ := before
    exact absurd ((hc d hd).symm.trans ho) (by simp)

theorem Fate.closedQuiet_iff (h : Fate scope id m m')
    (hc : ∀ d, m'.discussion? scope id = some d → d.status.isOpen = false) :
    m'.ClosedQuiet scope id ↔ m.ClosedQuiet scope id ∨ m.HasOpen scope id := by
  cases h with
  | kept hr hw =>
    constructor
    · exact fun hq => .inl (hq.congr hr.symm hw.symm)
    · rintro (hq | ⟨d, hd, ho⟩)
      · exact hq.congr hr hw
      · exact absurd ((hc d (hr ▸ hd)).symm.trans ho) (by simp)
  | closed before after => exact ⟨fun _ => .inr before, fun _ => after⟩

theorem cancellable_other {s i : String} {e : DispatchRow} (h : m.cancellable s i e = true)
    (hk : (s, i) ≠ (scope, id)) : m.cancellable scope id e = false := by
  obtain ⟨hs, -, y, hy, hi, -⟩ := cancellable_source h
  by_contra hc
  obtain ⟨hs', -, z, hz, hi', -⟩ := cancellable_source (by simpa using hc)
  obtain rfl := Option.some.inj (hy.symm.trans hz)
  refine hk ?_
  rw [← hs, ← hs', ← Option.some.inj (hi.symm.trans hi')]

theorem cancel_noLiveWork {s i code : String} {now : Utc} (hk : (s, i) ≠ (scope, id)) :
    (cancelDiscussionDispatches P s i code now m).NoLiveWork scope id ↔ m.NoLiveWork scope id := by
  constructor
  · intro h e he
    by_cases hc : m.cancellable s i e = true
    · exact cancellable_other hc hk
    · have hmem : e ∈ (cancelDiscussionDispatches P s i code now m).dispatches :=
        List.mem_map.mpr ⟨e, he, by rw [if_neg hc]⟩
      exact h e hmem
  · intro h e he
    obtain ⟨d, hd, rfl⟩ := List.mem_map.mp he
    split
    · simp [Mail.cancellable, cancelledDispatch, sealDispatch, DispatchStatus.terminal]
    · exact h d hd

theorem cancel_clears {code : String} {now : Utc} :
    (cancelDiscussionDispatches P scope id code now m).NoLiveWork scope id := by
  intro e he
  obtain ⟨d, -, rfl⟩ := List.mem_map.mp he
  split
  · simp [Mail.cancellable, cancelledDispatch, sealDispatch, DispatchStatus.terminal]
  · rename_i hc
    exact Bool.eq_false_iff.mpr hc

theorem stopGuided_fate {s : Store} {g : GuidedStop} {d : DiscussionRow}
    (hd : s.mail.discussion? c.self.scope d.discussionId = some d) (ho : d.status.isOpen = true) :
    Fate scope id s.mail (s.stopGuided P c g d).mail := by
  have hk : d.key = (c.self.scope, d.discussionId) := lookup_key hd
  by_cases hself : (c.self.scope, d.discussionId) = (scope, id)
  · obtain ⟨rfl, rfl⟩ := Prod.mk.inj hself
    refine .closed ⟨d, hd, ho⟩ ⟨⟨sealDiscussion P (utcNow c.clock.locked)
      (stoppedGuided g.stopReason d), ?_, rfl⟩, cancel_clears⟩
    exact (Mail.discussion?_putDiscussion _ _ _ _).trans (if_pos hk)
  · refine .kept ?_ (cancel_noLiveWork hself)
    exact discussion?_other (fun hn => hself (hk.symm.trans hn))

theorem Fate.of_mail (h : q'.store.mail = q.store.mail) :
    Fate scope id q.store.mail q'.store.mail := by
  rw [h]
  exact .refl _

theorem QueueMove.fate (h : QueueMove P c direct q q') :
    Fate scope id q.store.mail q'.store.mail := by
  cases h with
  | event h => exact Fate.of_mail (Database.event_ok h).2.1
  | stop _ hd ho => exact stopGuided_fate hd ho
  | enqueue => exact .refl _
  | change => exact .refl _

theorem QueueMoves.fate (h : QueueMoves P c direct q q') :
    Fate scope id q.store.mail q'.store.mail := by
  induction h with
  | refl => exact .refl _
  | tail _ hm ih => exact ih.trans hm.fate

-- the calls that only write an operation row leave the mail alone
theorem QueueMoves.direct_mail (h : QueueMoves P c true q q') : q'.store.mail = q.store.mail := by
  induction h with
  | refl => rfl
  | tail _ hm ih =>
    refine Eq.trans ?_ ih
    cases hm with
    | event h => exact (Database.event_ok h).2.1
    | stop hd => simp at hd
    | enqueue => rfl
    | change => rfl

theorem Database.Settled.fate {b : OperationRow} (hs : q.Settled scope b)
    (hf : ∀ id, Fate scope id q.store.mail q'.store.mail) : q'.Settled scope b :=
  fun id hid => (hf id).stays (hs id hid)

theorem Change.unfinished {row row' : OperationRow} (h : Change P c direct q row row')
    (ht : row'.status.terminal = true) :
    (direct = true ∨ q.Settled c.self.scope row) ∧
      row'.boundDiscussionId = row.boundDiscussionId := by
  cases h with
  | ended _ _ hs => exact ⟨hs, rfl⟩
  | bound hw => exact absurd ((OperationStatus.open_of_waiting hw).1.symm.trans ht) (by simp)
  | retried => simp [retriedOperation, sealOperation, OperationStatus.terminal] at ht
  | renewed hl => exact absurd ((OperationStatus.open_of_live hl).1.symm.trans ht) (by simp)
  | cancelling => simp [cancellingOperation, sealOperation, OperationStatus.terminal] at ht

theorem QueueMove.settled (h : QueueMove P c false q q') {op : String} {b : OperationRow}
    (hb : q'.operation? c.self.scope op = some b) (ht : b.status.terminal = true) :
    q.operation? c.self.scope op = some b ∨ q'.Settled c.self.scope b := by
  cases h with
  | event h => exact .inl ((operation?_congr (Database.event_ok h).1).symm.trans hb)
  | stop => exact .inl hb
  | enqueue _ _ hrow =>
    rw [Database.operation?_put] at hb
    split at hb
    · obtain rfl := Option.some.inj hb
      rw [hrow.status] at ht
      simp [OperationStatus.terminal] at ht
    · exact .inl hb
  | change _ hrow h =>
    rw [Database.operation?_put] at hb
    split at hb
    · obtain rfl := Option.some.inj hb
      obtain ⟨hs, hbound⟩ := h.unfinished ht
      refine .inr fun id hid d hd => ?_
      rw [hbound] at hid
      rcases hs with hs | hs
      · simp at hs
      · exact hs id hid d hd
    · exact .inl hb

-- an operation finished by a sweep has no open discussion
theorem QueueMoves.settled (h : QueueMoves P c false q q') {op : String} {b : OperationRow}
    (hb : q'.operation? c.self.scope op = some b) (ht : b.status.terminal = true) :
    q.operation? c.self.scope op = some b ∨ q'.Settled c.self.scope b := by
  induction h with
  | refl => exact .inl hb
  | tail _ hm ih =>
    rcases hm.settled hb ht with hb | hs
    · exact (ih hb).imp id fun hs => hs.fate fun _ => hm.fate
    · exact .inr hs

theorem QueueMove.other_scope (h : QueueMove P c direct q q') {scope op : String}
    (hne : scope ≠ c.self.scope) : q'.operation? scope op = q.operation? scope op := by
  cases h with
  | event h => exact operation?_congr (Database.event_ok h).1
  | stop => rfl
  | enqueue hscope =>
    rw [Database.operation?_put, if_neg]
    exact fun hk => hne ((Prod.mk.inj hk).1.symm.trans hscope)
  | @change row row' hscope hrow h =>
    rw [Database.operation?_put, if_neg]
    intro hk
    have hkey : row.key = (scope, op) := h.key ▸ hk
    exact hne ((Prod.mk.inj hkey).1.symm.trans hscope)

theorem QueueMoves.other_scope (h : QueueMoves P c direct q q') {scope op : String}
    (hne : scope ≠ c.self.scope) : q'.operation? scope op = q.operation? scope op := by
  induction h with
  | refl => rfl
  | tail _ hm ih => exact (hm.other_scope hne).trans ih

theorem Grants.row {row b : OperationRow} {worker : String} {now : ℚ} {seconds : Nat}
    (h : Grants P c q row worker now seconds q') {scope op : String}
    (hb : q'.operation? scope op = some b) (ht : b.status.terminal = true) :
    q.operation? scope op = some b := by
  rw [operation?_congr h.operations_eq, Database.operation?_put] at hb
  split at hb
  · obtain rfl := Option.some.inj hb
    simp [claimedOperation, sealOperation, OperationStatus.terminal] at ht
  · exact hb

-- what a queue call leaves of the discussion of an operation it finishes
theorem QueueStep.cleanup {call : QueueCall} {r : QueueReply} (h : QueueStep P c call q q' r)
    {op : String} {row row' : OperationRow} (hrow : q.operation? scope op = some row)
    (hopen : row.status.terminal = false) (hrow' : q'.operation? scope op = some row')
    (ht : row'.status.terminal = true) (hbound : row'.boundDiscussionId = some id) :
    q'.store.mail.ClosedQuiet scope id ↔ q.store.mail.ClosedQuiet scope id ∨
      call.sweeps = true ∧ q.store.mail.HasOpen scope id := by
  have changed {b : OperationRow} (hb : q.operation? scope op = some b)
      (ht : b.status.terminal = true) : False := by
    obtain rfl := Option.some.inj (hrow.symm.trans hb)
    simp [hopen] at ht
  have swept {q₁ : Database} (hm : QueueMoves P c false q q₁)
      (hmail : q'.store.mail = q₁.store.mail) (hop : q₁.operation? scope op = some row') :
      q'.store.mail.ClosedQuiet scope id ↔
        q.store.mail.ClosedQuiet scope id ∨ q.store.mail.HasOpen scope id := by
    rw [hmail]
    by_cases hs : scope = c.self.scope
    · subst hs
      rcases QueueMoves.settled hm hop ht with hb | hset
      · exact (changed hb ht).elim
      · exact (QueueMoves.fate hm).closedQuiet_iff (hset id hbound)
    · exact (changed ((QueueMoves.other_scope hm hs).symm.trans hop) ht).elim
  cases h with
  | moved hm =>
    cases hsw : call.sweeps with
    | true =>
      rw [hsw] at hm
      rw [swept hm rfl hrow']
      simp
    | false =>
      rw [hsw] at hm
      rw [QueueMoves.direct_mail hm]
      simp
  | @granted q₁ x worker now seconds hclaim hm hg =>
    have hsw : call.sweeps = true := by
      cases call <;> simp_all [QueueCall.isClaim, QueueCall.sweeps]
    rw [swept hm hg.mail_eq (hg.row hrow' ht), hsw]
    simp

end Fates

theorem guided_operation_cleanup {P : Platform} {J : JsonReader} {o : Office}
    (h : (controlRoom P J).Reachable o) {call : QueueCall} {c : Ctx} {scope op id : String}
    {row row' : OperationRow} (hrow : o.database.operation? scope op = some row)
    (hopen : row.status.terminal = false)
    (hrow' : ((controlRoom P J).exec o (.queue call, c)).1.database.operation? scope op = some row')
    (hend : row'.status = .failed ∨ row'.status = .cancelled)
    (hbound : row'.boundDiscussionId = some id) :
    ((controlRoom P J).exec o (.queue call, c)).1.database.store.mail.ClosedQuiet scope id ↔
      o.database.store.mail.ClosedQuiet scope id ∨
        call.sweeps = true ∧ o.database.store.mail.HasOpen scope id := by
  have hv : o.Valid P := by
    refine h.invariant (fun o => o.Valid P) ?_ fun o i ho _ => exec_valid ho
    rintro _ ⟨connections, now, rfl⟩
    exact initial_valid connections now
  have ht : row'.status.terminal = true := by
    rcases hend with he | he <;> rw [he] <;> rfl
  rcases exec_queue (P := P) (J := J) (o := o) (c := c) call with hsame | ⟨q, r, hp, he⟩
  · rw [hsame] at hrow'
    obtain rfl := Option.some.inj (hrow.symm.trans hrow')
    simp [hopen] at ht
  · rw [he] at hrow' ⊢
    exact (performQueue_step hv.sound hp).cleanup hrow hopen hrow' ht hbound

def guidedPlatform : Platform := { samplePlatform with stableSha256 := fun _ => sampleSha 9 }

def guidedPayload : Json :=
  .obj [("schema", .str "peerbridge.guided-room-operation.v1"), ("room_id", .str "r"),
    ("task_id", .str "t"), ("source_binding_sha256", .sha (sampleSha 1)),
    ("prompt_sha256", .sha (guidedPlatform.sha256Bytes "hello")),
    ("participants", .arr [.obj [("agent_id", .str "a"), ("route_profile_id", .str "route-a"),
      ("route_profile_sha256", .sha (sampleSha 9))]])]

def guidedText : String := dumps plainForms guidedPayload

-- the only text read below is guidedText
def guidedReader : JsonReader := { loads := fun _ => some guidedPayload, repr := fun _ => "" }

def guidedId : String := guidedOperationId guidedPlatform "r" "t"

def guidedDiscussion : String := (Uuid.ofNat 1006).text

def guidedRoom : List (OfficeCall × Ctx) :=
  (asHuman 1 (sampleSeats ["a"] ++ [sampleAutomation "discussion", samplePost])).map
    (fun x => (.mail x.1, x.2))

def guidedArgs : EnqueueArgs :=
  { workflowId := "investigate-debate", taskText := guidedText, workingDirectory := "src",
    resourceKey := "room-discussion:" ++ (sampleSha 1).hex, operationId := some guidedId }

theorem guidedText_safe (label : String) :
    safeText guidedPlatform guidedText label maxTaskChars = .ok guidedText := by
  have hchars : stripChars (jsonChars plainForms guidedPayload) =
        jsonChars plainForms guidedPayload ∧
      (jsonChars plainForms guidedPayload).length ≤ maxTaskChars ∧
      0 < (jsonChars plainForms guidedPayload).length := by decide +kernel
  obtain ⟨hstrip, hlength⟩ := hchars
  have htext : strip guidedText = guidedText := by
    rw [strip, guidedText, dumps, String.toList_ofList, hstrip]
  have hlen : guidedText.length = (jsonChars plainForms guidedPayload).length := by
    rw [guidedText, dumps, String.length_ofList]
  have hne : guidedText ≠ "" := by
    intro hn
    rw [hn] at hlen
    simp at hlen
    omega
  simp only [safeText, htext]
  simp [bind, Except.bind, require, hne, hlen, hlength.1, pure, Except.pure, guidedPlatform,
    samplePlatform]

def queuedRow (P : Platform) (c : Ctx) (a : EnqueueArgs) (workflowId : WorkflowId)
    (operationId : String) (limits : Nat × Nat) : OperationRow :=
  sealOperation P
    { scope := c.self.scope, operationId, workflowId, requestedBy := a.requestedBy,
      taskText := a.taskText, workingDirectory := a.workingDirectory,
      resourceKey := a.resourceKey, permissionDecisionId := none, boundDiscussionId := none,
      status := .queued, attemptCount := 0, maxAttempts := limits.1, timeoutSeconds := limits.2,
      notBeforeEpoch := c.clock.locked, leaseOwner := none, leaseTokenSha256 := none,
      leaseExpiresEpoch := none, attemptDeadlineEpoch := none, cancellationRequested := false,
      terminalOutcome := none, terminalDetail := none, createdUtc := utcNow c.clock.locked,
      updatedUtc := utcNow c.clock.locked, operationSha256 := zeroSha256 }

def putQueued (P : Platform) (c : Ctx) (row : OperationRow) (q : Database) :
    Except QueueError (Database × OperationRow) := do
  let q ← (q.put row).event P c "workflow.operation.queued"
    [("operation_id", .str row.operationId), ("workflow_id", .str row.workflowId.text),
      ("resource_key", .str row.resourceKey), ("operation_sha256", .sha row.operationSha256)] none
  pure (q, row)

theorem enqueue_of {P : Platform} {c : Ctx} {a : EnqueueArgs} {q : Database} {w : WorkflowId}
    {i : String} {n : Nat × Nat}
    (hself : c.self.agentId = humanOperatorId) (hby : a.requestedBy = humanOperatorId)
    (hw : requireWorkflow a.workflowId = .ok w)
    (ht : safeText P a.taskText "task text" maxTaskChars = .ok a.taskText)
    (hd : safeText P a.workingDirectory "working directory" 2000 = .ok a.workingDirectory)
    (hr : strip a.resourceKey = a.resourceKey ∧ isSafeId a.resourceKey = true)
    (hh : strip humanOperatorId = humanOperatorId ∧ isSafeId humanOperatorId = true)
    (hp : a.permissionDecisionId = none)
    (hl : requireLimits a.maxAttempts a.timeoutSeconds = .ok n) (hb : a.notBeforeEpoch = none)
    (hid : a.operationId = some i) (hs : i ≠ "" ∧ strip i = i ∧ isSafeId i = true)
    (hnone : q.operation? c.self.scope i = none) :
    enqueue P c a q = putQueued P c (queuedRow P c a w i n) q := by
  have hdecision : permissionDecision none = .ok none := rfl
  simp [enqueue, enqueueLocked, hself, hby, hw, ht, hd, requireId_of hr, requireId_of hh, hp,
    hdecision, hl, hb, hid, hs.1, requireId_of hs.2, hnone, bind, Except.bind, require, queuedRow,
    putQueued, sealOperation]

def guidedStart : Office :=
  ((controlRoom guidedPlatform guidedReader).play (.initial [] 0) guidedRoom).1

def guidedRow : OperationRow :=
  queuedRow guidedPlatform (sampleCtx sampleHuman 7) guidedArgs .investigateDebate guidedId (3, 1800)

def queuedGuided : Except QueueError (Database × OperationRow) :=
  putQueued guidedPlatform (sampleCtx sampleHuman 7) guidedRow guidedStart.database

def guidedOffice : Office :=
  match queuedGuided with
  | .ok (q, _) => guidedStart.commit guidedPlatform q .done
  | .error _ => guidedStart

set_option maxRecDepth 100000 in
theorem guidedStart_checked :
    ((strip "investigate-debate" = "investigate-debate" ∧
        isSafeId "investigate-debate" = true) ∧
      (strip guidedArgs.resourceKey = guidedArgs.resourceKey ∧
        isSafeId guidedArgs.resourceKey = true) ∧
      (strip humanOperatorId = humanOperatorId ∧ isSafeId humanOperatorId = true) ∧
      (guidedId ≠ "" ∧ strip guidedId = guidedId ∧ isSafeId guidedId = true) ∧
      strip "src" = "src" ∧ (guidedStart.database.operation? "demo" guidedId).isNone = true) ∧
    (controlRoom guidedPlatform guidedReader).AdmitsAll (.initial [] 0) guidedRoom ∧
    isOk queuedGuided = true := by
  decide +kernel

theorem guided_enqueued :
    enqueue guidedPlatform (sampleCtx sampleHuman 7) guidedArgs guidedStart.database =
      queuedGuided := by
  obtain ⟨hworkflow, hresource, hhuman, hid, hplace, hnone⟩ := guidedStart_checked.1
  have hparsed : requireWorkflow "investigate-debate" = .ok .investigateDebate := by
    simp only [requireWorkflow, requireId_of hworkflow]
    rfl
  have hdirectory : safeText guidedPlatform "src" "working directory" 2000 = .ok "src" := by
    simp only [safeText, hplace]
    rfl
  have hlimits : requireLimits 3 1800 = .ok (3, 1800) := rfl
  exact enqueue_of (a := guidedArgs) (w := .investigateDebate) (i := guidedId) (n := (3, 1800))
    rfl rfl hparsed (guidedText_safe _) hdirectory hresource hhuman rfl hlimits rfl rfl
    hid (Option.isNone_iff_eq_none.mp hnone)

theorem enqueue_reachable {P : Platform} {J : JsonReader} {o : Office} {c : Ctx}
    {a : EnqueueArgs} {q : Database} {row : OperationRow} (h : (controlRoom P J).Reachable o)
    (he : enqueue P c a o.database = .ok (q, row)) :
    (controlRoom P J).Reachable (o.commit P q .done) := by
  have hexec : ((controlRoom P J).exec o (.queue (.enqueue a), c)).1 = o.commit P q .done := by
    simp [controlRoom, attemptOffice, performQueue, queueReply, he, bind, Except.bind, pure,
      Except.pure]
  have hnext := h.next (i := (.queue (.enqueue a), c))
    (by simp [controlRoom, Office.admits, QueueCall.isClaim])
  rwa [hexec] at hnext

theorem guidedOffice_reachable :
    (controlRoom guidedPlatform guidedReader).Reachable guidedOffice := by
  obtain ⟨hopen, hok⟩ := guidedStart_checked.2
  have hstart : (controlRoom guidedPlatform guidedReader).Reachable guidedStart :=
    ⟨_, _, ⟨[], 0, rfl⟩, Machine.run_play _ _ hopen⟩
  have henqueued := guided_enqueued
  unfold guidedOffice
  generalize guidedStart = o at *
  cases hq : queuedGuided with
  | error e => simp [hq, isOk] at hok
  | ok x => exact enqueue_reachable hstart (henqueued.trans hq)

-- a worker holds the operation and stays away past its lease
def abandonedGuided : List (OfficeCall × Ctx) :=
  asQueue sampleHuman 8 [.bind guidedId guidedDiscussion, .claim { workerId := "w" }]

def guidedSweep : OfficeCall × Ctx :=
  (.queue (.reconcile (some 100000)), sampleCtx sampleHuman 10)

-- the operation is cancelled before a worker starts
def boundGuided : List (OfficeCall × Ctx) := asQueue sampleHuman 8 [.bind guidedId guidedDiscussion]

def guidedCancel : OfficeCall × Ctx :=
  (.queue (.requestCancel { operationId := guidedId }), sampleCtx sampleHuman 9)

def Office.operationIs (o : Office) (id : String) (status : OperationStatus)
    (bound : Option String) : Bool :=
  (o.database.operation? "demo" id).any
    (fun a => a.status = status ∧ a.boundDiscussionId = bound)

def Office.discussionIs (o : Office) (id : String) (status : DiscussionStatus) : Bool :=
  (o.database.store.mail.discussion? "demo" id).any (fun d => d.status = status)

set_option maxRecDepth 100000 in
theorem guided_runs :
    let M := controlRoom guidedPlatform guidedReader
    let o := (M.play guidedOffice abandonedGuided).1
    let p := (M.play guidedOffice boundGuided).1
    (M.AdmitsAll guidedOffice abandonedGuided ∧
      o.operationIs guidedId .running (some guidedDiscussion) = true ∧
      o.discussionIs guidedDiscussion .active = true ∧
      (M.exec o guidedSweep).1.operationIs guidedId .failed (some guidedDiscussion) = true) ∧
    M.AdmitsAll guidedOffice boundGuided ∧
      p.operationIs guidedId .queued (some guidedDiscussion) = true ∧
      p.discussionIs guidedDiscussion .active = true ∧
      (M.exec p guidedCancel).1.operationIs guidedId .cancelled (some guidedDiscussion) = true ∧
      (M.exec p guidedCancel).1.discussionIs guidedDiscussion .active = true := by
  decide +kernel

theorem Office.operationIs_iff {o : Office} {id : String} {status : OperationStatus}
    {bound : Option String} : o.operationIs id status bound = true ↔
      ∃ a, o.database.operation? "demo" id = some a ∧ a.status = status ∧
        a.boundDiscussionId = bound := by
  simp [Office.operationIs, Option.any_eq_true]

theorem Office.discussionIs_iff {o : Office} {id : String} {status : DiscussionStatus} :
    o.discussionIs id status = true ↔
      ∃ d, o.database.store.mail.discussion? "demo" id = some d ∧ d.status = status := by
  simp [Office.discussionIs, Option.any_eq_true]

theorem guided_operation_cleanup_expired :
    ∃ o : Office, o.discussionIs guidedDiscussion .active = true ∧
      ((controlRoom guidedPlatform guidedReader).exec o guidedSweep).1.operationIs guidedId .failed
        (some guidedDiscussion) = true ∧
      ((controlRoom guidedPlatform guidedReader).exec o
        guidedSweep).1.database.store.mail.ClosedQuiet "demo" guidedDiscussion := by
  obtain ⟨⟨hadmits, hbefore, hactive, hafter⟩, -⟩ := guided_runs
  have hreach := guidedOffice_reachable.run (Machine.run_play _ _ hadmits)
  generalize ((controlRoom guidedPlatform guidedReader).play guidedOffice abandonedGuided).1 = o
    at *
  obtain ⟨a, ha, hrunning, -⟩ := Office.operationIs_iff.mp hbefore
  obtain ⟨b, hb, hfailed, hbound⟩ := Office.operationIs_iff.mp hafter
  obtain ⟨d, hd, hopen⟩ := Office.discussionIs_iff.mp hactive
  refine ⟨o, hactive, hafter, ?_⟩
  refine (guided_operation_cleanup hreach ha (by rw [hrunning]; rfl) hb (.inl hfailed)
    hbound).mpr (.inr ⟨rfl, d, hd, by rw [hopen]; rfl⟩)

theorem cancelled_operation_discussion_active :
    ∃ o : Office, (controlRoom guidedPlatform guidedReader).Reachable o ∧
      o.operationIs guidedId .queued (some guidedDiscussion) = true ∧
      ((controlRoom guidedPlatform guidedReader).exec o guidedCancel).1.operationIs guidedId
        .cancelled (some guidedDiscussion) = true ∧
      ((controlRoom guidedPlatform guidedReader).exec o guidedCancel).1.discussionIs
        guidedDiscussion .active = true ∧
      ¬ ((controlRoom guidedPlatform guidedReader).exec o
        guidedCancel).1.database.store.mail.ClosedQuiet "demo" guidedDiscussion := by
  obtain ⟨-, hadmits, hbefore, -, hafter, hactive⟩ := guided_runs
  have hreach := guidedOffice_reachable.run (Machine.run_play _ _ hadmits)
  generalize ((controlRoom guidedPlatform guidedReader).play guidedOffice boundGuided).1 = o at *
  refine ⟨o, hreach, hbefore, hafter, hactive, ?_⟩
  rintro ⟨⟨d, hd, hclosed⟩, -⟩
  obtain ⟨e, he, hopen⟩ := Office.discussionIs_iff.mp hactive
  obtain rfl := Option.some.inj (hd.symm.trans he)
  rw [hopen] at hclosed
  simp [DiscussionStatus.isOpen] at hclosed

end PeerBridge
