import PeerBridge.ControlRoom
import PeerBridge.Effects

namespace PeerBridge
open Checked Rows

-- a discussion bound by the queue carries the guided resource and template
structure OperationRow.Guided (o : OperationRow) (discussionId : String) : Prop where
  safe : isSafeId discussionId = true
  resource : guidedResource o.resourceKey = true
  workflow : o.workflowId = .investigateDebate

def OperationRow.Bound (o : OperationRow) : Prop := ∀ id ∈ o.boundDiscussionId, o.Guided id

structure OperationRow.Fresh (o : OperationRow) : Prop where
  status : o.status = .queued
  attempts : o.attemptCount = 0
  limit : 1 ≤ o.maxAttempts
  unbound : o.boundDiscussionId = none
  owner : o.leaseOwner = none
  token : o.leaseTokenSha256 = none
  expires : o.leaseExpiresEpoch = none
  deadline : o.attemptDeadlineEpoch = none
  flag : o.cancellationRequested = false

def Database.Settled (q : Database) (scope : String) (o : OperationRow) : Prop :=
  ∀ id ∈ o.boundDiscussionId, ∀ d, q.store.mail.discussion? scope id = some d →
    d.status.isOpen = false

-- what one UPDATE of an operation row does, a claim apart
inductive Change (P : Platform) (c : Ctx) (direct : Bool) (q : Database) (row : OperationRow) :
    OperationRow → Prop
  | ended {ending : Ending} {outcome detail : String} (hopen : row.status.terminal = false)
      (hflag : ending = .succeeded → row.cancellationRequested = false)
      (hsettled : direct = true ∨ q.Settled c.self.scope row) :
      Change P c direct q row (endedOperation P c row ending outcome detail)
  | bound {id : String} (hwaiting : row.status.waiting = true) (hguided : row.Guided id) :
      Change P c direct q row (boundOperation P c row id)
  | retried {notBefore : ℚ} {detail : String} (hlive : row.status.live = true)
      (hleft : row.attemptCount < row.maxAttempts) :
      Change P c direct q row (retriedOperation P c row notBefore detail)
  | renewed {expires : ℚ} (hlive : row.status.live = true) :
      Change P c direct q row (sealOperation P
        { row with leaseExpiresEpoch := some expires, updatedUtc := utcNow c.clock.locked })
  | cancelling {reason : String} (hlive : row.status.live = true) :
      Change P c direct q row (cancellingOperation P c row reason)

def Store.stopGuided (P : Platform) (c : Ctx) (g : GuidedStop) (d : DiscussionRow) (s : Store) :
    Store :=
  (s.cancelDispatches P c.self.scope d.discussionId g.dispatchErrorCode
    (utcNow c.clock.locked)).storeDiscussionState P (utcNow c.clock.locked)
      (stoppedGuided g.stopReason d)

inductive QueueMove (P : Platform) (c : Ctx) (direct : Bool) (q : Database) : Database → Prop
  | event {ty : String} {payload : List (String × Json)} {task : Option String} {q' : Database}
      (h : q.event P c ty payload task = .ok q') : QueueMove P c direct q q'
  | stop {g : GuidedStop} {d : DiscussionRow} (hdirect : direct = false)
      (hd : q.store.mail.discussion? c.self.scope d.discussionId = some d)
      (hopen : d.status.isOpen = true) :
      QueueMove P c direct q (q.withStore (q.store.stopGuided P c g d))
  | enqueue {row : OperationRow} (hscope : row.scope = c.self.scope)
      (hfresh : q.operation? c.self.scope row.operationId = none) (hrow : row.Fresh) :
      QueueMove P c direct q (q.put row)
  | change {row row' : OperationRow} (hscope : row.scope = c.self.scope)
      (hrow : q.operation? c.self.scope row.operationId = some row)
      (h : Change P c direct q row row') : QueueMove P c direct q (q.put row')

abbrev QueueMoves (P : Platform) (c : Ctx) (direct : Bool) : Database → Database → Prop :=
  Relation.ReflTransGen (QueueMove P c direct)

-- the lease grant of a claim, after its sweeps
structure Grants (P : Platform) (c : Ctx) (q : Database) (row : OperationRow) (worker : String)
    (now : ℚ) (seconds : Nat) (q' : Database) : Prop where
  scope_eq : row.scope = c.self.scope
  row_eq : q.operation? c.self.scope row.operationId = some row
  waiting : row.status.waiting = true
  unflagged : row.cancellationRequested = false
  idle : resourceBusy q row = false
  mail_eq : q'.store.mail = q.store.mail
  rooms_eq : q'.store.rooms = q.store.rooms
  operations_eq : q'.operations =
    (q.put (claimedOperation P c row worker now seconds)).operations

def Mail.Named (m : Mail) : Prop :=
  ∀ scope id, (m.discussion? scope id).isSome = true → isUuidHex id = true

structure Database.Sound (P : Platform) (q : Database) : Prop where
  wf : q.store.WF P
  named : q.store.mail.Named
  keys : (q.operations.map OperationRow.key).Nodup
  bound : ∀ o ∈ q.operations, o.Bound

section Rows
variable {P : Platform} {c : Ctx} {direct : Bool} {q q' : Database} {row row' : OperationRow}

theorem Database.event_ok {ty : String} {payload : List (String × Json)} {task : Option String}
    (h : q.event P c ty payload task = .ok q') : q'.operations = q.operations ∧
      q'.store.mail = q.store.mail ∧ q'.store.rooms = q.store.rooms := by
  unfold Database.event at h
  split at h
  · rename_i s chain he
    obtain rfl := Except.ok.inj h
    obtain ⟨hm, hr, -⟩ := Store.event_frame he
    exact ⟨rfl, hm, hr⟩
  · simp at h

theorem Change.key (h : Change P c direct q row row') : row'.key = row.key := by
  cases h <;> rfl

theorem Change.bound_ok (h : Change P c direct q row row') (hb : row.Bound) : row'.Bound := by
  cases h with
  | ended => exact fun id hid => ⟨(hb id hid).safe, (hb id hid).resource, (hb id hid).workflow⟩
  | retried => exact fun id hid => ⟨(hb id hid).safe, (hb id hid).resource, (hb id hid).workflow⟩
  | renewed => exact fun id hid => ⟨(hb id hid).safe, (hb id hid).resource, (hb id hid).workflow⟩
  | cancelling => exact fun id hid => ⟨(hb id hid).safe, (hb id hid).resource, (hb id hid).workflow⟩
  | bound _ hg =>
    intro id hid
    obtain rfl := Option.some.inj hid
    exact ⟨hg.safe, hg.resource, hg.workflow⟩

theorem Database.operation?_put (o : OperationRow) (scope id : String) :
    (q.put o).operation? scope id =
      if o.key = (scope, id) then some o else q.operation? scope id := lookup_upsert _ _ _ _

theorem Database.mem_put {o x : OperationRow} (h : x ∈ (q.put o).operations) :
    x = o ∨ x ∈ q.operations := mem_upsert h

theorem Database.operation?_mem {scope id : String} (h : q.operation? scope id = some row) :
    row ∈ q.operations ∧ row.scope = scope ∧ row.operationId = id := by
  have hk := lookup_key h
  simp only [OperationRow.key, Prod.mk.injEq] at hk
  exact ⟨lookup_mem h, hk⟩

theorem Database.mem_operation? (hk : (q.operations.map OperationRow.key).Nodup)
    (h : row ∈ q.operations) : q.operation? row.scope row.operationId = some row :=
  lookup_of_mem hk h

theorem discussion?_id {m : Mail} {scope id : String} {d : DiscussionRow}
    (h : m.discussion? scope id = some d) : d.discussionId = id := by
  have hk : d.key = (scope, id) := lookup_key h
  exact (Prod.mk.inj hk).2

theorem stopGuided_wf {s : Store} {g : GuidedStop} {d : DiscussionRow} (h : s.WF P)
    (hd : s.mail.discussion? c.self.scope d.discussionId = some d) :
    (s.stopGuided P c g d).WF P :=
  ⟨(h.mail.cancel _ _ _ _).rewrite hd rfl rfl rfl (.inl rfl), h.rooms⟩

theorem stopGuided_named {s : Store} {g : GuidedStop} {d : DiscussionRow} (h : s.mail.Named)
    (hd : s.mail.discussion? c.self.scope d.discussionId = some d) :
    (s.stopGuided P c g d).mail.Named := by
  have hk : d.key = (c.self.scope, d.discussionId) := lookup_key hd
  intro scope id hid
  by_cases hkey : d.key = (scope, id)
  · obtain ⟨rfl, rfl⟩ := Prod.mk.inj (hk.symm.trans hkey)
    exact h c.self.scope d.discussionId (by rw [hd]; rfl)
  · have hother : (s.stopGuided P c g d).mail.discussion? scope id = s.mail.discussion? scope id :=
      discussion?_other hkey
    exact h scope id (hother ▸ hid)

theorem Database.Sound.put (h : q.Sound P) (hrow : row'.Bound) : (q.put row').Sound P := by
  refine ⟨h.wf, h.named, nodup_upsert row' h.keys, fun o ho => ?_⟩
  rcases Database.mem_put ho with rfl | ho
  · exact hrow
  · exact h.bound o ho

theorem QueueMove.sound (h : QueueMove P c direct q q') (hq : q.Sound P) : q'.Sound P := by
  cases h with
  | event h =>
    obtain ⟨ho, hm, hr⟩ := Database.event_ok h
    refine ⟨⟨?_, ?_⟩, ?_, ?_, ?_⟩
    · rw [hm, hr]
      exact hq.wf.mail
    · rw [hr]
      exact hq.wf.rooms
    · rw [hm]
      exact hq.named
    · rw [ho]
      exact hq.keys
    · rw [ho]
      exact hq.bound
  | stop _ hd _ => exact ⟨stopGuided_wf hq.wf hd, stopGuided_named hq.named hd, hq.keys, hq.bound⟩
  | enqueue _ _ hrow =>
    exact hq.put fun id hid => by
      rw [hrow.unbound] at hid
      simp at hid
  | change _ hrow h =>
    exact hq.put (h.bound_ok (hq.bound _ (Database.operation?_mem hrow).1))

theorem QueueMoves.sound (h : QueueMoves P c direct q q') (hq : q.Sound P) : q'.Sound P := by
  induction h with
  | refl => exact hq
  | tail _ hm ih => exact hm.sound ih

end Rows

section Calls
variable {P : Platform} {J : JsonReader} {c : Ctx} {direct : Bool} {q q' : Database}
  {row row' : OperationRow}

theorem requireId_of {value label : String} (h : strip value = value ∧ isSafeId value = true) :
    requireId value label = .ok value := by
  simp [requireId, bind, Except.bind, require, h.1, h.2, pure, Except.pure]

theorem requireOperation_ok {id : String} (h : requireOperation P c id q = .ok row) :
    q.operation? c.self.scope id = some row ∧ row.scope = c.self.scope ∧ row.operationId = id := by
  simp only [requireOperation, bind_eq_ok, demand_eq_ok, require_eq_ok, pure_eq_ok] at h
  obtain ⟨_, hrow, -, -, rfl⟩ := h
  exact ⟨hrow, (Database.operation?_mem hrow).2⟩

theorem QueueMoves.event {q₀ : Database} {ty : String} {payload : List (String × Json)}
    {task : Option String} (h : q.event P c ty payload task = .ok q')
    (hm : QueueMoves P c direct q₀ q) : QueueMoves P c direct q₀ q' := hm.tail (.event h)

theorem QueueMoves.change (hrow : q.operation? c.self.scope row.operationId = some row)
    (h : Change P c direct q row row') : QueueMoves P c direct q (q.put row') :=
  .single (.change (Database.operation?_mem hrow).2.1 hrow h)

theorem setTerminalLocked_ok {ending : Ending} {outcome detail : String}
    (h : setTerminalLocked P c row ending outcome detail q = .ok (q', row')) :
    row.status.terminal = false ∧ row' = endedOperation P c row ending outcome detail ∧
      ∃ ty payload, (q.put row').event P c ty payload none = .ok q' := by
  simp only [setTerminalLocked, bind_eq_ok, require_eq_ok, pure_eq_ok, Prod.mk.injEq] at h
  obtain ⟨-, hopen, q₁, he, rfl, rfl⟩ := h
  exact ⟨hopen, rfl, _, _, he⟩

theorem setTerminalLocked_moves {ending : Ending} {outcome detail : String}
    (hrow : q.operation? c.self.scope row.operationId = some row)
    (hflag : ending = .succeeded → row.cancellationRequested = false)
    (hsettled : direct = true ∨ q.Settled c.self.scope row)
    (h : setTerminalLocked P c row ending outcome detail q = .ok (q', row')) :
    QueueMoves P c direct q q' := by
  obtain ⟨hopen, rfl, ty, payload, he⟩ := setTerminalLocked_ok h
  exact .event he (.change hrow (.ended hopen hflag hsettled))

theorem requireLiveWorker_ok {worker token : String} {now : ℚ} {u : Unit}
    (h : requireLiveWorker P row worker token now = .ok u) :
    row.status.live = true ∧ row.leaseTokenSha256 = some (P.sha256Bytes token) := by
  simp only [requireLiveWorker, requireWorker, bind_eq_ok, require_eq_ok] at h
  obtain ⟨-, ⟨-, hlive, -, -, -, -, htoken⟩, -, -, -⟩ := h
  exact ⟨hlive, htoken⟩

theorem requireLimits_ok {n k : Int} {a b : Nat} (h : requireLimits n k = .ok (a, b)) :
    1 ≤ a := by
  simp only [requireLimits, bind_eq_ok, require_eq_ok, pure_eq_ok, Prod.mk.injEq] at h
  obtain ⟨-, ⟨hn, -⟩, -, -, rfl, -⟩ := h
  omega

theorem enqueueLocked_moves {a : EnqueueRequest} (h : enqueueLocked P c a q = .ok (q', row)) :
    QueueMoves P c direct q q' := by
  simp only [enqueueLocked, bind_eq_ok, require_eq_ok, pure_eq_ok, Prod.mk.injEq] at h
  obtain ⟨_, -, _, -, _, -, _, -, _, -, -, -, _, -, ⟨limit, timeout⟩, hl, id, -, -, hnew, q₁, he,
    rfl, rfl⟩ := h
  refine .event he (.single (.enqueue rfl (Option.isNone_iff_eq_none.mp hnew) ?_))
  exact ⟨rfl, rfl, requireLimits_ok hl, rfl, rfl, rfl, rfl, rfl, rfl⟩

theorem enqueue_moves {a : EnqueueArgs} (h : enqueue P c a q = .ok (q', row)) :
    QueueMoves P c direct q q' := by
  simp only [enqueue, bind_eq_ok] at h
  obtain ⟨-, -, h⟩ := h
  exact enqueueLocked_moves h

theorem ensure_moves {a : EnsureArgs} {b : Bool} (h : ensure P c a q = .ok (q', row, b)) :
    QueueMoves P c direct q q' := by
  simp only [ensure, bind_eq_ok] at h
  obtain ⟨-, -, -, -, _, -, _, -, _, -, _, -, _, -, _, -, _, -, -, -, -, -, h⟩ := h
  split at h
  · simp only [bind_eq_ok, pure_eq_ok, Prod.mk.injEq] at h
    obtain ⟨-, -, -, -, rfl, -⟩ := h
    exact .refl
  · simp only [bind_eq_ok, pure_eq_ok, Prod.mk.injEq] at h
    obtain ⟨-, -, ⟨q₁, row₁⟩, he, rfl, -⟩ := h
    exact enqueueLocked_moves he

theorem heartbeat_moves {a : WorkerArgs} {n : Int} (h : heartbeat P c a n q = .ok (q', row)) :
    QueueMoves P c true q q' := by
  simp only [heartbeat, bind_eq_ok, pure_eq_ok, Prod.mk.injEq] at h
  obtain ⟨id, -, seconds, -, row, hrow, u, hlive, rfl, -⟩ := h
  obtain ⟨hrow, -, rfl⟩ := requireOperation_ok hrow
  exact .change hrow (.renewed (requireLiveWorker_ok hlive).1)

theorem completeOperation_moves {a : CompleteOperationArgs}
    (h : completeOperation P J c a q = .ok (q', row)) : QueueMoves P c true q q' := by
  simp only [completeOperation, bind_eq_ok] at h
  obtain ⟨id, -, outcome, -, detail, -, row, hrow, -, -, h⟩ := h
  obtain ⟨hrow, -, rfl⟩ := requireOperation_ok hrow
  split at h
  · simp only [bind_eq_ok, require_eq_ok] at h
    obtain ⟨-, -, -, hflag, h⟩ := h
    exact setTerminalLocked_moves hrow (fun _ => hflag) (.inl rfl) h
  · simp only [bind_eq_ok, require_eq_ok] at h
    obtain ⟨-, hflag, h⟩ := h
    exact setTerminalLocked_moves hrow (fun _ => hflag) (.inl rfl) h

theorem failOperation_moves {a : FailOperationArgs}
    (h : failOperation P c a q = .ok (q', row)) : QueueMoves P c true q q' := by
  simp only [failOperation, bind_eq_ok] at h
  obtain ⟨id, -, cls, -, detail, -, row, hrow, u, hlive, h⟩ := h
  obtain ⟨hrow, -, rfl⟩ := requireOperation_ok hrow
  split at h
  · exact setTerminalLocked_moves hrow (by simp) (.inl rfl) h
  · split at h
    · rename_i hretry
      simp only [bind_eq_ok, pure_eq_ok, Prod.mk.injEq] at h
      obtain ⟨q₁, he, rfl, -⟩ := h
      exact .event he (.change hrow (.retried (requireLiveWorker_ok hlive).1 hretry.2.2.2))
    · exact setTerminalLocked_moves hrow (by simp) (.inl rfl) h

theorem OperationStatus.live_of (s : OperationStatus) (ht : s.terminal = false)
    (hw : s.waiting = false) : s.live = true := by
  cases s <;> simp_all [terminal, waiting, live]

theorem requestCancel_moves {a : CancelArgs} (h : requestCancel P c a q = .ok (q', row)) :
    QueueMoves P c true q q' := by
  simp only [requestCancel, bind_eq_ok, require_eq_ok] at h
  obtain ⟨id, -, -, -, requester, -, -, -, reason, -, row, hrow, -, hopen, h⟩ := h
  obtain ⟨hrow, -, rfl⟩ := requireOperation_ok hrow
  split at h
  · exact setTerminalLocked_moves hrow (by simp) (.inl rfl) h
  · rename_i hwaiting
    simp only [bind_eq_ok, pure_eq_ok, Prod.mk.injEq] at h
    obtain ⟨q₁, he, rfl, -⟩ := h
    exact .event he (.change hrow (.cancelling (row.status.live_of hopen (by simpa using hwaiting))))

theorem acknowledgeCancel_moves {a : WorkerArgs} (h : acknowledgeCancel P c a q = .ok (q', row)) :
    QueueMoves P c true q q' := by
  simp only [acknowledgeCancel, bind_eq_ok, require_eq_ok] at h
  obtain ⟨id, -, row, hrow, -, -, -, -, h⟩ := h
  obtain ⟨hrow, -, rfl⟩ := requireOperation_ok hrow
  exact setTerminalLocked_moves hrow (by simp) (.inl rfl) h

theorem stopGuidedDiscussion_moves {g : GuidedStop} {extra : List (String × Json)}
    {d : DiscussionRow} (hd : q.store.mail.discussion? c.self.scope d.discussionId = some d)
    (hopen : d.status.isOpen = true) (h : stopGuidedDiscussion P c g row extra d q = .ok q') :
    QueueMoves P c false q q' ∧ q'.operations = q.operations ∧
      q'.store.mail = (q.store.stopGuided P c g d).mail := by
  obtain ⟨ho, hm, -⟩ := Database.event_ok h
  exact ⟨.event h (.single (.stop rfl hd hopen)), ho, hm⟩

theorem stopGuided_other {s : Store} {g : GuidedStop} {d : DiscussionRow} {id : String}
    (hd : s.mail.discussion? c.self.scope d.discussionId = some d) (hid : id ≠ d.discussionId) :
    (s.stopGuided P c g d).mail.discussion? c.self.scope id = s.mail.discussion? c.self.scope id := by
  have hk : d.key = (c.self.scope, d.discussionId) := lookup_key hd
  refine discussion?_other (fun hn => hid ?_)
  exact ((Prod.mk.inj (hk.symm.trans hn)).2).symm

theorem stopGuidedRowsLocked_moves {g : GuidedStop} {ds : List DiscussionRow} {n : Nat}
    (hp : Pending c.self.scope ds q.store.mail)
    (h : stopGuidedRowsLocked P c g row ds q = .ok (q', n)) :
    QueueMoves P c false q q' ∧ q'.operations = q.operations := by
  induction ds generalizing q n with
  | nil =>
    simp only [stopGuidedRowsLocked, pure_eq_ok, Prod.mk.injEq] at h
    rw [h.1]
    exact ⟨.refl, rfl⟩
  | cons d ds ih =>
    have hd := hp.current d List.mem_cons_self
    simp only [stopGuidedRowsLocked] at h
    split at h
    · rename_i hopen
      simp only [bind_eq_ok, pure_eq_ok, Prod.mk.injEq] at h
      obtain ⟨q₁, h₁, ⟨q₂, k⟩, h₂, rfl, -⟩ := h
      obtain ⟨hm, ho, hmail⟩ := stopGuidedDiscussion_moves hd hopen h₁
      have hrest : Pending c.self.scope ds q₁.store.mail := hp.tail fun id hid => by
        rw [hmail]
        exact stopGuided_other hd hid
      obtain ⟨hm', ho'⟩ := ih hrest h₂
      exact ⟨hm.trans hm', ho'.trans ho⟩
    · exact ih (hp.tail fun id _ => rfl) h

theorem openGuided_pending (hq : q.Sound P) (b : GuidedBinding) :
    Pending c.self.scope (openGuidedTaskRowsLocked c b q.store.mail) q.store.mail := by
  refine Pending.perm (Pending.of_filter hq.wf.mail fun d hd => ?_) (List.perm_insertionSort _ _)
  simp only [decide_eq_true_eq] at hd
  exact hd.1

theorem Pending.nil (scope : String) (m : Mail) : Pending scope [] m :=
  ⟨by simp, by simp⟩

theorem operation?_congr {scope id : String} (h : q'.operations = q.operations) :
    q'.operation? scope id = q.operation? scope id := by
  rw [Database.operation?, h, Database.operation?]

theorem failUnbound_moves {detail : String} {ds : List DiscussionRow}
    (hrow : q.operation? c.self.scope row.operationId = some row)
    (hnone : row.boundDiscussionId = none) (hp : Pending c.self.scope ds q.store.mail)
    (h : failUnboundGuidedLocked P c row detail ds q = .ok (q', row')) :
    QueueMoves P c false q q' := by
  simp only [failUnboundGuidedLocked, bind_eq_ok] at h
  obtain ⟨⟨q₁, n⟩, h₁, h₂⟩ := h
  obtain ⟨hm, ho⟩ := stopGuidedRowsLocked_moves hp h₁
  refine hm.trans (setTerminalLocked_moves ?_ (by simp) (.inr ?_) h₂)
  · exact (operation?_congr ho).trans hrow
  · intro id hid
    rw [hnone] at hid
    simp at hid

theorem guidedRoomBinding_ok {b : GuidedBinding} (h : guidedRoomBinding P J row = some b) :
    guidedResource row.resourceKey = true ∧ row.workflowId = .investigateDebate := by
  simp only [guidedRoomBinding, Option.bind_eq_bind, Option.bind_eq_some_iff, Option.guard_eq_some',
    exists_const] at h
  obtain ⟨hres, payload, -, -, hall, -⟩ := h
  exact ⟨hres, hall.2.2.2.2.2.2⟩

theorem identifier_safe {t : String} (h : isIdentifier t = true) : isSafeId t = true := by
  simp only [isIdentifier, Bool.and_eq_true] at h
  exact h.1.1

theorem bindGuidedLocked_moves {b : GuidedBinding} {d : DiscussionRow} {recovery : Bool}
    (hrow : q.operation? c.self.scope row.operationId = some row)
    (hwaiting : row.status.waiting = true) (hg : row.Guided d.discussionId)
    (h : bindGuidedLocked P c row b d recovery q = .ok (q', row')) :
    QueueMoves P c false q q' := by
  simp only [bindGuidedLocked, bind_eq_ok, pure_eq_ok, Prod.mk.injEq] at h
  obtain ⟨-, -, q₁, he, rfl, -⟩ := h
  exact .event he (.change hrow (.bound hwaiting hg))

end Calls

-- a transaction step about one operation of the scope
structure Acts (P : Platform) (c : Ctx) (id : String) (q q' : Database) : Prop where
  moves : QueueMoves P c false q q'
  others : ∀ other, other ≠ id → q'.operation? c.self.scope other = q.operation? c.self.scope other

section Sweeps
variable {P : Platform} {J : JsonReader} {c : Ctx} {q q' : Database} {row row' : OperationRow}
  {xs : List OperationRow} {now : ℚ}

theorem others_put {o : OperationRow} {other : String} (hk : o.key = (c.self.scope, row.operationId))
    (h : q'.operations = (q.put o).operations) (hne : other ≠ row.operationId) :
    q'.operation? c.self.scope other = q.operation? c.self.scope other := by
  rw [operation?_congr h, Database.operation?_put, if_neg]
  intro hn
  exact hne (Prod.mk.inj (hn.symm.trans hk)).2

theorem Acts.unchanged (hm : QueueMoves P c false q q') (ho : q'.operations = q.operations)
    (id : String) : Acts P c id q q' := ⟨hm, fun _ _ => operation?_congr ho⟩

theorem Acts.trans {id : String} {q₁ : Database} (h : Acts P c id q q₁) (k : Acts P c id q₁ q') :
    Acts P c id q q' :=
  ⟨h.moves.trans k.moves, fun other hne => (k.others other hne).trans (h.others other hne)⟩

theorem setTerminalLocked_acts {ending : Ending} {outcome detail : String}
    (hrow : q.operation? c.self.scope row.operationId = some row)
    (hflag : ending = .succeeded → row.cancellationRequested = false)
    (hsettled : q.Settled c.self.scope row)
    (h : setTerminalLocked P c row ending outcome detail q = .ok (q', row')) :
    Acts P c row.operationId q q' := by
  refine ⟨setTerminalLocked_moves hrow hflag (.inr hsettled) h, fun other hne => ?_⟩
  obtain ⟨-, rfl, ty, payload, he⟩ := setTerminalLocked_ok h
  have hk : (endedOperation P c row ending outcome detail).key = (c.self.scope, row.operationId) :=
    lookup_key (r := row) hrow
  exact others_put hk (Database.event_ok he).1 hne

theorem settled_unbound (h : row.boundDiscussionId = none) (scope : String) :
    q.Settled scope row := by
  intro id hid
  rw [h] at hid
  simp at hid

theorem failUnbound_acts {detail : String} {ds : List DiscussionRow}
    (hrow : q.operation? c.self.scope row.operationId = some row)
    (hnone : row.boundDiscussionId = none) (hp : Pending c.self.scope ds q.store.mail)
    (h : failUnboundGuidedLocked P c row detail ds q = .ok (q', row')) :
    Acts P c row.operationId q q' := by
  simp only [failUnboundGuidedLocked, bind_eq_ok] at h
  obtain ⟨⟨q₁, n⟩, h₁, h₂⟩ := h
  obtain ⟨hm, ho⟩ := stopGuidedRowsLocked_moves hp h₁
  exact (Acts.unchanged hm ho _).trans (setTerminalLocked_acts ((operation?_congr ho).trans hrow)
    (by simp) (settled_unbound hnone _) h₂)

theorem bindGuidedLocked_acts {b : GuidedBinding} {d : DiscussionRow} {recovery : Bool}
    (hrow : q.operation? c.self.scope row.operationId = some row)
    (hwaiting : row.status.waiting = true) (hg : row.Guided d.discussionId)
    (h : bindGuidedLocked P c row b d recovery q = .ok (q', row')) :
    Acts P c row.operationId q q' := by
  simp only [bindGuidedLocked, bind_eq_ok, pure_eq_ok, Prod.mk.injEq] at h
  obtain ⟨-, -, q₁, he, rfl, -⟩ := h
  have hk : (boundOperation P c row d.discussionId).key = (c.self.scope, row.operationId) :=
    lookup_key (r := row) hrow
  exact ⟨.event he (.change hrow (.bound hwaiting hg)), fun other hne =>
    others_put hk (Database.event_ok he).1 hne⟩

theorem matching_safe {b : GuidedBinding} {d : DiscussionRow} (hq : q.Sound P)
    (hd : d ∈ matchingOrNone P c b q.store.mail) : isSafeId d.discussionId = true := by
  unfold matchingOrNone at hd
  split at hd
  · rename_i ds hds
    simp only [matchingDiscussionsForOperation, bind_eq_ok, require_eq_ok, pure_eq_ok] at hds
    obtain ⟨-, -, _, -, _, -, _, -, -, -, rfl⟩ := hds
    have hmem := List.mem_of_mem_filter ((List.perm_insertionSort _ _).mem_iff.mp
      (List.mem_of_mem_filter hd))
    refine uuid_safe (hq.named d.scope d.discussionId ?_)
    rw [hq.wf.mail.lookup_discussion.mpr ⟨hmem, rfl⟩]
    rfl
  · simp at hd

theorem recoverOne_acts {id : String} (hq : q.Sound P)
    (hrow : q.operation? c.self.scope id = some row) (hnone : row.boundDiscussionId = none)
    (hwaiting : row.status.waiting = true)
    (h : recoverOne P J c now id q = .ok (q', xs)) : Acts P c id q q' := by
  simp only [recoverOne, bind_eq_ok] at h
  obtain ⟨row', hrow', h⟩ := h
  obtain ⟨hr, -, rfl⟩ := requireOperation_ok hrow'
  obtain rfl : row' = row := Option.some.inj (hr.symm.trans hrow)
  have failed {detail : String} {ds : List DiscussionRow} {ended : OperationRow} {q₁ : Database}
      (hp : Pending c.self.scope ds q.store.mail)
      (h : failUnboundGuidedLocked P c row' detail ds q = .ok (q₁, ended)) :
      Acts P c row'.operationId q q₁ := failUnbound_acts hrow hnone hp h
  split at h
  · simp only [bind_eq_ok, pure_eq_ok, Prod.mk.injEq] at h
    obtain ⟨⟨q₁, ended⟩, hf, rfl, -⟩ := h
    exact failed (.nil _ _) hf
  · rename_i b hb
    have hguided := guidedRoomBinding_ok hb
    have bound {d : DiscussionRow} {updated : OperationRow} {q₁ : Database}
        (hd : d.discussionId ∈ (matchingOrNone P c b q.store.mail).map DiscussionRow.discussionId)
        (h : bindGuidedLocked P c row' b d true q = .ok (q₁, updated)) :
        Acts P c row'.operationId q q₁ := by
      obtain ⟨e, he, hid⟩ := List.mem_map.mp hd
      exact bindGuidedLocked_acts hrow hwaiting
        ⟨hid ▸ matching_safe hq he, hguided.1, hguided.2⟩ h
    split at h
    · simp only [bind_eq_ok, pure_eq_ok, Prod.mk.injEq] at h
      obtain ⟨⟨q₁, ended⟩, hf, rfl, -⟩ := h
      exact failed (openGuided_pending hq b) hf
    · split at h
      · rename_i d hopen
        simp only [bind_eq_ok, pure_eq_ok, Prod.mk.injEq] at h
        obtain ⟨⟨q₁, updated⟩, hbind, rfl, -⟩ := h
        have hd : d ∈ (openGuidedTaskRowsLocked c b q.store.mail).filter (fun d => d.discussionId ∈
            (matchingOrNone P c b q.store.mail).map DiscussionRow.discussionId) := by
          rw [hopen]
          exact List.mem_singleton.mpr rfl
        exact bound (by simpa using (List.mem_filter.mp hd).2) hbind
      · rename_i d hopen hmatch
        simp only [bind_eq_ok, pure_eq_ok, Prod.mk.injEq] at h
        obtain ⟨⟨q₁, updated⟩, hbind, rfl, -⟩ := h
        exact bound (by rw [hmatch]; simp) hbind
      · simp only [bind_eq_ok, pure_eq_ok, Prod.mk.injEq] at h
        obtain ⟨⟨q₁, ended⟩, hf, rfl, -⟩ := h
        exact failed (.nil _ _) hf
      · split at h
        · simp only [bind_eq_ok, pure_eq_ok, Prod.mk.injEq] at h
          obtain ⟨⟨q₁, ended⟩, hf, rfl, -⟩ := h
          exact failed (.nil _ _) hf
        · simp only [pure_eq_ok, Prod.mk.injEq] at h
          rw [h.1]
          exact .unchanged .refl rfl _

theorem disallowRetry_acts {id : String} (hq : q.Sound P)
    (hrow : q.operation? c.self.scope id = some row)
    (hmanual : row.workflowId.automaticRetry = false)
    (h : disallowRetry P c id q = .ok (q', xs)) : Acts P c id q q' := by
  simp only [disallowRetry, bind_eq_ok, pure_eq_ok, Prod.mk.injEq] at h
  obtain ⟨row', hrow', ⟨q₁, ended⟩, hs, rfl, -⟩ := h
  obtain ⟨hr, -, rfl⟩ := requireOperation_ok hrow'
  obtain rfl : row' = row := Option.some.inj (hr.symm.trans hrow)
  have hunbound : row'.boundDiscussionId = none := by
    cases hb : row'.boundDiscussionId with
    | none => rfl
    | some d =>
      have hw := (hq.bound row' (Database.operation?_mem hrow).1 d (by rw [hb]; rfl)).workflow
      rw [hw] at hmanual
      simp [WorkflowId.automaticRetry] at hmanual
  exact setTerminalLocked_acts hrow (by simp) (settled_unbound hunbound _) hs

-- stopping the bound discussion settles the operation
theorem stopTerminal_settles {g : GuidedStop} {detail text : String} (hq : q.Sound P)
    (hrow : q.operation? c.self.scope row.operationId = some row)
    (h : stopTerminalGuidedDiscussionLocked P J c g row detail q = .ok (q', text)) :
    QueueMoves P c false q q' ∧ q'.operations = q.operations ∧ q'.Settled c.self.scope row := by
  have hbound := hq.bound row (Database.operation?_mem hrow).1
  simp only [stopTerminalGuidedDiscussionLocked] at h
  split at h
  · rename_i hunsafe
    simp only [pure_eq_ok, Prod.mk.injEq] at h
    obtain ⟨rfl, -⟩ := h
    refine ⟨.refl, rfl, fun id hid => ?_⟩
    rw [Option.mem_def.mp hid] at hunsafe
    exact absurd (hbound id hid).safe (by simpa using hunsafe)
  · split at h
    · rename_i hnone
      simp only [pure_eq_ok, Prod.mk.injEq] at h
      obtain ⟨rfl, -⟩ := h
      refine ⟨.refl, rfl, fun id hid d hd => ?_⟩
      rw [Option.mem_def.mp hid] at hnone
      exact absurd (hnone.symm.trans hd) (by simp)
    · rename_i discussion hd
      have hself : discussion.discussionId = row.boundDiscussionId.getD "" :=
        discussion?_id hd
      split at h
      · rename_i hopen
        simp only [bind_eq_ok, pure_eq_ok, Prod.mk.injEq] at h
        obtain ⟨q₁, hs, rfl, -⟩ := h
        rw [← hself] at hd
        obtain ⟨hm, ho, hmail⟩ := stopGuidedDiscussion_moves hd hopen hs
        refine ⟨hm, ho, fun id hid d hd' => ?_⟩
        obtain rfl : discussion.discussionId = id := by
          rw [hself, Option.mem_def.mp hid]
          rfl
        have hk : discussion.key = (c.self.scope, discussion.discussionId) := lookup_key hd
        have hstopped : q₁.store.mail.discussion? c.self.scope discussion.discussionId =
            some (sealDiscussion P (utcNow c.clock.locked) (stoppedGuided g.stopReason discussion)) := by
          rw [hmail]
          exact (Mail.discussion?_putDiscussion _ _ _ _).trans (if_pos hk)
        obtain rfl := Option.some.inj (hstopped.symm.trans hd')
        rfl
      · rename_i hclosed
        simp only [pure_eq_ok, Prod.mk.injEq] at h
        obtain ⟨rfl, -⟩ := h
        refine ⟨.refl, rfl, fun id hid d hd' => ?_⟩
        rw [Option.mem_def.mp hid] at hd
        obtain rfl := Option.some.inj (hd.symm.trans hd')
        simpa using hclosed

theorem stopIfGuided_settles {g : GuidedStop} {detail text : String} (hq : q.Sound P)
    (hrow : q.operation? c.self.scope row.operationId = some row)
    (h : stopIfGuided P J c g row detail q = .ok (q', text)) :
    QueueMoves P c false q q' ∧ q'.operations = q.operations ∧ q'.Settled c.self.scope row := by
  unfold stopIfGuided at h
  split at h
  · exact stopTerminal_settles hq hrow h
  · rename_i hplain
    simp only [pure_eq_ok, Prod.mk.injEq] at h
    obtain ⟨rfl, -⟩ := h
    refine ⟨.refl, rfl, fun id hid => ?_⟩
    have hres := (hq.bound row (Database.operation?_mem hrow).1 id hid).resource
    exact absurd hres hplain

theorem expireOne_acts {id : String} (hq : q.Sound P)
    (hrow : q.operation? c.self.scope id = some row) (hlive : row.status.live = true)
    (h : expireOne P J c now id q = .ok (q', xs)) : Acts P c id q q' := by
  simp only [expireOne, bind_eq_ok] at h
  obtain ⟨row', hrow', h⟩ := h
  obtain ⟨hr, -, rfl⟩ := requireOperation_ok hrow'
  obtain rfl : row' = row := Option.some.inj (hr.symm.trans hrow)
  have ended {ending : Ending} {outcome text : String} {q₁ q₂ : Database} {ended : OperationRow}
      (hne : ending ≠ .succeeded)
      (hstop : QueueMoves P c false q q₁ ∧ q₁.operations = q.operations ∧
        q₁.Settled c.self.scope row')
      (hs : setTerminalLocked P c row' ending outcome text q₁ = .ok (q₂, ended)) :
      Acts P c row'.operationId q q₂ :=
    (Acts.unchanged hstop.1 hstop.2.1 _).trans (setTerminalLocked_acts
      ((operation?_congr hstop.2.1).trans hrow) (fun hn => absurd hn hne) hstop.2.2 hs)
  split at h
  · simp only [bind_eq_ok, pure_eq_ok, Prod.mk.injEq] at h
    obtain ⟨⟨q₁, text⟩, hstop, ⟨q₂, e⟩, hs, rfl, -⟩ := h
    exact ended (by simp) (stopIfGuided_settles hq hrow hstop) hs
  · split at h
    · simp only [bind_eq_ok, pure_eq_ok, Prod.mk.injEq] at h
      obtain ⟨⟨q₁, text⟩, hstop, ⟨q₂, e⟩, hs, rfl, -⟩ := h
      exact ended (by simp) (stopTerminal_settles hq hrow hstop) hs
    · split at h
      · rename_i hretry
        simp only [bind_eq_ok, pure_eq_ok, Prod.mk.injEq] at h
        obtain ⟨q₁, he, rfl, -⟩ := h
        refine ⟨.event he (.change hrow (.retried hlive hretry.2)), fun other hne => ?_⟩
        have hk : row'.key = (c.self.scope, row'.operationId) := lookup_key hrow
        refine others_put ?_ (Database.event_ok he).1 hne
        exact hk
      · simp only [bind_eq_ok, pure_eq_ok, Prod.mk.injEq] at h
        obtain ⟨⟨q₁, text⟩, hstop, ⟨q₂, e⟩, hs, rfl, -⟩ := h
        exact ended (by simp) (stopIfGuided_settles hq hrow hstop) hs

theorem eachOperation_moves {f : String → Database → Except QueueError (Database × List OperationRow)}
    {p : OperationRow → Prop} {ids : List String}
    (hf : ∀ q q' id xs row, q.Sound P → q.operation? c.self.scope id = some row → p row →
      f id q = .ok (q', xs) → Acts P c id q q')
    (hq : q.Sound P) (hdistinct : ids.Nodup)
    (hall : ∀ id ∈ ids, ∃ row, q.operation? c.self.scope id = some row ∧ p row)
    (h : eachOperation f ids q = .ok (q', xs)) : QueueMoves P c false q q' := by
  induction ids generalizing q xs with
  | nil =>
    simp only [eachOperation, pure_eq_ok, Prod.mk.injEq] at h
    rw [h.1]
  | cons id ids ih =>
    simp only [eachOperation, bind_eq_ok, pure_eq_ok, Prod.mk.injEq] at h
    obtain ⟨⟨q₁, xs₁⟩, h₁, ⟨q₂, xs₂⟩, h₂, rfl, -⟩ := h
    obtain ⟨hn, hd⟩ := List.nodup_cons.mp hdistinct
    obtain ⟨row, hrow, hp⟩ := hall id List.mem_cons_self
    have ha := hf q q₁ id xs₁ row hq hrow hp h₁
    refine ha.moves.trans (ih (ha.moves.sound hq) hd (fun other hother => ?_) h₂)
    rw [ha.others other (fun he => hn (he ▸ hother))]
    exact hall other (List.mem_cons_of_mem _ hother)

theorem selectOperations_spec {p : OperationRow → Bool} (hq : q.Sound P) :
    (selectOperations c p q).Nodup ∧ ∀ id ∈ selectOperations c p q,
      ∃ row, q.operation? c.self.scope id = some row ∧ p row = true := by
  have hperm := List.perm_insertionSort operationOrder
    (q.operations.filter (fun o => o.scope = c.self.scope ∧ p o))
  have hkey : ∀ o ∈ q.operations.filter (fun o => o.scope = c.self.scope ∧ p o),
      o.key = (c.self.scope, o.operationId) := by
    intro o ho
    have hs := (List.mem_filter.mp ho).2
    simp only [decide_eq_true_eq] at hs
    rw [OperationRow.key, hs.1]
  constructor
  · have hn := hq.keys.sublist ((List.filter_sublist (p := fun o => decide (o.scope =
      c.self.scope ∧ p o = true)) (l := q.operations)).map OperationRow.key)
    rw [List.map_congr_left hkey] at hn
    have hmap : (((q.operations.filter (fun o => o.scope = c.self.scope ∧ p o)).map
        OperationRow.operationId).map (fun t => (c.self.scope, t))).Nodup := by
      rwa [List.map_map]
    exact (hperm.map _).nodup_iff.mpr (hmap.of_map _)
  · intro id hid
    obtain ⟨o, ho, rfl⟩ := List.mem_map.mp hid
    obtain ⟨hmem, hs⟩ := List.mem_filter.mp (hperm.mem_iff.mp ho)
    simp only [decide_eq_true_eq] at hs
    exact ⟨o, hs.1 ▸ Database.mem_operation? hq.keys hmem, hs.2⟩

theorem recoverUnbound_moves (hq : q.Sound P)
    (h : recoverUnboundGuidedLocked P J c now q = .ok (q', xs)) : QueueMoves P c false q q' := by
  obtain ⟨hdistinct, hall⟩ := selectOperations_spec (c := c) (p := fun o =>
    o.boundDiscussionId.isNone && likeGuidedResource o.resourceKey && o.status.waiting) hq
  refine eachOperation_moves (fun q q' id xs row hq hrow hp hone => ?_) hq hdistinct hall h
  simp only [Bool.and_eq_true, Option.isNone_iff_eq_none] at hp
  exact recoverOne_acts hq hrow hp.1.1 hp.2 hone

theorem reconcileLocked_moves (hq : q.Sound P)
    (h : reconcileLocked P J c now q = .ok (q', xs)) : QueueMoves P c false q q' := by
  simp only [reconcileLocked, bind_eq_ok, pure_eq_ok, Prod.mk.injEq] at h
  obtain ⟨⟨q₁, xs₁⟩, h₁, ⟨q₂, xs₂⟩, h₂, rfl, -⟩ := h
  have hm₁ : QueueMoves P c false q q₁ := by
    obtain ⟨hdistinct, hall⟩ := selectOperations_spec (c := c) (p := fun o =>
      o.status = .retry && !o.workflowId.automaticRetry) hq
    refine eachOperation_moves (fun q q' id xs row hq hrow hp hone => ?_) hq hdistinct hall h₁
    simp only [Bool.and_eq_true, Bool.not_eq_true'] at hp
    exact disallowRetry_acts hq hrow hp.2 hone
  have hq₁ := hm₁.sound hq
  obtain ⟨hdistinct, hall⟩ := selectOperations_spec (c := c) (p := expired now) hq₁
  refine hm₁.trans (eachOperation_moves (fun q q' id xs row hq hrow hp hone => ?_) hq₁ hdistinct
    hall h₂)
  simp only [expired, Bool.and_eq_true] at hp
  exact expireOne_acts hq hrow hp.1 hone

theorem reconcile_moves {at? : Option ℚ} (hq : q.Sound P)
    (h : reconcile P J c at? q = .ok (q', xs)) : QueueMoves P c false q q' := by
  simp only [reconcile, bind_eq_ok, pure_eq_ok, Prod.mk.injEq] at h
  obtain ⟨-, -, ⟨q₁, xs₁⟩, h₁, ⟨q₂, xs₂⟩, h₂, rfl, -⟩ := h
  have hm := recoverUnbound_moves hq h₁
  exact hm.trans (reconcileLocked_moves (hm.sound hq) h₂)

theorem bindGuidedDiscussion_moves {operationId discussionId : String} {r : BindResult}
    (hq : q.Sound P) (h : bindGuidedDiscussion P J c operationId discussionId q = .ok (q', r)) :
    QueueMoves P c false q q' := by
  simp only [bindGuidedDiscussion, bind_eq_ok, require_eq_ok] at h
  obtain ⟨-, -, id, -, did, hdid, row, hrow, h⟩ := h
  obtain ⟨hrow, -, rfl⟩ := requireOperation_ok hrow
  have hsafe : isSafeId did = true := by
    simp only [requireId, bind_eq_ok, require_eq_ok, pure_eq_ok] at hdid
    obtain ⟨-, hs, rfl⟩ := hdid
    exact hs
  split at h
  · simp only [bind_eq_ok, pure_eq_ok, Prod.mk.injEq] at h
    obtain ⟨-, -, rfl, -⟩ := h
    exact .refl
  · rename_i hnew
    have hnone : row.boundDiscussionId = none := by
      cases hb : row.boundDiscussionId with
      | none => rfl
      | some d =>
        have hs := (hq.bound row (Database.operation?_mem hrow).1 d (by rw [hb]; rfl)).safe
        rw [hb] at hnew
        simp only [Option.getD_some, ne_eq, Decidable.not_not] at hnew
        rw [hnew] at hs
        exact absurd hs (by decide)
    simp only [bind_eq_ok, require_eq_ok] at h
    obtain ⟨-, hwaiting, h⟩ := h
    split at h
    · simp only [bind_eq_ok, pure_eq_ok, Prod.mk.injEq] at h
      obtain ⟨⟨q₁, ended⟩, hf, rfl, -⟩ := h
      exact (failUnbound_acts hrow hnone (.nil _ _) hf).moves
    · rename_i b hb
      have hguided := guidedRoomBinding_ok hb
      split at h
      · rename_i d hv _
        simp only [bind_eq_ok, pure_eq_ok, Prod.mk.injEq] at h
        obtain ⟨⟨q₁, updated⟩, hbind, rfl, -⟩ := h
        have hd : isSafeId d.discussionId = true := by
          unfold verifiedDiscussion at hv
          split at hv
          · rename_i e he
            obtain rfl := hv
            simp only [boundDiscussionForOperation, bind_eq_ok] at he
            obtain ⟨did', hdid', he⟩ := he
            split at he
            · simp at he
            · rename_i y hy
              simp only [bind_eq_ok, pure_eq_ok, Option.some.injEq] at he
              obtain ⟨-, -, -, -, -, -, rfl⟩ := he
              rw [discussion?_id hy]
              exact identifier_safe (requireIdentifier_ok hdid').2
          · simp at hv
        exact (bindGuidedLocked_acts hrow hwaiting ⟨hd, hguided.1, hguided.2⟩ hbind).moves
      · simp only [bind_eq_ok, pure_eq_ok, Prod.mk.injEq] at h
        obtain ⟨⟨q₁, ended⟩, hf, rfl, -⟩ := h
        exact (failUnbound_acts hrow hnone (openGuided_pending hq b) hf).moves

theorem claim_ok {a : ClaimOperationArgs} {g : Option OperationClaim} (hq : q.Sound P)
    (h : claim P J c a q = .ok (q', g)) :
    (g = none ∧ QueueMoves P c false q q') ∨
      ∃ q₁ row worker at? seconds, QueueMoves P c false q q₁ ∧
        Grants P c q₁ row worker at? seconds q' ∧
        g = some { operation := claimedOperation P c row worker at? seconds,
                   leaseToken := c.token } := by
  simp only [claim, bind_eq_ok] at h
  obtain ⟨worker, -, seconds, -, kind, -, ⟨q₁, xs₁⟩, h₁, ⟨q₂, xs₂⟩, h₂, h⟩ := h
  have hm₁ := recoverUnbound_moves hq h₁
  have hm := hm₁.trans (reconcileLocked_moves (hm₁.sound hq) h₂)
  split at h
  · simp only [pure_eq_ok, Prod.mk.injEq] at h
    obtain ⟨rfl, rfl⟩ := h
    exact .inl ⟨rfl, hm⟩
  · rename_i candidate hhead
    simp only [bind_eq_ok, pure_eq_ok, Prod.mk.injEq] at h
    obtain ⟨row, hrow, q₃, he, rfl, rfl⟩ := h
    obtain ⟨hr, hscope, hid⟩ := requireOperation_ok hrow
    obtain ⟨ho, hmail, hrooms⟩ := Database.event_ok he
    have hmem : candidate ∈ q₂.operations.filter
        (claimCandidate c (a.nowEpoch.getD c.clock.entry) kind q₂) :=
      (List.perm_insertionSort _ _).mem_iff.mp (List.mem_of_head? hhead)
    obtain ⟨hmem, hc⟩ := List.mem_filter.mp hmem
    simp only [claimCandidate, Bool.and_eq_true, decide_eq_true_eq, Bool.not_eq_true'] at hc
    obtain ⟨⟨⟨⟨⟨⟨⟨hcs, hwaiting⟩, -⟩, hflag⟩, -⟩, -⟩, -⟩, hidle⟩ := hc
    have hsame : q₂.operation? c.self.scope candidate.operationId = some candidate :=
      hcs ▸ Database.mem_operation? (QueueMoves.sound hm hq).keys hmem
    obtain rfl : row = candidate := Option.some.inj (hr.symm.trans hsame)
    exact .inr ⟨q₂, row, worker, _, seconds, hm,
      ⟨hscope, hsame, hwaiting, hflag, hidle, hmail, hrooms, ho⟩, rfl⟩

end Sweeps

-- the calls that stop a guided discussion themselves
def QueueCall.sweeps : QueueCall → Bool
  | .claim _ | .bind _ _ | .reconcile _ => true
  | _ => false

inductive QueueStep (P : Platform) (c : Ctx) (call : QueueCall) (q q' : Database) :
    QueueReply → Prop
  | moved {r : QueueReply} (h : QueueMoves P c (!call.sweeps) q q') (hr : leasesOf P r = [])
      (hg : ∀ g, r ≠ .claimed (some g)) : QueueStep P c call q q' r
  | granted {q₁ : Database} {row : OperationRow} {worker : String} {now : ℚ} {seconds : Nat}
      (hcall : call.isClaim = true) (h : QueueMoves P c false q q₁)
      (hg : Grants P c q₁ row worker now seconds q') :
      QueueStep P c call q q' (.claimed (some
        { operation := claimedOperation P c row worker now seconds, leaseToken := c.token }))

theorem performQueue_step {P : Platform} {J : JsonReader} {c : Ctx} {q q' : Database}
    {call : QueueCall} {r : QueueReply} (hq : q.Sound P)
    (h : performQueue P J c q call = .ok (q', r)) : QueueStep P c call q q' r := by
  cases call <;> simp only [performQueue] at h
  case claim a =>
    obtain ⟨g, hx, rfl⟩ := queueReply_ok h
    rcases claim_ok hq hx with ⟨rfl, hm⟩ | ⟨q₁, row, worker, now, seconds, hm, hg, rfl⟩
    · exact .moved hm rfl (by simp)
    · exact .granted rfl hm hg
  case enqueue a =>
    obtain ⟨x, hx, rfl⟩ := queueReply_ok h
    exact .moved (enqueue_moves hx) rfl (by simp)
  case ensure a =>
    obtain ⟨⟨x, b⟩, hx, rfl⟩ := queueReply_ok h
    exact .moved (ensure_moves hx) rfl (by simp)
  case heartbeat a n =>
    obtain ⟨x, hx, rfl⟩ := queueReply_ok h
    exact .moved (heartbeat_moves hx) rfl (by simp)
  case complete a =>
    obtain ⟨x, hx, rfl⟩ := queueReply_ok h
    exact .moved (completeOperation_moves hx) rfl (by simp)
  case fail a =>
    obtain ⟨x, hx, rfl⟩ := queueReply_ok h
    exact .moved (failOperation_moves hx) rfl (by simp)
  case requestCancel a =>
    obtain ⟨x, hx, rfl⟩ := queueReply_ok h
    exact .moved (requestCancel_moves hx) rfl (by simp)
  case acknowledgeCancel a =>
    obtain ⟨x, hx, rfl⟩ := queueReply_ok h
    exact .moved (acknowledgeCancel_moves hx) rfl (by simp)
  case bind o d =>
    obtain ⟨x, hx, rfl⟩ := queueReply_ok h
    exact .moved (bindGuidedDiscussion_moves hq hx) rfl (by simp)
  case reconcile now =>
    obtain ⟨x, hx, rfl⟩ := queueReply_ok h
    exact .moved (reconcile_moves hq hx) rfl (by simp)

section Mailbox
variable {P : Platform} {c : Ctx} {s s' : Store}

theorem perform_named {call : Call} {r : Reply} (h : s.WF P) (hn : s.mail.Named)
    (hp : perform P c s call = .ok (s', r)) : s'.mail.Named := by
  intro scope id hid
  have kept (hrow : s'.mail.discussion? scope id = s.mail.discussion? scope id) :
      isUuidHex id = true := hn scope id (hrow ▸ hid)
  have he := perform_effect h hp scope id
  generalize replyTriggers scope id c (.ok r) = ts at he
  cases he with
  | moved hm => exact kept hm.row
  | closed hc _ =>
    obtain ⟨d, -, -, hd, -⟩ := hc.row
    exact hn scope id (by rw [hd]; rfl)
  | answered ha => exact kept ha.row
  | opened ho =>
    have hk := discussion?_id ho.row
    rw [← hk]
    exact c.uuid.hex
  | controlled _ _ _ _ _ hd _ _ => exact hn scope id (by rw [hd]; rfl)
  | advanced _ _ _ ht =>
    cases ht with
    | passed hf => exact kept hf.row
    | taken _ _ hd => exact hn scope id (by rw [hd]; rfl)

end Mailbox

end PeerBridge
