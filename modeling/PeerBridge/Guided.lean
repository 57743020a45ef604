import PeerBridge.Operations
import PeerBridge.Mailbox

namespace PeerBridge
open Checked Rows

def roomDiscussionResourcePrefix : String := "room-discussion:"
def guidedDiscussionBindingGraceSeconds : ℚ := 30

structure GuidedBinding where
  roomId : String
  taskId : String
  promptSha256 : String
  participants : List (String × String × String)

def guidedResource (key : String) : Bool :=
  roomDiscussionResourcePrefix.toList.isPrefixOf key.toList

-- LIKE 'room-discussion:%', which folds ASCII case
def likeGuidedResource (key : String) : Bool :=
  roomDiscussionResourcePrefix.toList.isPrefixOf (lower key).toList

def guidedParticipant (J : JsonReader) (participant : Json) : Option (String × String × String) :=
  let agentId := J.field "agent_id" participant
  let routeProfileId := J.field "route_profile_id" participant
  let routeProfileSha256 := J.field "route_profile_sha256" participant
  if participant.isObj && isSafeId agentId && isSafeId routeProfileId &&
      isSha256 routeProfileSha256 then some (agentId, routeProfileId, routeProfileSha256)
  else none

def guidedParticipants (J : JsonReader) : Json → Option (List (String × String × String))
  | .arr items =>
    (items.mapM (guidedParticipant J)).filter (fun ps => !ps.isEmpty ∧ (ps.map Prod.fst).Nodup)
  | _ => none

def guidedOperationId (P : Platform) (roomId taskId : String) : String :=
  "guided-room:" ++ String.ofList
    (((P.sha256Bytes (roomId ++ "\x00" ++ taskId)).hex.toList).take 40)

def guidedRoomBinding (P : Platform) (J : JsonReader) (row : OperationRow) :
    Option GuidedBinding := do
  guard (guidedResource row.resourceKey = true)
  let payload ← J.loads row.taskText
  guard ((payload.get? "schema").any (Json.is "peerbridge.guided-room-operation.v1") = true)
  let roomId := J.field "room_id" payload
  let taskId := J.field "task_id" payload
  let sourceSha256 := J.field "source_binding_sha256" payload
  let promptSha256 := J.field "prompt_sha256" payload
  guard (isSafeId roomId = true ∧ isSafeId taskId = true ∧ isSha256 sourceSha256 = true ∧
    isSha256 promptSha256 = true ∧ row.resourceKey = roomDiscussionResourcePrefix ++ sourceSha256 ∧
    row.operationId = guidedOperationId P roomId taskId ∧ row.workflowId = .investigateDebate)
  let participants ← (payload.get? "participants").bind (guidedParticipants J)
  pure { roomId, taskId, promptSha256, participants }

def openGuidedTaskRowsLocked (c : Ctx) (b : GuidedBinding) (m : Mail) : List DiscussionRow :=
  (m.discussions.filter (fun d => d.scope = c.self.scope ∧ d.roomId = b.roomId ∧
    d.taskId = b.taskId ∧ d.status.isOpen)).insertionSort
      (fun d e => d.createdUtc < e.createdUtc ∨
        d.createdUtc = e.createdUtc ∧ d.discussionId ≤ e.discussionId)

structure GuidedStop where
  stopReason : StopReason
  dispatchErrorCode : String
  eventType : String

def stoppedGuided (reason : StopReason) (d : DiscussionRow) : DiscussionRow :=
  { d with status := .stopped, stopReason := some reason }

def stopGuidedDiscussion (P : Platform) (c : Ctx) (g : GuidedStop) (row : OperationRow)
    (extra : List (String × Json)) (d : DiscussionRow) (q : Database) :
    Except QueueError Database :=
  let now := utcNow c.clock.locked
  let count := cancelCount c.self.scope d.discussionId q.store.mail
  let s := (q.store.cancelDispatches P c.self.scope d.discussionId g.dispatchErrorCode
    now).storeDiscussionState P now (stoppedGuided g.stopReason d)
  (q.withStore s).event P c g.eventType
    ([("discussion_id", .str d.discussionId), ("operation_id", .str row.operationId),
      ("cancelled_dispatch_count", .int count),
      ("discussion_sha256",
        .sha (sealDiscussion P now (stoppedGuided g.stopReason d)).discussionSha256)] ++ extra)
    (some d.taskId)

def stopGuidedRowsLocked (P : Platform) (c : Ctx) (g : GuidedStop) (row : OperationRow) :
    List DiscussionRow → Database → Except QueueError (Database × Nat)
  | [], q => pure (q, 0)
  | d :: ds, q =>
    if d.status.isOpen then do
      let q ← stopGuidedDiscussion P c g row [] d q
      let (q, stopped) ← stopGuidedRowsLocked P c g row ds q
      pure (q, stopped + 1)
    else stopGuidedRowsLocked P c g row ds q

def boundOperation (P : Platform) (c : Ctx) (row : OperationRow) (discussionId : String) :
    OperationRow :=
  sealOperation P { row with boundDiscussionId := some discussionId,
                             updatedUtc := utcNow c.clock.locked }

def bindGuidedLocked (P : Platform) (c : Ctx) (row : OperationRow) (b : GuidedBinding)
    (discussion : DiscussionRow) (recovery : Bool) (q : Database) :
    Except QueueError (Database × OperationRow) := do
  require (∀ o ∈ q.operations, o.scope = c.self.scope →
      o.boundDiscussionId ≠ some discussion.discussionId)
    (.queue "guided discussion is already bound to another operation")
  let updated := boundOperation P c row discussion.discussionId
  let q ← (q.put updated).event P c
    (if recovery then "workflow.operation.discussion_recovered"
     else "workflow.operation.discussion_bound")
    [("operation_id", .str updated.operationId), ("discussion_id", .str discussion.discussionId),
      ("room_id", .str b.roomId), ("task_id", .str b.taskId),
      ("operation_sha256", .sha updated.operationSha256)] (some b.taskId)
  pure (q, updated)

def sourceBindingStop : GuidedStop :=
  { stopReason := .workflowSourceBindingFailed,
    dispatchErrorCode := "discussion_source_binding_failed",
    eventType := "discussion.source_binding_failed" }

def failUnboundGuidedLocked (P : Platform) (c : Ctx) (row : OperationRow) (detail : String)
    (openRows : List DiscussionRow) (q : Database) :
    Except QueueError (Database × OperationRow) := do
  let (q, stopped) ← stopGuidedRowsLocked P c sourceBindingStop row openRows q
  setTerminalLocked P c row .failed "source-binding"
    (detail ++ if stopped = 0 then "" else
      " Stopped " ++ toString stopped ++ " open discussion(s) atomically.") q

-- observed and expected participants are compared as sorted lists
def participantOrder (x y : String × String × String) : Prop :=
  x.1 < y.1 ∨ x.1 = y.1 ∧ (x.2.1 < y.2.1 ∨ x.2.1 = y.2.1 ∧ x.2.2 ≤ y.2.2)

instance : DecidableRel participantOrder := fun _ _ => inferInstanceAs (Decidable (_ ∨ _))

def guidedParticipantBinding (participants : List (String × String × String)) :
    Except BridgeError (List (String × String × String)) := do
  require ((∀ p ∈ participants, isSafeId p.1 = true ∧ isSafeId p.2.1 = true ∧
      isSha256 p.2.2 = true) ∧ (participants.map Prod.fst).Nodup ∧ participants ≠ [])
    (.bridge "bound discussion participant binding is invalid")
  pure (participants.insertionSort participantOrder)

def observedParticipant (x : MessageRow) : String × String × String :=
  (x.recipient, x.routeProfileId.getD "", (x.routeProfileSha256.map Sha256.hex).getD "")

def matchesOperation (P : Platform) (promptSha256 : String)
    (expected : List (String × String × String)) (m : Mail) (d : DiscussionRow) : Bool :=
  let prompts := m.prompts d.scope d.discussionId 1
  (prompts.map observedParticipant).insertionSort participantOrder = expected &&
  prompts.all (fun x => (P.sha256Bytes x.body).hex = promptSha256)

def matchingDiscussionsForOperation (P : Platform) (c : Ctx) (b : GuidedBinding) (m : Mail) :
    Except BridgeError (List DiscussionRow) := do
  require (isSha256 b.promptSha256 = true)
    (.bridge "bound discussion prompt SHA-256 is invalid")
  let roomId ← requireIdentifier b.roomId "bound discussion room id"
  let taskId ← requireIdentifier b.taskId "bound discussion task id"
  let expected ← guidedParticipantBinding b.participants
  let rows := (m.discussions.filter (fun d => d.scope = c.self.scope ∧ d.roomId = roomId ∧
    d.taskId = taskId)).insertionSort (fun d e => d.createdUtc < e.createdUtc ∨
      d.createdUtc = e.createdUtc ∧ d.discussionId ≤ e.discussionId)
  let matching := rows.filter (matchesOperation P b.promptSha256 expected m)
  require (∀ d ∈ matching, P.stableSha256 (discussionRowPayload d) = d.discussionSha256)
    (.bridge "bound discussion SHA-256 mismatch")
  pure matching

def boundDiscussionForOperation (P : Platform) (c : Ctx) (discussionId : String)
    (b : GuidedBinding) (m : Mail) : Except BridgeError (Option DiscussionRow) := do
  let discussionId ← requireIdentifier discussionId "bound discussion id"
  match m.discussion? c.self.scope discussionId with
  | none => pure none
  | some row =>
    require (row.roomId = b.roomId ∧ row.taskId = b.taskId)
      (.bridge "bound discussion source identity does not match")
    let matching ← matchingDiscussionsForOperation P c b m
    require (∃ d ∈ matching, d.discussionId = discussionId)
      (.bridge "bound discussion prompt or route binding does not match")
    pure (some row)

-- except BridgeError: discussion = None
def verifiedDiscussion (P : Platform) (c : Ctx) (discussionId : String) (b : GuidedBinding)
    (m : Mail) : Option DiscussionRow :=
  match boundDiscussionForOperation P c discussionId b m with
  | .ok d => d
  | .error _ => none

inductive BindResult where
  | bound (row : OperationRow)
  | refused (text : String)

-- a refused binding commits the failed operation before the error is raised
def bindGuidedDiscussion (P : Platform) (J : JsonReader) (c : Ctx)
    (operationId discussionId : String) (q : Database) :
    Except QueueError (Database × BindResult) := do
  require (c.self.agentId = humanOperatorId)
    (.queue "only human-operator may bind a guided discussion")
  let operationId ← requireId operationId "operation id"
  let discussionId ← requireId discussionId "discussion id"
  let row ← requireOperation P c operationId q
  let existing := row.boundDiscussionId.getD ""
  if existing ≠ "" then do
    require (existing = discussionId) (.queue "operation is already bound to another discussion")
    pure (q, .bound row)
  else do
    require (row.status.waiting = true)
      (.queue "guided operation cannot be bound in its current state")
    match guidedRoomBinding P J row with
    | none =>
      let (q, _) ← failUnboundGuidedLocked P c row "Guided operation binding is malformed." [] q
      pure (q, .refused "guided operation binding is malformed")
    | some b =>
      let openRows := openGuidedTaskRowsLocked c b q.store.mail
      let otherOpen := openRows.filter (fun d => d.discussionId ≠ discussionId)
      match verifiedDiscussion P c discussionId b q.store.mail, otherOpen with
      | some discussion, [] =>
        let (q, updated) ← bindGuidedLocked P c row b discussion false q
        pure (q, .bound updated)
      | _, _ =>
        let (q, _) ← failUnboundGuidedLocked P c row
          ("Guided discussion did not match the exact operation " ++
            "prompt, participants, routes, or unique open state.") openRows q
        pure (q, .refused "guided discussion binding did not match")

def operationOrder (x y : OperationRow) : Prop :=
  x.createdUtc < y.createdUtc ∨ x.createdUtc = y.createdUtc ∧ x.operationId ≤ y.operationId

instance : DecidableRel operationOrder := fun _ _ => inferInstanceAs (Decidable (_ ∨ _))

def selectOperations (c : Ctx) (p : OperationRow → Bool) (q : Database) : List String :=
  ((q.operations.filter (fun o => o.scope = c.self.scope ∧ p o)).insertionSort
    operationOrder).map OperationRow.operationId

def matchingOrNone (P : Platform) (c : Ctx) (b : GuidedBinding) (m : Mail) :
    List DiscussionRow :=
  match matchingDiscussionsForOperation P c b m with
  | .ok ds => ds
  | .error _ => []

def recoverOne (P : Platform) (J : JsonReader) (c : Ctx) (now : ℚ) (operationId : String)
    (q : Database) : Except QueueError (Database × List OperationRow) := do
  let row ← requireOperation P c operationId q
  match guidedRoomBinding P J row with
  | none =>
    let (q, ended) ← failUnboundGuidedLocked P c row "Guided operation binding is malformed." [] q
    pure (q, [ended])
  | some b =>
    let openRows := openGuidedTaskRowsLocked c b q.store.mail
    let matching := matchingOrNone P c b q.store.mail
    let ids := matching.map DiscussionRow.discussionId
    let openMatching := openRows.filter (fun d => d.discussionId ∈ ids)
    let mismatchedOpen := openRows.filter (fun d => d.discussionId ∉ ids)
    if mismatchedOpen ≠ [] ∨ 1 < openMatching.length then do
      let (q, ended) ← failUnboundGuidedLocked P c row
        ("Guided crash recovery found an ambiguous or mismatched " ++ "open discussion.") openRows q
      pure (q, [ended])
    else match openMatching, matching with
      | [d], _ | [], [d] =>
        let (q, _) ← bindGuidedLocked P c row b d true q
        pure (q, [])
      | [], _ :: _ :: _ =>
        let (q, ended) ← failUnboundGuidedLocked P c row
          ("Guided crash recovery found multiple terminal discussions " ++
            "and refused to guess by timestamp or identifier.") [] q
        pure (q, [ended])
      | _, _ =>
        if row.notBeforeEpoch + guidedDiscussionBindingGraceSeconds ≤ now then do
          let (q, ended) ← failUnboundGuidedLocked P c row
            ("Guided operation was never bound to a complete discussion " ++
              "before its startup grace period expired.") [] q
          pure (q, [ended])
        else pure (q, [])

def eachOperation (f : String → Database → Except QueueError (Database × List OperationRow)) :
    List String → Database → Except QueueError (Database × List OperationRow)
  | [], q => pure (q, [])
  | id :: ids, q => do
    let (q, xs) ← f id q
    let (q, ys) ← eachOperation f ids q
    pure (q, xs ++ ys)

def recoverUnboundGuidedLocked (P : Platform) (J : JsonReader) (c : Ctx) (now : ℚ)
    (q : Database) : Except QueueError (Database × List OperationRow) :=
  eachOperation (recoverOne P J c now) (selectOperations c (fun o => o.boundDiscussionId.isNone &&
    likeGuidedResource o.resourceKey && o.status.waiting) q) q

def stopTerminalGuidedDiscussionLocked (P : Platform) (J : JsonReader) (c : Ctx)
    (g : GuidedStop) (row : OperationRow) (terminalDetail : String) (q : Database) :
    Except QueueError (Database × String) :=
  let discussionId := row.boundDiscussionId.getD ""
  if isSafeId discussionId = false then
    pure (q, terminalDetail ++
      " No persisted guided discussion ID was available for cleanup.")
  else match q.store.mail.discussion? c.self.scope discussionId with
    | none => pure (q, terminalDetail ++ " No persisted bound discussion was present.")
    | some discussion =>
      let revalidated := ((guidedRoomBinding P J row).bind
        (fun b => verifiedDiscussion P c discussionId b q.store.mail)).isSome
      if discussion.status.isOpen then do
        let q ← stopGuidedDiscussion P c g row
          [("cleanup_authority", .str "persisted-bound-discussion-id"),
            ("source_binding_revalidated", .bool revalidated)] discussion q
        pure (q, terminalDetail ++ " " ++
          if revalidated then "The bound discussion was stopped atomically."
          else "The exact persisted discussion was fenced and stopped atomically " ++
            "after full source revalidation failed.")
      else pure (q, terminalDetail ++ " The bound discussion's preserved state was already " ++
        discussion.status.text ++ ".")

def stopIfGuided (P : Platform) (J : JsonReader) (c : Ctx) (g : GuidedStop) (row : OperationRow)
    (detail : String) (q : Database) : Except QueueError (Database × String) :=
  if guidedResource row.resourceKey then stopTerminalGuidedDiscussionLocked P J c g row detail q
  else pure (q, detail)

def disallowRetry (P : Platform) (c : Ctx) (operationId : String) (q : Database) :
    Except QueueError (Database × List OperationRow) := do
  let row ← requireOperation P c operationId q
  let (q, ended) ← setTerminalLocked P c row .failed "retry_disallowed"
    ("A persisted retry was not started because the workflow may " ++
      "write to its source. Create a new operator-approved operation " ++
      "after inspecting the previous attempt.") q
  pure (q, [ended])

def cancelledStop : GuidedStop :=
  { stopReason := .workflowCancelled, dispatchErrorCode := "discussion_cancelled",
    eventType := "discussion.cancelled_after_worker_loss" }

def timeoutStop : GuidedStop :=
  { stopReason := .workflowTimeout, dispatchErrorCode := "discussion_timed_out",
    eventType := "discussion.timed_out" }

def workerLostStop : GuidedStop :=
  { stopReason := .workflowWorkerLost, dispatchErrorCode := "discussion_worker_lost",
    eventType := "discussion.worker_lost" }

def exhaustedDetail (row : OperationRow) (timedOut : Bool) : String :=
  if row.workflowId.automaticRetry = false ∧ row.attemptCount < row.maxAttempts then
    if timedOut then "Operation attempt timed out and was not automatically retried " ++
      "because the workflow may write to its source."
    else "Worker lease expired and the operation was not automatically " ++
      "retried because the workflow may write to its source."
  else if timedOut then "Operation attempt timed out and the attempt limit was reached."
  else "Worker lease expired and the attempt limit was reached."

def expireOne (P : Platform) (J : JsonReader) (c : Ctx) (now : ℚ) (operationId : String)
    (q : Database) : Except QueueError (Database × List OperationRow) := do
  let row ← requireOperation P c operationId q
  let timedOut : Bool := row.attemptDeadlineEpoch.getD 0 ≤ now
  if row.status = .cancelling ∨ row.cancellationRequested = true then do
    let (q, detail) ← stopIfGuided P J c cancelledStop row
      "Worker lease expired after cancellation was requested." q
    let (q, ended) ← setTerminalLocked P c row .cancelled "cancelled_after_worker_loss" detail q
    pure (q, [ended])
  else if timedOut = true ∧ guidedResource row.resourceKey = true then do
    let (q, detail) ← stopTerminalGuidedDiscussionLocked P J c timeoutStop row
      "Guided discussion exceeded its hard timeout." q
    let (q, ended) ← setTerminalLocked P c row .failed "timeout" detail q
    pure (q, [ended])
  else if row.workflowId.automaticRetry = true ∧ row.attemptCount < row.maxAttempts then do
    let retried := retriedOperation P c row now
      (if timedOut then "Operation attempt timed out; retry is eligible."
       else "Worker lease expired; retry is eligible.")
    let q ← (q.put retried).event P c
      (if timedOut then "workflow.operation.timeout_retry" else "workflow.operation.reconciled_retry")
      [("operation_id", .str retried.operationId), ("attempt_count", .int retried.attemptCount),
        ("operation_sha256", .sha retried.operationSha256)] none
    pure (q, [retried])
  else do
    let (q, detail) ← stopIfGuided P J c (if timedOut then timeoutStop else workerLostStop) row
      (exhaustedDetail row timedOut) q
    let (q, ended) ← setTerminalLocked P c row .failed
      (if timedOut then "timeout" else "worker_lost") detail q
    pure (q, [ended])

def expired (now : ℚ) (o : OperationRow) : Bool :=
  o.status.live && (o.leaseExpiresEpoch.any (· ≤ now) || o.attemptDeadlineEpoch.any (· ≤ now))

def reconcileLocked (P : Platform) (J : JsonReader) (c : Ctx) (now : ℚ) (q : Database) :
    Except QueueError (Database × List OperationRow) := do
  let (q, xs) ← eachOperation (disallowRetry P c) (selectOperations c (fun o =>
    o.status = .retry && !o.workflowId.automaticRetry) q) q
  let (q, ys) ← eachOperation (expireOne P J c now) (selectOperations c (expired now) q) q
  pure (q, xs ++ ys)

def reconcile (P : Platform) (J : JsonReader) (c : Ctx) (nowEpoch : Option ℚ) (q : Database) :
    Except QueueError (Database × List OperationRow) := do
  require (c.self.agentId = humanOperatorId ∨ c.self.agentId = controlRoomWorkflowId)
    (.queue "only human-operator or control-room-workflow may reconcile workflows")
  let now := nowEpoch.getD c.clock.locked
  let (q, xs) ← recoverUnboundGuidedLocked P J c now q
  let (q, ys) ← reconcileLocked P J c now q
  pure (q, xs ++ ys)

inductive OperationClass where
  | any | managed | roomDiscussion
  deriving DecidableEq, Repr

def OperationClass.parse? : String → Option OperationClass
  | "any" => some .any
  | "managed" => some .managed
  | "room-discussion" => some .roomDiscussion
  | _ => none

def OperationClass.admits (k : OperationClass) (o : OperationRow) : Bool :=
  match k with
  | .any => true
  | .managed => !likeGuidedResource o.resourceKey
  | .roomDiscussion => likeGuidedResource o.resourceKey

structure ClaimOperationArgs where
  workerId : String
  nowEpoch : Option ℚ := none
  leaseSeconds : Int := 300
  operationClass : String := "any"

def resourceBusy (q : Database) (o : OperationRow) : Bool :=
  q.operations.any (fun x => x.scope = o.scope ∧ x.resourceKey = o.resourceKey ∧ x.status.live)

def claimCandidate (c : Ctx) (now : ℚ) (k : OperationClass) (q : Database) (o : OperationRow) :
    Bool :=
  o.scope = c.self.scope && o.status.waiting && o.notBeforeEpoch ≤ now &&
  !o.cancellationRequested &&
  (c.self.agentId = controlRoomWorkflowId || o.workflowId ≠ .releaseGate) && k.admits o &&
  (!likeGuidedResource o.resourceKey || o.boundDiscussionId.isSome) && !resourceBusy q o

def claimOrder (x y : OperationRow) : Prop :=
  x.notBeforeEpoch < y.notBeforeEpoch ∨ x.notBeforeEpoch = y.notBeforeEpoch ∧ operationOrder x y

instance : DecidableRel claimOrder := fun _ _ => inferInstanceAs (Decidable (_ ∨ _))

def claimedOperation (P : Platform) (c : Ctx) (row : OperationRow) (worker : String) (now : ℚ)
    (leaseSeconds : Nat) : OperationRow :=
  sealOperation P
    { row with status := .running, attemptCount := row.attemptCount + 1, leaseOwner := some worker,
               leaseTokenSha256 := some (P.sha256Bytes c.token),
               leaseExpiresEpoch := some (now + leaseSeconds),
               attemptDeadlineEpoch := some (now + row.timeoutSeconds), terminalDetail := none,
               updatedUtc := utcNow c.clock.locked }

structure OperationClaim where
  operation : OperationRow
  leaseToken : String

def claim (P : Platform) (J : JsonReader) (c : Ctx) (a : ClaimOperationArgs) (q : Database) :
    Except QueueError (Database × Option OperationClaim) := do
  let worker ← requireId a.workerId "worker id"
  let seconds ← requireLease a.leaseSeconds
  let kind ← demand (OperationClass.parse? a.operationClass)
    (.queue "operation claim class is invalid")
  let now := a.nowEpoch.getD c.clock.entry
  let (q, _) ← recoverUnboundGuidedLocked P J c now q
  let (q, _) ← reconcileLocked P J c now q
  match ((q.operations.filter (claimCandidate c now kind q)).insertionSort claimOrder).head? with
  | none => pure (q, none)
  | some candidate =>
    let row ← requireOperation P c candidate.operationId q
    let claimed := claimedOperation P c row worker now seconds
    let q ← (q.put claimed).event P c "workflow.operation.claimed"
      [("operation_id", .str claimed.operationId), ("worker_id", .str worker),
        ("attempt_count", .int claimed.attemptCount),
        ("operation_sha256", .sha claimed.operationSha256)] none
    pure (q, some { operation := claimed, leaseToken := c.token })

end PeerBridge
