import PeerBridge.Opening

namespace PeerBridge
open Checked Rows

inductive QueueError where
  | queue (text : String)
  | capacity (text : String)
  | bridge (e : BridgeError)

inductive WorkflowId where
  | implementReview | investigateDebate | readOnlyAudit | releaseGate
  deriving DecidableEq, Repr

def WorkflowId.text : WorkflowId → String
  | .implementReview => "implement-review"
  | .investigateDebate => "investigate-debate"
  | .readOnlyAudit => "read-only-audit"
  | .releaseGate => "release-gate"

def WorkflowId.parse? (t : String) : Option WorkflowId :=
  [WorkflowId.implementReview, .investigateDebate, .readOnlyAudit, .releaseGate].find?
    (fun w => w.text = t)

def WorkflowId.automaticRetry : WorkflowId → Bool
  | .implementReview => false
  | .investigateDebate | .readOnlyAudit | .releaseGate => true

inductive OperationStatus where
  | queued | running | retry | cancelling | succeeded | failed | cancelled
  deriving DecidableEq, Repr

def OperationStatus.text : OperationStatus → String
  | .queued => "queued"
  | .running => "running"
  | .retry => "retry"
  | .cancelling => "cancelling"
  | .succeeded => "succeeded"
  | .failed => "failed"
  | .cancelled => "cancelled"

def OperationStatus.terminal : OperationStatus → Bool
  | .succeeded | .failed | .cancelled => true
  | .queued | .running | .retry | .cancelling => false

def OperationStatus.waiting : OperationStatus → Bool
  | .queued | .retry => true
  | .running | .cancelling | .succeeded | .failed | .cancelled => false

def OperationStatus.live : OperationStatus → Bool
  | .running | .cancelling => true
  | .queued | .retry | .succeeded | .failed | .cancelled => false

inductive Ending where
  | succeeded | failed | cancelled
  deriving DecidableEq, Repr

def Ending.status : Ending → OperationStatus
  | .succeeded => .succeeded
  | .failed => .failed
  | .cancelled => .cancelled

def retryClasses : List String := ["transient", "resource", "provider", "timeout"]
def maxTaskChars : Nat := 50000
def maxOperationAttempts : Int := 10
def maxOperationTimeoutSeconds : Int := 86400
def maxOperationLeaseSeconds : Int := 3600
def releaseGateReceiptSchema : String := "peerbridge.release-gate-verdict-receipt.v1"
def releaseGateTerminalOutcome : String := "release_gate_verified"
def controlRoomWorkflowId : String := "control-room-workflow"

structure OperationRow where
  scope : String
  operationId : String
  workflowId : WorkflowId
  requestedBy : String
  taskText : String
  workingDirectory : String
  resourceKey : String
  permissionDecisionId : Option String
  boundDiscussionId : Option String
  status : OperationStatus
  attemptCount : Nat
  maxAttempts : Nat
  timeoutSeconds : Nat
  notBeforeEpoch : ℚ
  leaseOwner : Option String
  leaseTokenSha256 : Option Sha256
  leaseExpiresEpoch : Option ℚ
  attemptDeadlineEpoch : Option ℚ
  cancellationRequested : Bool
  terminalOutcome : Option String
  terminalDetail : Option String
  createdUtc : Utc
  updatedUtc : Utc
  operationSha256 : Sha256

def OperationRow.key (o : OperationRow) : String × String := (o.scope, o.operationId)

def governanceOperationPayload (o : OperationRow) : Json :=
  .obj [("scope", .str o.scope), ("operation_id", .str o.operationId),
    ("workflow_id", .str o.workflowId.text), ("requested_by", .str o.requestedBy),
    ("task_text", .str o.taskText), ("working_directory", .str o.workingDirectory),
    ("resource_key", .str o.resourceKey), ("permission_decision_id", .opt o.permissionDecisionId),
    ("bound_discussion_id", .opt o.boundDiscussionId), ("status", .str o.status.text),
    ("attempt_count", .int o.attemptCount), ("max_attempts", .int o.maxAttempts),
    ("timeout_seconds", .int o.timeoutSeconds), ("not_before_epoch", .real o.notBeforeEpoch),
    ("lease_owner", .opt o.leaseOwner), ("lease_token_sha256", .optSha o.leaseTokenSha256),
    ("lease_expires_epoch", o.leaseExpiresEpoch.elim .null .real),
    ("attempt_deadline_epoch", o.attemptDeadlineEpoch.elim .null .real),
    ("cancellation_requested", .int o.cancellationRequested.toNat),
    ("terminal_outcome", .opt o.terminalOutcome), ("terminal_detail", .opt o.terminalDetail),
    ("created_utc", .utc o.createdUtc), ("updated_utc", .utc o.updatedUtc)]

structure Database where
  store : Store
  operations : List OperationRow

namespace Database

def operation? (q : Database) (scope operationId : String) : Option OperationRow :=
  lookup OperationRow.key (scope, operationId) q.operations

def put (q : Database) (o : OperationRow) : Database :=
  { q with operations := upsert OperationRow.key o q.operations }

def withStore (q : Database) (s : Store) : Database := { q with store := s }

def event (P : Platform) (c : Ctx) (eventType : String) (payload : List (String × Json))
    (taskId : Option String) (q : Database) : Except QueueError Database :=
  match q.store.event P c eventType payload taskId with
  | .ok (s, _) => .ok (q.withStore s)
  | .error e => .error (.bridge e)

end Database

def requireId (value label : String) : Except QueueError String := do
  let text := strip value
  require (isSafeId text = true) (.queue (label ++ " is invalid"))
  pure text

def safeText (P : Platform) (value label : String) (limit : Nat) : Except QueueError String := do
  let text := strip value
  require (text ≠ "" ∧ text.length ≤ limit) (.queue (label ++ " is invalid or too large"))
  require (P.containsSecret text = false) (.queue (label ++ " contains credential-like data"))
  pure text

def requireWorkflow (value : String) : Except QueueError WorkflowId := do
  let text ← requireId value "workflow id"
  demand (WorkflowId.parse? text) (.queue "workflow template is not registered")

def permissionDecision (value : Option String) : Except QueueError (Option String) :=
  if value.getD "" = "" then pure none
  else some <$> requireId (value.getD "") "permission decision id"

def sealOperation (P : Platform) (o : OperationRow) : OperationRow :=
  { o with operationSha256 := P.stableSha256 (governanceOperationPayload o) }

def requireOperation (P : Platform) (c : Ctx) (operationId : String) (q : Database) :
    Except QueueError OperationRow := do
  let row ← demand (q.operation? c.self.scope operationId) (.queue "operation does not exist")
  require (P.stableSha256 (governanceOperationPayload row) = row.operationSha256)
    (.queue "operation SHA-256 does not match its state")
  pure row

structure EnqueueRequest where
  workflowId : String
  taskText : String
  workingDirectory : String
  resourceKey : String
  requestedBy : String
  permissionDecisionId : Option String
  maxAttempts : Int
  timeoutSeconds : Int
  notBeforeEpoch : ℚ
  operationId : Option String

def requireLimits (maxAttempts timeoutSeconds : Int) : Except QueueError (Nat × Nat) := do
  require (1 ≤ maxAttempts ∧ maxAttempts ≤ maxOperationAttempts)
    (.queue "operation attempt limit is invalid")
  require (1 ≤ timeoutSeconds ∧ timeoutSeconds ≤ maxOperationTimeoutSeconds)
    (.queue "operation timeout is invalid")
  pure (maxAttempts.toNat, timeoutSeconds.toNat)

def enqueueLocked (P : Platform) (c : Ctx) (a : EnqueueRequest) (q : Database) :
    Except QueueError (Database × OperationRow) := do
  let workflowId ← requireWorkflow a.workflowId
  let taskText ← safeText P a.taskText "task text" maxTaskChars
  let workingDirectory ← safeText P a.workingDirectory "working directory" 2000
  let resourceKey ← requireId a.resourceKey "resource key"
  let requestedBy ← requireId a.requestedBy "requester"
  require (requestedBy = humanOperatorId ∨ requestedBy = controlRoomWorkflowId)
    (.queue "only human-operator or control-room-workflow may enqueue local workflows")
  let permissionDecisionId ← permissionDecision a.permissionDecisionId
  let (maxAttempts, timeoutSeconds) ← requireLimits a.maxAttempts a.timeoutSeconds
  let operationId ← requireId
    (if a.operationId.getD "" = "" then c.uuid.text else a.operationId.getD "") "operation id"
  let created := utcNow c.clock.locked
  let row := sealOperation P
    { scope := c.self.scope, operationId, workflowId, requestedBy, taskText, workingDirectory,
      resourceKey, permissionDecisionId, boundDiscussionId := none, status := .queued,
      attemptCount := 0, maxAttempts, timeoutSeconds, notBeforeEpoch := a.notBeforeEpoch,
      leaseOwner := none, leaseTokenSha256 := none, leaseExpiresEpoch := none,
      attemptDeadlineEpoch := none, cancellationRequested := false, terminalOutcome := none,
      terminalDetail := none, createdUtc := created, updatedUtc := created,
      operationSha256 := zeroSha256 }
  require ((q.operation? c.self.scope operationId).isNone = true)
    (.queue "operation id already exists")
  let q ← (q.put row).event P c "workflow.operation.queued"
    [("operation_id", .str operationId), ("workflow_id", .str workflowId.text),
      ("resource_key", .str resourceKey), ("operation_sha256", .sha row.operationSha256)] none
  pure (q, row)

structure EnqueueArgs where
  workflowId : String
  taskText : String
  workingDirectory : String
  resourceKey : String
  requestedBy : String := humanOperatorId
  permissionDecisionId : Option String := none
  maxAttempts : Int := 3
  timeoutSeconds : Int := 1800
  notBeforeEpoch : Option ℚ := none
  operationId : Option String := none

def enqueue (P : Platform) (c : Ctx) (a : EnqueueArgs) (q : Database) :
    Except QueueError (Database × OperationRow) := do
  require (c.self.agentId = humanOperatorId ∧ a.requestedBy = humanOperatorId)
    (.queue "only human-operator may enqueue local workflows")
  enqueueLocked P c
    { workflowId := a.workflowId, taskText := a.taskText, workingDirectory := a.workingDirectory,
      resourceKey := a.resourceKey, requestedBy := a.requestedBy,
      permissionDecisionId := a.permissionDecisionId, maxAttempts := a.maxAttempts,
      timeoutSeconds := a.timeoutSeconds,
      notBeforeEpoch := a.notBeforeEpoch.getD c.clock.locked, operationId := a.operationId } q

structure EnsureArgs where
  operationId : String
  workflowId : String
  taskText : String
  workingDirectory : String
  resourceKey : String
  requestedBy : Option String := none
  permissionDecisionId : Option String := none
  maxAttempts : Int := 1
  timeoutSeconds : Int := 1800
  notBeforeEpoch : ℚ := 0
  maxOpenOperations : Option Int := none

def openOperations (scope requester : String) (q : Database) : Nat :=
  (q.operations.filter (fun o => o.scope = scope ∧ o.requestedBy = requester ∧
    o.status.terminal = false)).length

def requireCapacity (c : Ctx) (requester : String) (limit : Option Int) (q : Database) :
    Except QueueError Unit :=
  match limit with
  | none => pure ()
  | some n => require ((openOperations c.self.scope requester q : Int) < n)
      (.capacity "automatic operation capacity is already full")

def ensure (P : Platform) (c : Ctx) (a : EnsureArgs) (q : Database) :
    Except QueueError (Database × OperationRow × Bool) := do
  let requester := if a.requestedBy.getD "" = "" then c.self.agentId else a.requestedBy.getD ""
  require (requester = humanOperatorId ∨ requester = controlRoomWorkflowId)
    (.queue "operation requester is not authorized")
  require (c.self.agentId = requester) (.queue "operation requester does not match bridge identity")
  let operationId ← requireId a.operationId "operation id"
  let workflowId ← requireWorkflow a.workflowId
  let taskText ← safeText P a.taskText "task text" maxTaskChars
  let workingDirectory ← safeText P a.workingDirectory "working directory" 2000
  let resourceKey ← requireId a.resourceKey "resource key"
  let permissionDecisionId ← permissionDecision a.permissionDecisionId
  let (maxAttempts, timeoutSeconds) ← requireLimits a.maxAttempts a.timeoutSeconds
  require (a.maxOpenOperations.isSome = true → requester = controlRoomWorkflowId)
    (.queue "atomic operation capacity is reserved for control-room-workflow")
  require (∀ n ∈ a.maxOpenOperations, 1 ≤ n ∧ n ≤ 10000)
    (.queue "automatic operation capacity is invalid")
  match q.operation? c.self.scope operationId with
  | some _ =>
    let row ← requireOperation P c operationId q
    require (row.workflowId = workflowId ∧ row.requestedBy = requester ∧ row.taskText = taskText ∧
        row.workingDirectory = workingDirectory ∧ row.resourceKey = resourceKey ∧
        row.permissionDecisionId = permissionDecisionId ∧ row.maxAttempts = maxAttempts ∧
        row.timeoutSeconds = timeoutSeconds ∧ row.notBeforeEpoch = a.notBeforeEpoch)
      (.queue "operation id already exists with a different source request")
    pure (q, row, false)
  | none =>
    requireCapacity c requester a.maxOpenOperations q
    let (q, row) ← enqueueLocked P c
      { workflowId := workflowId.text, taskText, workingDirectory, resourceKey,
        requestedBy := requester, permissionDecisionId, maxAttempts := a.maxAttempts,
        timeoutSeconds := a.timeoutSeconds, notBeforeEpoch := a.notBeforeEpoch,
        operationId := some operationId } q
    pure (q, row, true)

def OperationRow.released (o : OperationRow) : OperationRow :=
  { o with leaseOwner := none, leaseTokenSha256 := none, leaseExpiresEpoch := none,
           attemptDeadlineEpoch := none }

def endedOperation (P : Platform) (c : Ctx) (row : OperationRow) (ending : Ending)
    (outcome detail : String) : OperationRow :=
  sealOperation P { row.released with status := ending.status, terminalOutcome := some outcome,
                                      terminalDetail := some detail,
                                      updatedUtc := utcNow c.clock.locked }

def setTerminalLocked (P : Platform) (c : Ctx) (row : OperationRow) (ending : Ending)
    (outcome detail : String) (q : Database) : Except QueueError (Database × OperationRow) := do
  require (row.status.terminal = false) (.queue "operation already has a terminal outcome")
  let ended := endedOperation P c row ending outcome detail
  let q ← (q.put ended).event P c ("workflow.operation." ++ ending.status.text)
    [("operation_id", .str ended.operationId), ("workflow_id", .str ended.workflowId.text),
      ("outcome", .str outcome), ("operation_sha256", .sha ended.operationSha256)] none
  pure (q, ended)

def retriedOperation (P : Platform) (c : Ctx) (row : OperationRow) (notBefore : ℚ)
    (detail : String) : OperationRow :=
  sealOperation P { row.released with status := .retry, notBeforeEpoch := notBefore,
                                      terminalDetail := some detail,
                                      updatedUtc := utcNow c.clock.locked }

def requireWorker (P : Platform) (row : OperationRow) (workerId leaseToken : String) :
    Except QueueError Unit := do
  require (row.status.live = true) (.queue "operation is not owned by a running worker")
  let worker ← requireId workerId "worker id"
  require (row.leaseOwner = some worker) (.queue "operation worker identity does not match")
  require (row.leaseTokenSha256 = some (P.sha256Bytes leaseToken))
    (.queue "operation lease token does not match")

def requireLiveWorker (P : Platform) (row : OperationRow) (workerId leaseToken : String)
    (now : ℚ) : Except QueueError Unit := do
  requireWorker P row workerId leaseToken
  require (now < row.leaseExpiresEpoch.getD 0) (.queue "operation lease already expired")
  require (now < row.attemptDeadlineEpoch.getD 0) (.queue "operation attempt already timed out")

def requireLease (leaseSeconds : Int) : Except QueueError Nat := do
  require (1 ≤ leaseSeconds ∧ leaseSeconds ≤ maxOperationLeaseSeconds)
    (.queue "operation lease is invalid")
  pure leaseSeconds.toNat

structure WorkerArgs where
  operationId : String
  workerId : String
  leaseToken : String
  nowEpoch : Option ℚ := none

def heartbeat (P : Platform) (c : Ctx) (a : WorkerArgs) (leaseSeconds : Int) (q : Database) :
    Except QueueError (Database × OperationRow) := do
  let operationId ← requireId a.operationId "operation id"
  let seconds ← requireLease leaseSeconds
  let now := a.nowEpoch.getD c.clock.entry
  let row ← requireOperation P c operationId q
  requireLiveWorker P row a.workerId a.leaseToken now
  let updated := sealOperation P
    { row with leaseExpiresEpoch := some (min (now + seconds) (row.attemptDeadlineEpoch.getD 0)),
               updatedUtc := utcNow c.clock.locked }
  pure (q.put updated, updated)

-- json.loads, and str() of the values that are not text, integers or constants
structure JsonReader where
  loads : String → Option Json
  repr : Json → String

def Json.truthy : Json → Bool
  | .null => false
  | .bool b => b
  | .int n => n ≠ 0
  | .real q => q ≠ 0
  | .str t => t ≠ ""
  | .sha _ | .utc _ => true
  | .arr items => !items.isEmpty
  | .obj fields => !fields.isEmpty

def Json.get? (key : String) : Json → Option Json
  | .obj fields => (lookup Prod.fst key fields).map Prod.snd
  | _ => none

def Json.isObj : Json → Bool
  | .obj _ => true
  | _ => false

def Json.is (t : String) : Json → Bool
  | .str u => u = t
  | _ => false

namespace JsonReader

def str (J : JsonReader) : Json → String
  | .null => "None"
  | .bool b => if b then "True" else "False"
  | .int n => toString n
  | .str t => t
  | .sha d => d.hex
  | v => J.repr v

-- str(value.get(key) or "")
def field (J : JsonReader) (key : String) (v : Json) : String :=
  match v.get? key with
  | some x => if x.truthy then J.str x else ""
  | none => ""

end JsonReader

def approvedReview (J : JsonReader) (review : Json) : Bool :=
  review.isObj && (review.get? "decision").any (Json.is "approve") &&
  isSha256 (J.field "answer_sha256" review) && J.field "session_id" review ≠ "" &&
  J.field "agent_id" review ≠ ""

def releaseReviews : Json → List Json
  | .arr reviews => reviews
  | _ => []

def releaseReceipt (J : JsonReader) (row : OperationRow) (operationId : String)
    (receipt : Json) : Bool :=
  let reviews := ((receipt.get? "reviews").map releaseReviews).getD []
  let fingerprint := J.field "source_fingerprint" receipt
  receipt.isObj && (receipt.get? "schema").any (Json.is releaseGateReceiptSchema) &&
  (receipt.get? "operation_id").any (Json.is operationId) && isSha256 fingerprint &&
  row.resourceKey = "release:" ++ fingerprint && reviews.length = 2 &&
  (reviews.map (J.field "role")).all (fun r => r = "auditor" ∨ r = "reviewer") &&
  (reviews.map (J.field "role")).Nodup && reviews.all (approvedReview J) &&
  (reviews.map (J.field "session_id")).Nodup && (reviews.map (J.field "agent_id")).Nodup

def requireReleaseReceipt (J : JsonReader) (c : Ctx) (row : OperationRow)
    (operationId outcome detail : String) : Except QueueError Unit := do
  require (c.self.agentId = controlRoomWorkflowId)
    (.queue "only control-room-workflow may complete a release gate")
  require (outcome = releaseGateTerminalOutcome) (.queue "release gate completion outcome is invalid")
  require ((J.loads detail).any (releaseReceipt J row operationId) = true)
    (.queue "release gate completion receipt is invalid")

structure CompleteOperationArgs extends WorkerArgs where
  outcome : String := "completed"
  detail : String := "Workflow completed."

def completeOperation (P : Platform) (J : JsonReader) (c : Ctx) (a : CompleteOperationArgs)
    (q : Database) : Except QueueError (Database × OperationRow) := do
  let operationId ← requireId a.operationId "operation id"
  let outcome ← requireId a.outcome "terminal outcome"
  let detail ← safeText P a.detail "terminal detail" 4000
  let now := a.nowEpoch.getD c.clock.entry
  let row ← requireOperation P c operationId q
  requireLiveWorker P row a.workerId a.leaseToken now
  if row.workflowId = .releaseGate then
    requireReleaseReceipt J c row operationId outcome detail
  require (row.cancellationRequested = false)
    (.queue "operation cancellation must be acknowledged")
  setTerminalLocked P c row .succeeded outcome detail q

structure FailOperationArgs extends WorkerArgs where
  errorClass : String
  detail : String
  retryAfterSeconds : Int := 15
  allowRetry : Bool := true

def retryDelay (seconds : Int) : ℚ := (max 0 (min seconds 86400) : Int)

def failOperation (P : Platform) (c : Ctx) (a : FailOperationArgs) (q : Database) :
    Except QueueError (Database × OperationRow) := do
  let operationId ← requireId a.operationId "operation id"
  let errorClass ← requireId a.errorClass "error class"
  let detail ← safeText P a.detail "failure detail" 4000
  let now := a.nowEpoch.getD c.clock.entry
  let row ← requireOperation P c operationId q
  requireLiveWorker P row a.workerId a.leaseToken now
  if row.cancellationRequested then
    setTerminalLocked P c row .cancelled "cancelled"
      "Worker acknowledged cancellation while handling a failure." q
  else if errorClass ∈ retryClasses ∧ a.allowRetry = true ∧ row.workflowId.automaticRetry = true ∧
      row.attemptCount < row.maxAttempts then do
    let retried := retriedOperation P c row (now + retryDelay a.retryAfterSeconds) detail
    let q ← (q.put retried).event P c "workflow.operation.retry_scheduled"
      [("operation_id", .str operationId), ("error_class", .str errorClass),
        ("not_before_epoch", .real retried.notBeforeEpoch),
        ("operation_sha256", .sha retried.operationSha256)] none
    pure (q, retried)
  else setTerminalLocked P c row .failed errorClass detail q

structure CancelArgs where
  operationId : String
  requestedBy : String := humanOperatorId
  reason : String := "Cancelled by the operator."

def cancellingOperation (P : Platform) (c : Ctx) (row : OperationRow) (reason : String) :
    OperationRow :=
  sealOperation P { row with status := .cancelling, cancellationRequested := true,
                             terminalDetail := some reason, updatedUtc := utcNow c.clock.locked }

def requestCancel (P : Platform) (c : Ctx) (a : CancelArgs) (q : Database) :
    Except QueueError (Database × OperationRow) := do
  let operationId ← requireId a.operationId "operation id"
  require (c.self.agentId = humanOperatorId) (.queue "only human-operator may cancel workflows")
  let requester ← requireId a.requestedBy "requester"
  require (requester = humanOperatorId) (.queue "only human-operator may cancel workflows")
  let reason ← safeText P a.reason "cancellation reason" 2000
  let row ← requireOperation P c operationId q
  require (row.status.terminal = false) (.queue "operation already has a terminal outcome")
  if row.status.waiting then
    setTerminalLocked P c row .cancelled "cancelled_before_start" reason q
  else do
    let updated := cancellingOperation P c row reason
    let q ← (q.put updated).event P c "workflow.operation.cancellation_requested"
      [("operation_id", .str operationId), ("operation_sha256", .sha updated.operationSha256)] none
    pure (q, updated)

def acknowledgeCancel (P : Platform) (c : Ctx) (a : WorkerArgs) (q : Database) :
    Except QueueError (Database × OperationRow) := do
  let operationId ← requireId a.operationId "operation id"
  let now := a.nowEpoch.getD c.clock.entry
  let row ← requireOperation P c operationId q
  requireLiveWorker P row a.workerId a.leaseToken now
  require (row.cancellationRequested = true) (.queue "operation cancellation was not requested")
  let detail := row.terminalDetail.getD ""
  setTerminalLocked P c row .cancelled "cancelled"
    (if detail = "" then "Cancellation acknowledged." else detail) q

end PeerBridge
