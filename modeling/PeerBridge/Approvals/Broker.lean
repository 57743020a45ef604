import PeerBridge.Lib.Machine
import PeerBridge.Lib.Rows
import PeerBridge.Scenario

namespace PeerBridge.Approvals
open Checked Rows

inductive Decision where
  | allowOnce | allowSession | deny
  deriving DecidableEq, Repr

def Decision.text : Decision → String
  | .allowOnce => "allow-once"
  | .allowSession => "allow-session"
  | .deny => "deny"

def Decision.parse? (t : String) : Option Decision :=
  [.allowOnce, .allowSession, .deny].find? (fun d => d.text = t)

inductive Mode where
  | approvalRequired | agentDelegated | fullAccess
  deriving DecidableEq, Repr

inductive Risk where
  | routine | elevated | high
  deriving DecidableEq, Repr

def Risk.text : Risk → String
  | .routine => "routine"
  | .elevated => "elevated"
  | .high => "high"

def Risk.parse? (t : String) : Option Risk :=
  [.routine, .elevated, .high].find? (fun r => r.text = t)

inductive ApprovalState where
  | pending | allowed | denied | expired | cancelled
  deriving DecidableEq, Repr

def ApprovalState.text : ApprovalState → String
  | .pending => "pending"
  | .allowed => "allowed"
  | .denied => "denied"
  | .expired => "expired"
  | .cancelled => "cancelled"

inductive BrokerError where
  | value (text : String)
  | key (text : String)
  | stopIteration
  deriving DecidableEq, Repr

structure ApprovalRecord where
  approvalId : String
  sessionId : String
  adapterId : String
  providerRequestId : String
  actionKind : String
  title : String
  detail : String
  risk : Risk
  availableDecisions : List Decision
  createdUtc : Utc
  state : ApprovalState
  decision : Option Decision
  resolvedUtc : Option Utc
  recordSha256 : Sha256
  deriving DecidableEq

-- one broker's session, and what it takes from the standard library
structure Session where
  platform : Platform
  safeText : Nat → String → String
  sessionId : String
  adapterId : String
  mode : Mode

def maxPendingApprovals : Nat := 16

def isApprovalId (t : String) : Bool :=
  t.toList.head?.any Char.isAlphanum && t.toList.all isSafeIdChar && t.length ≤ 200

def ApprovalRecord.payload (r : ApprovalRecord) : Json :=
  .obj [("schema", .str "peerbridge.approval-request.v1"), ("approval_id", .str r.approvalId),
    ("session_id", .str r.sessionId), ("adapter_id", .str r.adapterId),
    ("provider_request_id", .str r.providerRequestId), ("action_kind", .str r.actionKind),
    ("title", .str r.title), ("detail", .str r.detail), ("risk", .str r.risk.text),
    ("available_decisions", .strs (r.availableDecisions.map Decision.text)),
    ("created_utc", .utc r.createdUtc), ("state", .str r.state.text),
    ("decision", .opt (r.decision.map Decision.text)),
    ("resolved_utc", r.resolvedUtc.elim .null .utc)]

def Session.seal (S : Session) (r : ApprovalRecord) : ApprovalRecord :=
  { r with recordSha256 := S.platform.stableSha256 r.payload }

-- the threading events that were set stand beside the two tables
structure Broker where
  pending : List ApprovalRecord
  history : List ApprovalRecord
  resolved : List String

def Broker.empty : Broker := { pending := [], history := [], resolved := [] }

structure RequestArgs where
  providerRequestId : String
  actionKind : String
  title : String
  detail : String
  risk : String := "elevated"
  availableDecisions : List String := ["allow-once", "allow-session", "deny"]
  timeoutSeconds : ℚ := 3600

structure CleanRequest where
  risk : Risk
  decisions : List Decision

def cleanRequest (a : RequestArgs) : Except BrokerError CleanRequest := do
  require (isApprovalId a.providerRequestId = true) (.value "invalid provider approval request id")
  require (isApprovalId a.actionKind = true) (.value "invalid approval action kind")
  let risk ← demand (Risk.parse? a.risk) (.value "invalid approval risk")
  let decisions ← demand (a.availableDecisions.eraseDups.mapM Decision.parse?)
    (.value "invalid approval decisions")
  require (decisions ≠ []) (.value "invalid approval decisions")
  require (1 ≤ a.timeoutSeconds ∧ a.timeoutSeconds ≤ 86400) (.value "invalid approval timeout")
  pure { risk, decisions }

def Session.newRecord (S : Session) (a : RequestArgs) (x : CleanRequest) (uuid : Uuid) (now : Utc) :
    ApprovalRecord :=
  S.seal { approvalId := "approval-" ++ uuid.text, sessionId := S.sessionId,
           adapterId := S.adapterId, providerRequestId := a.providerRequestId,
           actionKind := a.actionKind, title := S.safeText 240 a.title,
           detail := S.safeText 2000 a.detail, risk := x.risk, availableDecisions := x.decisions,
           createdUtc := now, state := .pending, decision := none, resolvedUtc := none,
           recordSha256 := zeroSha256 }

inductive Admission where
  | immediate (decision : Decision)
  | registered (record : ApprovalRecord)

-- request up to the wait for a decision
def Session.register (S : Session) (a : RequestArgs) (uuid : Uuid) (now : Utc) (b : Broker) :
    Except BrokerError (Broker × Admission) := do
  let x ← cleanRequest a
  if S.mode = .fullAccess then
    pure (b, .immediate (if .allowOnce ∈ x.decisions then .allowOnce
      else x.decisions.head?.getD .deny))
  else do
    require (b.pending.length < maxPendingApprovals) (.value "pending approval limit reached")
    if S.mode = .agentDelegated ∧ x.risk = .routine ∧ .allowOnce ∈ x.decisions then
      pure (b, .immediate .allowOnce)
    else do
      require (∀ r ∈ b.pending, r.providerRequestId ≠ a.providerRequestId)
        (.value "duplicate provider approval request")
      let record := S.newRecord a x uuid now
      pure ({ b with pending := b.pending ++ [record] }, .registered record)

def Broker.find? (b : Broker) (approvalId : String) : Option ApprovalRecord :=
  lookup ApprovalRecord.approvalId approvalId b.pending

def Session.settled (S : Session) (r : ApprovalRecord) (decision : Decision)
    (state : Option ApprovalState) (now : Utc) : ApprovalRecord :=
  S.seal { r with state := state.getD (if decision = .deny then .denied else .allowed),
                  decision := some decision, resolvedUtc := some now }

def Broker.pop (b : Broker) (approvalId : String) : Broker :=
  { b with pending := b.pending.filter (fun q => q.approvalId ≠ approvalId) }

def Session.finalize (S : Session) (approvalId : String) (decision : Decision)
    (state : Option ApprovalState) (now : Utc) (b : Broker) :
    Broker × Except BrokerError ApprovalRecord :=
  match b.find? approvalId with
  | none => (b, .error (.key "approval request is not pending"))
  | some r =>
    let popped := b.pop approvalId
    if decision ∉ r.availableDecisions ∧ decision ≠ .deny then
      ({ popped with pending := popped.pending ++ [r] },
        .error (.value "approval decision is unavailable"))
    else
      let resolved := S.settled r decision state now
      ({ popped with history := popped.history ++ [resolved],
                     resolved := popped.resolved ++ [approvalId] }, .ok resolved)

def Session.resolve (S : Session) (approvalId decision : String) (now : Utc) (b : Broker) :
    Broker × Except BrokerError ApprovalRecord :=
  if isApprovalId approvalId = false then (b, .error (.value "invalid approval id"))
  else
    match Decision.parse? decision with
    | none => (b, .error (.value "invalid approval decision"))
    | some decision => S.finalize approvalId decision none now b

-- the decision a settled request reads back
def Broker.decided (b : Broker) (approvalId : String) : Except BrokerError Decision := do
  let r ← demand (b.history.reverse.find? (fun q => q.approvalId = approvalId)) .stopIteration
  pure (r.decision.getD .deny)

def Broker.providerRequest? (b : Broker) (providerRequestId : String) : Option String :=
  (b.pending.find? (fun r => r.providerRequestId = providerRequestId)).map
    ApprovalRecord.approvalId

-- where a call stands between two steps under the lock
inductive Stage where
  | waiting (approvalId : String)
  | timedOut (approvalId : String)
  | settled (approvalId : String)
  | returned (approvalId : String) (decision : Decision)
  | raised (approvalId : String) (error : BrokerError)
  | cancelling (approvalIds : List String)
  | withdrawing (approvalId : String)
  | finished
  deriving DecidableEq

structure Caller where
  number : Nat
  stage : Stage

structure World where
  broker : Broker
  callers : List Caller

inductive Step where
  | request (number : Nat) (a : RequestArgs) (uuid : Uuid) (now : Utc)
  | wake (number : Nat)
  | timeout (number : Nat)
  | expire (number : Nat) (now : Utc)
  | read (number : Nat)
  | resolve (approvalId decision : String) (now : Utc)
  | cancelAll (number : Nat)
  | cancelNext (number : Nat) (now : Utc)
  | cancelProviderRequest (number : Nat) (providerRequestId : String)
  | cancelFound (number : Nat) (now : Utc)

inductive Answer where
  | none
  | decided (decision : Decision)
  | registered (record : ApprovalRecord)
  | record (record : ApprovalRecord)
  | flag (done : Bool)
  | raised (error : BrokerError)

def World.stage? (w : World) (number : Nat) : Option Stage :=
  (lookup Caller.number number w.callers).map Caller.stage

def World.with (w : World) (broker : Broker) (number : Nat) (stage : Stage) : World :=
  { broker, callers := upsert Caller.number { number, stage } w.callers }

def Stage.waiting? : Stage → Option String
  | .waiting id => some id
  | _ => none

def Stage.timedOut? : Stage → Option String
  | .timedOut id => some id
  | _ => none

def Stage.settled? : Stage → Option String
  | .settled id => some id
  | _ => none

def Stage.cancelling? : Stage → Option (String × List String)
  | .cancelling (id :: ids) => some (id, ids)
  | _ => none

def Stage.withdrawing? : Stage → Option String
  | .withdrawing id => some id
  | _ => none

def World.stageOf {α : Type} (w : World) (number : Nat) (read : Stage → Option α) : Option α :=
  (w.stage? number).bind read

def Session.requestStep (S : Session) (w : World) (number : Nat) (a : RequestArgs) (uuid : Uuid)
    (now : Utc) : World × Answer :=
  match S.register a uuid now w.broker with
  | .error e => (w.with w.broker number .finished, .raised e)
  | .ok (b, .immediate decision) => (w.with b number .finished, .decided decision)
  | .ok (b, .registered r) => (w.with b number (.waiting r.approvalId), .registered r)

def Session.expireStep (S : Session) (w : World) (number : Nat) (now : Utc) (id : String) :
    World × Answer :=
  match S.finalize id .deny (some .expired) now w.broker with
  | (b, .error e) => (w.with b number (.raised id e), .raised e)
  | (b, .ok r) => (w.with b number (.settled id), .record r)

def World.readStep (w : World) (number : Nat) (id : String) : World × Answer :=
  match w.broker.decided id with
  | .error e => (w.with w.broker number (.raised id e), .raised e)
  | .ok decision => (w.with w.broker number (.returned id decision), .decided decision)

def Session.cancelNextStep (S : Session) (w : World) (number : Nat) (now : Utc)
    (next : String × List String) : World × Answer :=
  match S.finalize next.1 .deny (some .cancelled) now w.broker with
  | (b, .error _) => (w.with b number (.cancelling next.2), .none)
  | (b, .ok r) => (w.with b number (.cancelling next.2), .record r)

def Session.cancelFoundStep (S : Session) (w : World) (number : Nat) (now : Utc) (id : String) :
    World × Answer :=
  match S.finalize id .deny (some .cancelled) now w.broker with
  | (b, .error _) => (w.with b number .finished, .flag false)
  | (b, .ok _) => (w.with b number .finished, .flag true)

def World.cancelProviderStep (w : World) (number : Nat) (providerRequestId : String) :
    World × Answer :=
  match (if isApprovalId providerRequestId = true then
      w.broker.providerRequest? providerRequestId else none) with
  | none => (w.with w.broker number .finished, .flag false)
  | some id => (w.with w.broker number (.withdrawing id), .none)

def Session.step (S : Session) (w : World) : Step → World × Answer
  | .request number a uuid now => S.requestStep w number a uuid now
  | .wake number =>
    (w.stageOf number Stage.waiting?).elim (w, .none)
      (fun id => (w.with w.broker number (.settled id), .none))
  | .timeout number =>
    (w.stageOf number Stage.waiting?).elim (w, .none)
      (fun id => (w.with w.broker number (.timedOut id), .none))
  | .expire number now =>
    (w.stageOf number Stage.timedOut?).elim (w, .none) (S.expireStep w number now)
  | .read number => (w.stageOf number Stage.settled?).elim (w, .none) (w.readStep number)
  | .resolve id decision now =>
    match S.resolve id decision now w.broker with
    | (b, .error e) => ({ w with broker := b }, .raised e)
    | (b, .ok r) => ({ w with broker := b }, .record r)
  | .cancelAll number =>
    (w.with w.broker number (.cancelling (w.broker.pending.map ApprovalRecord.approvalId)), .none)
  | .cancelNext number now =>
    (w.stageOf number Stage.cancelling?).elim (w, .none) (S.cancelNextStep w number now)
  | .cancelProviderRequest number providerRequestId => w.cancelProviderStep number providerRequestId
  | .cancelFound number now =>
    (w.stageOf number Stage.withdrawing?).elim (w, .none) (S.cancelFoundStep w number now)

def Stage.approvalId? : Stage → Option String
  | .waiting id | .timedOut id | .settled id | .returned id _ | .raised id _ => some id
  | .cancelling _ | .withdrawing _ | .finished => none

-- the ids of the approvals registered so far
def World.registered (w : World) : List String :=
  w.callers.filterMap (fun c => c.stage.approvalId?)

-- a wait ends with the event set, or without it at the timeout; uuid4 gives no id twice
def World.allows (w : World) : Step → Prop
  | .request number _ uuid _ => w.stage? number = none ∧ "approval-" ++ uuid.text ∉ w.registered
  | .wake number => ∃ id ∈ w.stageOf number Stage.waiting?, id ∈ w.broker.resolved
  | .timeout number => ∃ id ∈ w.stageOf number Stage.waiting?, id ∉ w.broker.resolved
  | .expire number _ => (w.stageOf number Stage.timedOut?).isSome = true
  | .read number => (w.stageOf number Stage.settled?).isSome = true
  | .resolve _ _ _ => True
  | .cancelAll number => w.stage? number = none
  | .cancelNext number _ => (w.stageOf number Stage.cancelling?).isSome = true
  | .cancelProviderRequest number _ => w.stage? number = none
  | .cancelFound number _ => (w.stageOf number Stage.withdrawing?).isSome = true

def approvalBroker (S : Session) : Machine World Step Answer where
  start w := w.broker = .empty ∧ w.callers = []
  admits w i := w.allows i
  exec := S.step

instance (S : Session) (w : World) : ∀ i, Decidable ((approvalBroker S).admits w i)
  | .request _ _ _ _ => inferInstanceAs (Decidable (_ ∧ _))
  | .wake number => inferInstanceAs (Decidable (∃ id ∈ w.stageOf number Stage.waiting?, _))
  | .timeout number => inferInstanceAs (Decidable (∃ id ∈ w.stageOf number Stage.waiting?, _))
  | .resolve _ _ _ => isTrue trivial
  | .cancelAll _ | .cancelProviderRequest _ _ => inferInstanceAs (Decidable (_ = none))
  | .expire _ _ | .read _ | .cancelNext _ _ | .cancelFound _ _ =>
    inferInstanceAs (Decidable (_ = true))

end PeerBridge.Approvals
