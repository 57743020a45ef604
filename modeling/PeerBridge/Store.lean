import PeerBridge.Text
import PeerBridge.Lib.Rows

namespace PeerBridge

inductive RouteClass where
  | official | relay | localHost
  deriving DecidableEq, Repr

def RouteClass.text : RouteClass → String
  | .official => "official"
  | .relay => "relay"
  | .localHost => "local"

def RouteClass.parse? (t : String) : Option RouteClass :=
  [RouteClass.official, .relay, .localHost].find? (fun c => c.text = t)

inductive SecretBackend where
  | windowsCredentialManager | ccSwitch | nativeAcp
  deriving DecidableEq, Repr

def SecretBackend.text : SecretBackend → String
  | .windowsCredentialManager => "windows-credential-manager"
  | .ccSwitch => "cc-switch"
  | .nativeAcp => "native-acp"

inductive DiscussionRole where
  | prompt | response
  deriving DecidableEq, Repr

def DiscussionRole.text : DiscussionRole → String
  | .prompt => "prompt"
  | .response => "response"

inductive Visibility where
  | direct | room
  deriving DecidableEq, Repr

def Visibility.text : Visibility → String
  | .direct => "direct"
  | .room => "room"

inductive DispatchStatus where
  | claimed | retryable | failed | completed
  deriving DecidableEq, Repr

def DispatchStatus.text : DispatchStatus → String
  | .claimed => "claimed"
  | .retryable => "retryable"
  | .failed => "failed"
  | .completed => "completed"

def DispatchStatus.terminal : DispatchStatus → Bool
  | .failed | .completed => true
  | .claimed | .retryable => false

inductive DiscussionStatus where
  | active | paused | waitingHuman | completed | stopped
  deriving DecidableEq, Repr

def DiscussionStatus.text : DiscussionStatus → String
  | .active => "active"
  | .paused => "paused"
  | .waitingHuman => "waiting_human"
  | .completed => "completed"
  | .stopped => "stopped"

def DiscussionStatus.isOpen : DiscussionStatus → Bool
  | .active | .paused | .waitingHuman => true
  | .completed | .stopped => false

inductive StopReason where
  | humanPaused | humanStopped | supersededByNewPost | policyChanged | participantUnavailable
  | agentDispatchFailed | malformedSignal | consensus | allAgentsBlocked | roundLimit
  | eventLimit | messageLimit | stagnation | contextLimit | rootContextMissing
  | singleAgentComplete | workflowTimeout | workflowCancelled | workflowWorkerLost
  | workflowSourceBindingFailed
  deriving DecidableEq, Repr

def StopReason.text : StopReason → String
  | .humanPaused => "human_paused"
  | .humanStopped => "human_stopped"
  | .supersededByNewPost => "superseded_by_new_post"
  | .policyChanged => "policy_changed"
  | .participantUnavailable => "participant_unavailable"
  | .agentDispatchFailed => "agent_dispatch_failed"
  | .malformedSignal => "malformed_signal"
  | .consensus => "consensus"
  | .allAgentsBlocked => "all_agents_blocked"
  | .roundLimit => "round_limit"
  | .eventLimit => "event_limit"
  | .messageLimit => "message_limit"
  | .stagnation => "stagnation"
  | .contextLimit => "context_limit"
  | .rootContextMissing => "root_context_missing"
  | .singleAgentComplete => "single_agent_complete"
  | .workflowTimeout => "workflow_timeout"
  | .workflowCancelled => "workflow_cancelled"
  | .workflowWorkerLost => "workflow_worker_lost"
  | .workflowSourceBindingFailed => "workflow_source_binding_failed"

inductive RoomMode where
  | off | once | discussion | free | goal
  deriving DecidableEq, Repr

def RoomMode.text : RoomMode → String
  | .off => "off"
  | .once => "once"
  | .discussion => "discussion"
  | .free => "free"
  | .goal => "goal"

def RoomMode.parse? (t : String) : Option RoomMode :=
  [RoomMode.off, .once, .discussion, .free, .goal].find? (fun m => m.text = t)

def RoomMode.isFree : RoomMode → Bool
  | .free | .goal => true
  | .off | .once | .discussion => false

def RoomMode.automates : RoomMode → Bool
  | .discussion | .free | .goal => true
  | .off | .once => false

inductive MembershipStatus where
  | active | left
  deriving DecidableEq, Repr

def MembershipStatus.text : MembershipStatus → String
  | .active => "active"
  | .left => "left"

-- namesDiscussion is no column: it records which keys the writer hashed
structure MessageRow where
  sequence : Nat
  messageId : String
  scope : String
  roomId : String
  taskId : String
  sender : String
  recipient : String
  subject : String
  body : String
  priority : String
  replyTo : Option String
  artifactPaths : List String
  routeProfileId : Option String
  routeProfileSha256 : Option Sha256
  requestedProviderId : Option String
  requestedModelId : Option String
  requestedReasoningMode : Option String
  requestedRouteClass : Option RouteClass
  routeRequestSha256 : Option Sha256
  discussionId : Option String
  discussionRound : Option Nat
  discussionRole : Option DiscussionRole
  namesDiscussion : Bool
  visibility : Visibility
  createdUtc : Utc
  contentSha256 : Sha256

structure ReceiptRow where
  scope : String
  messageId : String
  agentId : String
  acknowledgedUtc : Utc

structure DispatchRow where
  scope : String
  messageId : String
  agentId : String
  status : DispatchStatus
  claimedSessionId : Option String
  leaseTokenSha256 : Option Sha256
  leaseExpiresEpoch : Option ℚ
  attemptCount : Nat
  claimedUtc : Option Utc
  updatedUtc : Utc
  completedUtc : Option Utc
  replyMessageId : Option String
  inferenceReceiptSha256 : Option Sha256
  errorCode : Option String
  dispatchSha256 : Sha256

structure RetryScheduleRow where
  scope : String
  messageId : String
  agentId : String
  attemptCount : Nat
  notBeforeEpoch : ℚ
  errorCode : String
  createdUtc : Utc
  scheduleSha256 : Sha256

structure DiscussionRow where
  scope : String
  discussionId : String
  roomId : String
  taskId : String
  subject : String
  starterAgentId : String
  status : DiscussionStatus
  currentRound : Nat
  processedRound : Nat
  maxRounds : Nat
  maxMessages : Nat
  stagnationRounds : Nat
  messageCount : Nat
  stagnationCount : Nat
  lastRoundDigest : Option Sha256
  stopReason : Option StopReason
  createdUtc : Utc
  updatedUtc : Utc
  discussionSha256 : Sha256

structure Mail where
  messages : List MessageRow
  lastSequence : Nat
  receipts : List ReceiptRow
  dispatches : List DispatchRow
  retrySchedules : List RetryScheduleRow
  discussions : List DiscussionRow

structure RoomRow where
  scope : String
  roomId : String
  name : String
  createdBy : String
  archived : Bool
  createdUtc : Utc
  updatedUtc : Utc
  roomSha256 : Sha256

structure MembershipRow where
  scope : String
  roomId : String
  agentId : String
  routeProfileId : Option String
  roomSessionId : String
  status : MembershipStatus
  joinedUtc : Utc
  updatedUtc : Utc
  leftUtc : Option Utc
  membershipSha256 : Sha256

structure RoleRow where
  scope : String
  roomId : String
  agentId : String
  roomSessionId : String
  roleId : String
  roleLabel : Option String
  updatedBy : String
  createdUtc : Utc
  updatedUtc : Utc
  roleSha256 : Sha256

structure PolicyRow where
  scope : String
  roomId : String
  mode : RoomMode
  maxRounds : Nat
  maxMessages : Nat
  stagnationRounds : Nat
  updatedBy : String
  createdUtc : Utc
  updatedUtc : Utc
  policySha256 : Sha256

structure RouteProfileRow where
  scope : String
  routeId : String
  agentId : String
  clientName : Option String
  providerId : Option String
  modelId : Option String
  responseModelId : Option String
  inferenceTimeoutSeconds : Option Nat
  reasoningMode : Option String
  routeClass : RouteClass
  enabled : Bool
  createdUtc : Utc
  updatedUtc : Utc
  profileSha256 : Sha256

structure ConnectionRow where
  scope : String
  connectionId : String
  routeClass : RouteClass
  providerId : Option String
  secretBackend : SecretBackend
  endpointSha256 : Sha256
  credentialVersionSha256 : Option Sha256
  enabled : Bool
  connectionSha256 : Sha256

structure Rooms where
  rooms : List RoomRow
  memberships : List MembershipRow
  roles : List RoleRow
  policies : List PolicyRow
  routeProfiles : List RouteProfileRow
  connections : List ConnectionRow

structure RouteReceiptRow where
  scope : String
  messageId : String
  agentId : String
  sessionId : String
  observedProviderId : Option String
  observedModelId : Option String
  observedReasoningMode : Option String
  observedRouteClass : Option RouteClass
  acknowledgedUtc : Utc
  receiptSha256 : Sha256

structure TrustedReceiptRow where
  scope : String
  messageId : String
  agentId : String
  sessionId : String
  attemptCount : Nat
  leaseTokenSha256 : Sha256
  sourceContentSha256 : Sha256
  sourceRouteRequestSha256 : Option Sha256
  receiptSchema : String
  inferenceReceiptSha256 : Sha256
  assistantMessageSha256 : Sha256
  assistantContentSha256 : Sha256
  replyBodySha256 : Sha256
  inferenceUsageSha256 : Sha256
  routeProfileId : Option String
  routeProfileSha256 : Option Sha256
  connectionId : Option String
  connectionSha256 : Option Sha256
  providerId : Option String
  modelId : Option String
  responseModelId : Option String
  reasoningMode : Option String
  routeClass : Option RouteClass
  roomId : String
  recordedUtc : Utc
  bindingSha256 : Sha256

structure InferenceUsageRow where
  scope : String
  messageId : String
  agentId : String
  replyMessageId : String
  routeProfileId : Option String
  providerId : Option String
  modelId : Option String
  reasoningMode : Option String
  routeClass : Option RouteClass
  usage : Usage
  recordedUtc : Utc
  inferenceReceiptSha256 : Sha256
  usageSha256 : Sha256

-- messages.acknowledged_utc, the one column of a message row that is ever updated
structure AcknowledgedRow where
  messageId : String
  acknowledgedUtc : Utc

structure CursorRow where
  scope : String
  channel : String
  consumer : String
  position : Nat
  updatedUtc : Utc

structure Ledger where
  routeReceipts : List RouteReceiptRow
  trustedReceipts : List TrustedReceiptRow
  inferenceUsage : List InferenceUsageRow
  acknowledged : List AcknowledgedRow
  cursors : List CursorRow

structure EventRow where
  sequence : Nat
  eventId : String
  scope : String
  actor : String
  eventType : String
  taskId : Option String
  payload : Json
  createdUtc : Utc
  payloadSha256 : Sha256
  prevChainSha256 : Sha256
  chainSha256 : Sha256

structure StorageUsageRow where
  scope : String
  messageRows : Nat
  messageBytes : Nat
  eventRows : Nat
  eventBytes : Nat
  updatedUtc : Utc

structure Audit where
  events : List EventRow
  lastEvent : Nat
  storageUsage : List StorageUsageRow

structure Store where
  mail : Mail
  rooms : Rooms
  ledger : Ledger
  audit : Audit

theorem none_safe : (none : Option String).all isIdentifier = true := rfl

structure Bridge where
  agentId : String
  scope : String
  sessionId : String
  clientName : Option String
  providerId : Option String
  modelId : Option String
  reasoningMode : Option String
  routeClass : Option RouteClass
  discussionCoordinator : Bool
  agentId_safe : isIdentifier agentId = true := by decide
  scope_safe : isIdentifier scope = true := by decide
  sessionId_safe : isIdentifier sessionId = true := by decide
  clientName_safe : clientName.all isIdentifier = true := by first | exact none_safe | decide
  providerId_safe : providerId.all isIdentifier = true := by first | exact none_safe | decide
  modelId_safe : modelId.all isIdentifier = true := by first | exact none_safe | decide
  reasoningMode_safe : reasoningMode.all isIdentifier = true := by first | exact none_safe | decide

structure Uuid where
  text : String
  hex : isUuidHex text = true

structure Clock where
  entry : ℚ
  locked : ℚ
  later : ℚ

structure Ctx where
  self : Bridge
  clock : Clock
  uuid : Uuid
  messageUuid : Nat → Uuid
  eventUuid : Nat → Uuid
  token : String

def DispatchRow.key (d : DispatchRow) : String × String × String :=
  (d.scope, d.messageId, d.agentId)

def ReceiptRow.key (r : ReceiptRow) : String × String × String :=
  (r.scope, r.messageId, r.agentId)

def RetryScheduleRow.key (r : RetryScheduleRow) : String × String × String × Nat :=
  (r.scope, r.messageId, r.agentId, r.attemptCount)

def MessageRow.key (m : MessageRow) : String × String := (m.scope, m.messageId)

def DiscussionRow.key (d : DiscussionRow) : String × String := (d.scope, d.discussionId)

def RoomRow.key (r : RoomRow) : String × String := (r.scope, r.roomId)

def MembershipRow.key (m : MembershipRow) : String × String × String :=
  (m.scope, m.roomId, m.agentId)

def RoleRow.key (r : RoleRow) : String × String × String := (r.scope, r.roomId, r.agentId)

def PolicyRow.key (p : PolicyRow) : String × String := (p.scope, p.roomId)

def RouteProfileRow.key (p : RouteProfileRow) : String × String := (p.scope, p.routeId)

def CursorRow.key (c : CursorRow) : String × String × String := (c.scope, c.channel, c.consumer)

namespace Mail
open Rows

def message? (m : Mail) (scope messageId : String) : Option MessageRow :=
  lookup MessageRow.key (scope, messageId) m.messages

def dispatch? (m : Mail) (scope messageId agentId : String) : Option DispatchRow :=
  lookup DispatchRow.key (scope, messageId, agentId) m.dispatches

def receipt? (m : Mail) (scope messageId agentId : String) : Option ReceiptRow :=
  lookup ReceiptRow.key (scope, messageId, agentId) m.receipts

def retrySchedule? (m : Mail) (scope messageId agentId : String) (attempt : Nat) :
    Option RetryScheduleRow :=
  lookup RetryScheduleRow.key (scope, messageId, agentId, attempt) m.retrySchedules

def discussion? (m : Mail) (scope discussionId : String) : Option DiscussionRow :=
  lookup DiscussionRow.key (scope, discussionId) m.discussions

def putDispatch (m : Mail) (d : DispatchRow) : Mail :=
  { m with dispatches := upsert DispatchRow.key d m.dispatches }

def putDiscussion (m : Mail) (d : DiscussionRow) : Mail :=
  { m with discussions := upsert DiscussionRow.key d m.discussions }

def addSchedule (m : Mail) (r : RetryScheduleRow) : Mail :=
  { m with retrySchedules := m.retrySchedules ++ [r] }

def ignoreReceipt (m : Mail) (r : ReceiptRow) : Mail :=
  if (m.receipt? r.scope r.messageId r.agentId).isSome then m
  else { m with receipts := m.receipts ++ [r] }

def addMessages (m : Mail) (rows : List MessageRow) : Mail :=
  { m with messages := m.messages ++ rows, lastSequence := m.lastSequence + rows.length }

end Mail

namespace Rooms
open Rows

def room? (r : Rooms) (scope roomId : String) : Option RoomRow :=
  lookup RoomRow.key (scope, roomId) r.rooms

def membership? (r : Rooms) (scope roomId agentId : String) : Option MembershipRow :=
  lookup MembershipRow.key (scope, roomId, agentId) r.memberships

def policy? (r : Rooms) (scope roomId : String) : Option PolicyRow :=
  lookup PolicyRow.key (scope, roomId) r.policies

def profile? (r : Rooms) (scope routeId : String) : Option RouteProfileRow :=
  lookup RouteProfileRow.key (scope, routeId) r.routeProfiles

end Rooms

namespace Mail
section Frame
variable (m : Mail)

@[simp] theorem putDispatch_messages (d : DispatchRow) :
    (m.putDispatch d).messages = m.messages := rfl
@[simp] theorem putDispatch_lastSequence (d : DispatchRow) :
    (m.putDispatch d).lastSequence = m.lastSequence := rfl
@[simp] theorem putDispatch_receipts (d : DispatchRow) :
    (m.putDispatch d).receipts = m.receipts := rfl
@[simp] theorem putDispatch_retrySchedules (d : DispatchRow) :
    (m.putDispatch d).retrySchedules = m.retrySchedules := rfl
@[simp] theorem putDispatch_discussions (d : DispatchRow) :
    (m.putDispatch d).discussions = m.discussions := rfl
@[simp] theorem putDiscussion_messages (d : DiscussionRow) :
    (m.putDiscussion d).messages = m.messages := rfl
@[simp] theorem putDiscussion_lastSequence (d : DiscussionRow) :
    (m.putDiscussion d).lastSequence = m.lastSequence := rfl
@[simp] theorem putDiscussion_receipts (d : DiscussionRow) :
    (m.putDiscussion d).receipts = m.receipts := rfl
@[simp] theorem putDiscussion_dispatches (d : DiscussionRow) :
    (m.putDiscussion d).dispatches = m.dispatches := rfl
@[simp] theorem putDiscussion_retrySchedules (d : DiscussionRow) :
    (m.putDiscussion d).retrySchedules = m.retrySchedules := rfl
@[simp] theorem addSchedule_messages (r : RetryScheduleRow) :
    (m.addSchedule r).messages = m.messages := rfl
@[simp] theorem addSchedule_lastSequence (r : RetryScheduleRow) :
    (m.addSchedule r).lastSequence = m.lastSequence := rfl
@[simp] theorem addSchedule_receipts (r : RetryScheduleRow) :
    (m.addSchedule r).receipts = m.receipts := rfl
@[simp] theorem addSchedule_dispatches (r : RetryScheduleRow) :
    (m.addSchedule r).dispatches = m.dispatches := rfl
@[simp] theorem addSchedule_discussions (r : RetryScheduleRow) :
    (m.addSchedule r).discussions = m.discussions := rfl
@[simp] theorem addMessages_receipts (rows : List MessageRow) :
    (m.addMessages rows).receipts = m.receipts := rfl
@[simp] theorem addMessages_dispatches (rows : List MessageRow) :
    (m.addMessages rows).dispatches = m.dispatches := rfl
@[simp] theorem addMessages_retrySchedules (rows : List MessageRow) :
    (m.addMessages rows).retrySchedules = m.retrySchedules := rfl
@[simp] theorem addMessages_discussions (rows : List MessageRow) :
    (m.addMessages rows).discussions = m.discussions := rfl
@[simp] theorem addMessages_nil : m.addMessages [] = m := by simp [addMessages]

theorem addMessages_append (xs ys : List MessageRow) :
    (m.addMessages xs).addMessages ys = m.addMessages (xs ++ ys) := by
  simp [addMessages, Nat.add_assoc]

theorem ignoreReceipt_eq (r : ReceiptRow) :
    ∃ rs, m.ignoreReceipt r = { m with receipts := rs } := by
  unfold ignoreReceipt
  split
  · exact ⟨m.receipts, rfl⟩
  · exact ⟨_, rfl⟩

@[simp] theorem ignoreReceipt_messages (r : ReceiptRow) : (m.ignoreReceipt r).messages = m.messages := by
  obtain ⟨rs, h⟩ := m.ignoreReceipt_eq r
  rw [h]
@[simp] theorem ignoreReceipt_lastSequence (r : ReceiptRow) : (m.ignoreReceipt r).lastSequence = m.lastSequence := by
  obtain ⟨rs, h⟩ := m.ignoreReceipt_eq r
  rw [h]
@[simp] theorem ignoreReceipt_dispatches (r : ReceiptRow) : (m.ignoreReceipt r).dispatches = m.dispatches := by
  obtain ⟨rs, h⟩ := m.ignoreReceipt_eq r
  rw [h]
@[simp] theorem ignoreReceipt_retrySchedules (r : ReceiptRow) : (m.ignoreReceipt r).retrySchedules = m.retrySchedules := by
  obtain ⟨rs, h⟩ := m.ignoreReceipt_eq r
  rw [h]
@[simp] theorem ignoreReceipt_discussions (r : ReceiptRow) : (m.ignoreReceipt r).discussions = m.discussions := by
  obtain ⟨rs, h⟩ := m.ignoreReceipt_eq r
  rw [h]

theorem dispatch?_putDispatch (d : DispatchRow) (scope messageId agentId : String) :
    (m.putDispatch d).dispatch? scope messageId agentId =
      if d.key = (scope, messageId, agentId) then some d else m.dispatch? scope messageId agentId :=
  Rows.lookup_upsert _ _ _ _

theorem discussion?_putDiscussion (d : DiscussionRow) (scope discussionId : String) :
    (m.putDiscussion d).discussion? scope discussionId =
      if d.key = (scope, discussionId) then some d else m.discussion? scope discussionId :=
  Rows.lookup_upsert _ _ _ _

theorem receipt?_ignoreReceipt (r : ReceiptRow) (scope messageId agentId : String) :
    ((m.ignoreReceipt r).receipt? scope messageId agentId).isSome =
      (decide (r.key = (scope, messageId, agentId)) ||
        (m.receipt? scope messageId agentId).isSome) := by
  unfold ignoreReceipt
  split
  · rename_i h
    by_cases hk : r.key = (scope, messageId, agentId)
    · simp only [ReceiptRow.key, Prod.mk.injEq] at hk
      obtain ⟨rfl, rfl, rfl⟩ := hk
      simp [h]
    · simp [hk]
  · by_cases hk : r.key = (scope, messageId, agentId) <;>
      simp [receipt?, Rows.lookup, hk]

end Frame
end Mail

def Store.withMail (s : Store) (m : Mail) : Store := { s with mail := m }

def Store.withRooms (s : Store) (r : Rooms) : Store := { s with rooms := r }

def Store.withLedger (s : Store) (l : Ledger) : Store := { s with ledger := l }

def Store.withAudit (s : Store) (a : Audit) : Store := { s with audit := a }

@[simp] theorem Store.withMail_mail (s : Store) (m : Mail) : (s.withMail m).mail = m := rfl
@[simp] theorem Store.withMail_rooms (s : Store) (m : Mail) : (s.withMail m).rooms = s.rooms := rfl
@[simp] theorem Store.withRooms_mail (s : Store) (r : Rooms) : (s.withRooms r).mail = s.mail := rfl
@[simp] theorem Store.withRooms_rooms (s : Store) (r : Rooms) : (s.withRooms r).rooms = r := rfl
@[simp] theorem Store.withLedger_mail (s : Store) (l : Ledger) :
    (s.withLedger l).mail = s.mail := rfl
@[simp] theorem Store.withLedger_rooms (s : Store) (l : Ledger) :
    (s.withLedger l).rooms = s.rooms := rfl
@[simp] theorem Store.withAudit_mail (s : Store) (a : Audit) : (s.withAudit a).mail = s.mail := rfl
@[simp] theorem Store.withAudit_rooms (s : Store) (a : Audit) :
    (s.withAudit a).rooms = s.rooms := rfl

end PeerBridge
