import PeerBridge.ControlRoom

namespace PeerBridge
open Checked Rows

inductive Tool where
  | sendMessage | sendRoomFanout | postRoomMessage
  deriving DecidableEq

def Tool.name : Tool → String
  | .sendMessage => "send_message"
  | .sendRoomFanout => "send_room_fanout"
  | .postRoomMessage => "post_room_message"

def given {α : Type} (name : String) (f : α → Json) (value : Option α) : List (String × Json) :=
  value.elim [] (fun v => [(name, f v)])

structure SendToolArgs where
  recipient : String
  taskId : String
  subject : String
  body : String
  idempotencyKey : String
  roomId : Option String := none
  priority : Option String := none
  replyTo : Option String := none
  artifactPaths : Option (List String) := none
  routeProfileId : Option String := none
  requestedProviderId : Option String := none
  requestedModelId : Option String := none
  requestedReasoningMode : Option String := none
  requestedRouteClass : Option String := none

-- the request's arguments object, absent keys left out
def SendToolArgs.json (a : SendToolArgs) : Json :=
  .obj ([("recipient", .str a.recipient), ("task_id", .str a.taskId), ("subject", .str a.subject),
    ("body", .str a.body), ("idempotency_key", .str a.idempotencyKey)] ++
    given "room_id" .str a.roomId ++ given "priority" .str a.priority ++
    given "reply_to" .str a.replyTo ++ given "artifact_paths" .strs a.artifactPaths ++
    given "route_profile_id" .str a.routeProfileId ++
    given "requested_provider_id" .str a.requestedProviderId ++
    given "requested_model_id" .str a.requestedModelId ++
    given "requested_reasoning_mode" .str a.requestedReasoningMode ++
    given "requested_route_class" .str a.requestedRouteClass)

def SendToolArgs.args (a : SendToolArgs) (artifactPaths : List String) : SendArgs :=
  { roomId := a.roomId.getD defaultRoomId, recipient := a.recipient, taskId := a.taskId,
    subject := a.subject, body := a.body, priority := a.priority.getD "normal",
    replyTo := a.replyTo.getD "", artifactPaths,
    route := { routeProfileId := a.routeProfileId.getD "",
               requestedProviderId := a.requestedProviderId.getD "",
               requestedModelId := a.requestedModelId.getD "",
               requestedReasoningMode := a.requestedReasoningMode.getD "",
               requestedRouteClass := a.requestedRouteClass.getD "" } }

structure PostToolArgs where
  roomId : String
  taskId : String
  subject : String
  body : String
  idempotencyKey : String
  priority : Option String := none
  artifactPaths : Option (List String) := none

def PostToolArgs.json (a : PostToolArgs) : Json :=
  .obj ([("room_id", .str a.roomId), ("task_id", .str a.taskId), ("subject", .str a.subject),
    ("body", .str a.body), ("idempotency_key", .str a.idempotencyKey)] ++
    given "priority" .str a.priority ++ given "artifact_paths" .strs a.artifactPaths)

def PostToolArgs.args (a : PostToolArgs) (artifactPaths : List String) : PostArgs :=
  { roomId := a.roomId, taskId := a.taskId, subject := a.subject, body := a.body,
    priority := a.priority.getD "normal", artifactPaths }

inductive ToolArguments where
  | sendMessage (a : SendToolArgs)
  | sendRoomFanout (a : PostToolArgs)
  | postRoomMessage (a : PostToolArgs)

def ToolArguments.tool : ToolArguments → Tool
  | .sendMessage _ => .sendMessage
  | .sendRoomFanout _ => .sendRoomFanout
  | .postRoomMessage _ => .postRoomMessage

def ToolArguments.json : ToolArguments → Json
  | .sendMessage a => a.json
  | .sendRoomFanout a | .postRoomMessage a => a.json

def ToolArguments.idempotencyKey : ToolArguments → String
  | .sendMessage a => a.idempotencyKey
  | .sendRoomFanout a | .postRoomMessage a => a.idempotencyKey

structure CallKey where
  scope : String
  actor : String
  tool : Tool
  idempotencyKey : String
  deriving DecidableEq

def mutationCallSha256 (P : Platform) (k : CallKey) : Sha256 :=
  P.stableSha256 (.obj [("scope", .str k.scope), ("actor", .str k.actor),
    ("tool", .str k.tool.name), ("idempotency_key", .str k.idempotencyKey)])

structure McpReceiptRow where
  callSha256 : Sha256
  scope : String
  actor : String
  sessionId : String
  tool : String
  argumentsSha256 : Sha256
  result : Json
  resultSha256 : Sha256

structure McpReceipt where
  callSha256 : Sha256
  argumentsSha256 : Sha256
  sessionId : String
  tool : String

structure McpStore where
  store : Store
  receipts : List McpReceiptRow

def loadReceipt (P : Platform) (scope actor tool : String) (callSha256 argumentsSha256 : Sha256)
    (rows : List McpReceiptRow) : Except BridgeError (Option Json) :=
  match rows.find? (fun r => r.callSha256 = callSha256 ∧ r.scope = scope) with
  | none => pure none
  | some r => do
    require (r.actor = actor ∧ r.tool = tool ∧ r.argumentsSha256 = argumentsSha256)
      (.bridge "MCP idempotency key was reused with different arguments")
    require (P.stableSha256 r.result = r.resultSha256)
      (.integrity "MCP mutation receipt integrity check failed")
    pure (some r.result)

-- outside the write transaction
def loadMutationReceipt (P : Platform) (b : Bridge) (callSha256 : Sha256) (a : ToolArguments)
    (rows : List McpReceiptRow) : Except BridgeError (Option Json) :=
  loadReceipt P b.scope b.agentId a.tool.name callSha256 (P.stableSha256 a.json) rows

-- inside it
def loadMcpMutationReceiptLocked (P : Platform) (c : Ctx) (metadata : Option McpReceipt)
    (rows : List McpReceiptRow) : Except BridgeError (Option Json) :=
  match metadata with
  | none => pure none
  | some m =>
    loadReceipt P c.self.scope c.self.agentId m.tool m.callSha256 m.argumentsSha256 rows

def storeMcpMutationReceiptLocked (P : Platform) (c : Ctx) (metadata : Option McpReceipt)
    (result : Json) (rows : List McpReceiptRow) : Except BridgeError (List McpReceiptRow) :=
  match metadata with
  | none => pure rows
  | some m => do
    require (∀ r ∈ rows, r.callSha256 ≠ m.callSha256)
      (.integrity "mcp_mutation_receipts.call_sha256")
    pure (rows ++ [{ callSha256 := m.callSha256, scope := c.self.scope, actor := c.self.agentId,
                     sessionId := m.sessionId, tool := m.tool,
                     argumentsSha256 := m.argumentsSha256, result,
                     resultSha256 := P.stableSha256 result }])

def mcpReceiptMetadata (c : Ctx) (raw : Option McpReceipt) (expectedTool : Tool) :
    Except BridgeError (Option McpReceipt) :=
  match raw with
  | none => pure none
  | some m => do
    require (m.tool = expectedTool.name ∧ m.sessionId = c.self.sessionId)
      (.bridge "MCP mutation receipt identity mismatch")
    pure (some m)

def RouteRequest.json (q : RouteRequest) : Json :=
  match q.content with
  | .obj fields => .obj (fields ++ [("route_request_sha256", .optSha q.routeRequestSha256)])
  | v => v

def sendResult (row : MessageRow) : Json :=
  let request := routeRequestFromRow row
  .obj [("message_id", .str row.messageId), ("room_id", .str row.roomId),
    ("sequence", .int row.sequence), ("content_sha256", .sha row.contentSha256),
    ("route_request", request.elim .null RouteRequest.json),
    ("route_status", .str (if request.isSome then "requested" else "not_requested")),
    ("created_utc", .utc row.createdUtc)]

def fanoutResult (P : Platform) (c : Ctx) (p : PostArgs) (rows : List MessageRow)
    (chain : Sha256) : List (String × Json) :=
  let fanout := [("fanout_id", Json.str c.uuid.text), ("scope", .str c.self.scope),
    ("room_id", .str (strip p.roomId)), ("task_id", .str (strip p.taskId)),
    ("sender", .str c.self.agentId), ("recipients", .arr (rows.map recipientReceipt)),
    ("created_utc", .utc (utcNow c.clock.locked))]
  let sha := P.stableSha256 (.obj fanout)
  fanout ++ [("fanout_count", .int rows.length), ("fanout_sha256", .sha sha),
    ("content_sha256", .sha sha), ("audit_chain_sha256", .sha chain)]

def historyResult (row : MessageRow) (mode : RoomMode) (chain : Sha256) : Json :=
  .obj [("message_id", .str row.messageId), ("room_id", .str row.roomId),
    ("sequence", .int row.sequence), ("content_sha256", .sha row.contentSha256),
    ("route_request", .null), ("route_status", .str "not_requested"),
    ("created_utc", .utc row.createdUtc), ("automation_mode", .str mode.text),
    ("fanout_count", .int 0), ("audit_chain_sha256", .sha chain)]

def discussionResult (c : Ctx) (p : PostArgs) (mode : RoomMode) (rows : List MessageRow)
    (discussionSha256 chain : Sha256) : Json :=
  .obj [("automation_mode", .str mode.text), ("discussion_id", .str c.uuid.text),
    ("room_id", .str (strip p.roomId)), ("task_id", .str (strip p.taskId)), ("round", .int 1),
    ("fanout_count", .int rows.length), ("recipients", .arr (rows.map recipientReceipt)),
    ("discussion_sha256", .sha discussionSha256), ("content_sha256", .sha discussionSha256),
    ("created_utc", .utc (utcNow c.clock.entry)), ("audit_chain_sha256", .sha chain)]

def postResult (P : Platform) (c : Ctx) (p : PostArgs) (mode : RoomMode) (rows : List MessageRow)
    (s : Store) : Json :=
  let chain := s.audit.head c.self.scope
  match mode, rows with
  | .off, row :: _ => historyResult row mode chain
  | .off, [] => .null
  | .once, _ => .obj (fanoutResult P c p rows chain ++ [("automation_mode", .str mode.text)])
  | .discussion, _ | .free, _ | .goal, _ =>
    discussionResult c p mode rows
      (((s.mail.discussion? c.self.scope c.uuid.text).map DiscussionRow.discussionSha256).getD
        zeroSha256) chain

-- the checks made before the transaction begins
def checkSend (P : Platform) (a : SendArgs) : Except BridgeError Unit := do
  let _ ← requireIdentifier a.roomId "room_id"
  let _ ← requireRecipient a.recipient
  let _ ← requireIdentifier a.taskId "task_id"
  let _ ← requireText P a.subject "subject" 500
  let _ ← requireText P a.body "body" maxTextChars
  let _ ← requirePriority a.priority

def checkPost (P : Platform) (a : PostArgs) : Except BridgeError Unit := do
  let _ ← requirePost P a

-- _clean_artifacts against the files of the session's project root
abbrev Artifacts := List String → Except BridgeError (List String)

def mutate (P : Platform) (c : Ctx) (metadata : Option McpReceipt)
    (operation : Store → Except BridgeError (Store × Json)) (t : McpStore) :
    Except BridgeError (McpStore × Json) := do
  let replay ← loadMcpMutationReceiptLocked P c metadata t.receipts
  match replay with
  | some result => pure (t, result)
  | none => do
    let (store, result) ← operation t.store
    let receipts ← storeMcpMutationReceiptLocked P c metadata result t.receipts
    pure ({ store, receipts }, result)

-- what each tool checks before its transaction, and what it does inside it
def ToolArguments.prepare (P : Platform) (files : Artifacts) :
    ToolArguments → Except BridgeError (List String)
  | .sendMessage a => do
    checkSend P (a.args [])
    files (a.artifactPaths.getD [])
  | .sendRoomFanout a | .postRoomMessage a => do
    checkPost P (a.args [])
    files (a.artifactPaths.getD [])

def sendMessageOperation (P : Platform) (c : Ctx) (a : SendArgs) (s : Store) :
    Except BridgeError (Store × Json) := do
  let (s, row) ← sendMessage P c a s
  pure (s, sendResult row)

def sendRoomFanoutOperation (P : Platform) (c : Ctx) (a : PostArgs) (s : Store) :
    Except BridgeError (Store × Json) := do
  let (s, rows) ← sendRoomFanout P c a s
  pure (s, .obj (fanoutResult P c a rows (s.audit.head c.self.scope)))

def postRoomMessageOperation (P : Platform) (c : Ctx) (a : PostArgs) (s : Store) :
    Except BridgeError (Store × Json) := do
  let (s', rows) ← postRoomMessage P c a s
  let policy ← roomPolicy c.self (strip a.roomId) s.rooms
  pure (s', postResult P c a policy.mode rows s')

def ToolArguments.operation (P : Platform) (c : Ctx) (artifacts : List String) :
    ToolArguments → Store → Except BridgeError (Store × Json)
  | .sendMessage a => sendMessageOperation P c (a.args artifacts)
  | .sendRoomFanout a => sendRoomFanoutOperation P c (a.args artifacts)
  | .postRoomMessage a => postRoomMessageOperation P c (a.args artifacts)

def ToolArguments.call (artifacts : List String) : ToolArguments → Call
  | .sendMessage a => .sendMessage (a.args artifacts)
  | .sendRoomFanout a => .sendRoomFanout (a.args artifacts)
  | .postRoomMessage a => .postRoomMessage (a.args artifacts)

-- inside its transaction a tool does what the mailbox call does
theorem operation_performs {P : Platform} {c : Ctx} {artifacts : List String} {a : ToolArguments}
    {s s' : Store} {v : Json} (h : a.operation P c artifacts s = .ok (s', v)) :
    perform P c s (a.call artifacts) = .ok (s', .done) := by
  cases a with
  | sendMessage a =>
    simp only [ToolArguments.operation, sendMessageOperation, bind_eq_ok, pure_eq_ok,
      Prod.mk.injEq] at h
    obtain ⟨⟨s₁, row⟩, hx, rfl, -⟩ := h
    simp [perform, ToolArguments.call, replyWith, hx]
  | sendRoomFanout a =>
    simp only [ToolArguments.operation, sendRoomFanoutOperation, bind_eq_ok, pure_eq_ok,
      Prod.mk.injEq] at h
    obtain ⟨⟨s₁, rows⟩, hx, rfl, -⟩ := h
    simp [perform, ToolArguments.call, replyWith, hx]
  | postRoomMessage a =>
    simp only [ToolArguments.operation, postRoomMessageOperation, bind_eq_ok, pure_eq_ok,
      Prod.mk.injEq] at h
    obtain ⟨⟨s₁, rows⟩, hx, policy, -, rfl, -⟩ := h
    simp [perform, ToolArguments.call, replyWith, hx]

def dispatchTool (P : Platform) (c : Ctx) (files : Artifacts) (raw : Option McpReceipt)
    (a : ToolArguments) (t : McpStore) : Except BridgeError (McpStore × Json) := do
  let metadata ← mcpReceiptMetadata c raw a.tool
  let artifacts ← a.prepare P files
  mutate P c metadata (a.operation P c artifacts) t

inductive Answer where
  | content (result : Json)
  | toolError (text : String)
  | databaseError
  -- an exception that leaves handle_request
  | raised (e : BridgeError)

def BridgeError.answer : BridgeError → Answer
  | .bridge text => .toolError text
  | .integrity _ => .databaseError

-- how far handle_request has come with a call
inductive Stage where
  | received
  | looked (replayed : Option Json)
  | called (replayed : Option Json)
  | returned (result : Json)
  | failed (e : BridgeError)
  | answered (a : Answer)

structure ToolCall where
  bridge : Bridge
  arguments : ToolArguments
  stage : Stage

def ToolCall.key (x : ToolCall) : CallKey :=
  { scope := x.bridge.scope, actor := x.bridge.agentId, tool := x.arguments.tool,
    idempotencyKey := x.arguments.idempotencyKey }

def ToolCall.argumentsSha256 (P : Platform) (x : ToolCall) : Sha256 :=
  P.stableSha256 x.arguments.json

def ToolCall.receipt (P : Platform) (x : ToolCall) : McpReceipt :=
  { callSha256 := mutationCallSha256 P x.key, argumentsSha256 := x.argumentsSha256 P,
    sessionId := x.bridge.sessionId, tool := x.arguments.tool.name }

def ToolCall.event (P : Platform) (c : Ctx) (x : ToolCall) (eventType label : String)
    (sha : Sha256) (t : McpStore) : Except BridgeError McpStore := do
  let (store, _) ← t.store.event P { c with self := x.bridge } eventType
    [("tool", .str x.arguments.tool.name), (label, .sha sha)] none
  pure { t with store }

def BridgeError.text : BridgeError → String
  | .bridge text | .integrity text => text

-- one transaction of handle_request for one call
def ToolCall.proceed (P : Platform) (c : Ctx) (files : Artifacts) (x : ToolCall) (t : McpStore) :
    McpStore × Stage :=
  match x.stage with
  | .received =>
    match loadMutationReceipt P x.bridge (mutationCallSha256 P x.key) x.arguments t.receipts with
    | .ok replayed => (t, .looked replayed)
    | .error e => (t, .answered e.answer)
  | .looked replayed =>
    match x.event P c "tool.called" "arguments_sha256" (x.argumentsSha256 P) t with
    | .ok t => (t, .called replayed)
    | .error e => (t, .answered (.raised e))
  | .called (some result) => (t, .returned result)
  | .called none =>
    match dispatchTool P { c with self := x.bridge } files (some (x.receipt P)) x.arguments t with
    | .ok (t, result) => (t, .returned result)
    | .error e => (t, .failed e)
  | .returned result =>
    match x.event P c "tool.returned" "result_sha256" (P.stableSha256 result) t with
    | .ok t => (t, .answered (.content result))
    | .error (.bridge text) => (t, .failed (.bridge text))
    -- _audit_tool_result_fail_safe swallows sqlite3.Error only
    | .error (.integrity _) => (t, .answered (.content result))
  | .failed e =>
    match x.event P c "tool.failed" "error_sha256" (P.stableSha256 (.str e.text)) t with
    | .ok t => (t, .answered e.answer)
    | .error raised => (t, .answered (.raised raised))
  | .answered a => (t, .answered a)

structure Gateway where
  office : Office
  receipts : List McpReceiptRow
  calls : List ToolCall

def Gateway.tables (g : Gateway) : McpStore :=
  { store := g.office.world.store, receipts := g.receipts }

inductive GatewayCall where
  | office (call : OfficeCall)
  | submit (a : ToolArguments)
  | proceed (n : Nat) (files : Artifacts)

inductive GatewayReply where
  | office (r : OfficeReply)
  | accepted
  | stage (s : Stage)

def Gateway.commit (g : Gateway) (c : Ctx) (n : Nat) (x : ToolCall) (r : McpStore × Stage) :
    Gateway :=
  { office := { g.office with world := { g.office.world with
                  store := r.1.store, now := c.clock.later } },
    receipts := r.1.receipts, calls := g.calls.set n { x with stage := r.2 } }

def serve (P : Platform) (J : JsonReader) (g : Gateway) (i : GatewayCall × Ctx) :
    Gateway × GatewayReply :=
  match i.1 with
  | .office call =>
    let (office, r) := attemptOffice P J g.office (call, i.2)
    ({ g with office }, .office r)
  | .submit arguments =>
    ({ g with calls := g.calls ++ [{ bridge := i.2.self, arguments, stage := .received }] },
      .accepted)
  | .proceed n files =>
    match g.calls[n]? with
    | none => (g, .accepted)
    | some x =>
      let r := x.proceed P i.2 files g.tables
      (g.commit i.2 n x r, .stage r.2)

def Gateway.admits (P : Platform) (g : Gateway) (i : GatewayCall × Ctx) : Prop :=
  match i.1 with
  | .office call => g.office.admits P (call, i.2)
  | .submit _ => True
  | .proceed _ _ => g.office.world.now ≤ i.2.clock.locked ∧ i.2.clock.ordered

instance (P : Platform) (g : Gateway) (i : GatewayCall × Ctx) : Decidable (g.admits P i) := by
  unfold Gateway.admits
  split <;> infer_instance

-- any number of sessions, each call of a session interleaved with everything else
def gateway (P : Platform) (J : JsonReader) : Machine Gateway (GatewayCall × Ctx) GatewayReply where
  start g := ∃ connections now, g = { office := .initial connections now, receipts := [],
                                      calls := [] }
  admits g i := g.admits P i
  exec := serve P J

instance (P : Platform) (J : JsonReader) (g : Gateway) (i : GatewayCall × Ctx) :
    Decidable ((gateway P J).admits g i) := inferInstanceAs (Decidable (g.admits P i))

end PeerBridge
