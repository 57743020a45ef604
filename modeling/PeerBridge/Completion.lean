import PeerBridge.Dispatch
import PeerBridge.Lib.Frontier

namespace PeerBridge
open Checked Rows

structure TrustedArgs where
  messageId : String
  leaseToken : String
  body : String
  receipt : Json
  assistantMessage : Json
  connectionId : String := ""
  connectionSha256 : String := ""
  executionRouteProfileId : String := ""
  executionRouteProfileSha256 : String := ""

structure TrustedRequest where
  messageId : String
  body : String
  connection : Option (String × Sha256)
  execution : Option (String × Sha256)

def optionalSha256 (value label : String) : Except BridgeError (Option Sha256) :=
  if strip value = "" then pure none else some <$> requireSha256 (strip value) label

def pairTogether (a : Option String) (b : Option Sha256) (text : String) :
    Except BridgeError (Option (String × Sha256)) :=
  match a, b with
  | some x, some y => pure (some (x, y))
  | none, none => pure none
  | _, _ => throw (.bridge text)

def requireTrusted (P : Platform) (a : TrustedArgs) : Except BridgeError TrustedRequest := do
  let messageId ← requireIdentifier a.messageId "message_id"
  let body ← requireText P a.body "body" maxTextChars
  let connectionId ← optionalIdentifier a.connectionId "connection_id"
  let connectionSha ← optionalSha256 a.connectionSha256 "connection_sha256"
  let connection ← pairTogether connectionId connectionSha
    "connection_id and connection_sha256 must be supplied together"
  let profileId ← optionalIdentifier a.executionRouteProfileId "execution_route_profile_id"
  let profileSha ← optionalSha256 a.executionRouteProfileSha256 "execution_route_profile_sha256"
  let execution ← pairTogether profileId profileSha
    "execution route profile id and sha256 must be supplied together"
  pure { messageId, body, connection, execution }

def ConnectionRow.boundProviderId (row : ConnectionRow) : Option String :=
  if truthy row.providerId = false ∧ row.secretBackend = .ccSwitch then some row.connectionId
  else row.providerId

def receiptSchema (backend : SecretBackend) (executionClientName : Option String) : String :=
  match backend with
  | .windowsCredentialManager =>
    if executionClientName = some "claude-native" then
      "peerbridge.claude-native-wcm-inference-receipt.v1"
    else "peerbridge.openai-compatible-run.v1"
  | .nativeAcp => "peerbridge.acpx-inference-receipt.v1"
  | .ccSwitch => "peerbridge.ccswitch-inference-receipt.v1"

def Rooms.executionProfile? (r : Rooms) (b : Bridge) (routeId : String) : Option RouteProfileRow :=
  (r.enabledProfile? b.scope routeId).filter (fun p => p.agentId = b.agentId)

def RouteProfileRow.exactFor (p : RouteProfileRow) (b : Bridge) (sha : Option Sha256) : Bool :=
  sha = some p.profileSha256 && p.providerId = b.providerId && p.modelId = b.modelId &&
  p.reasoningMode = b.reasoningMode && some p.routeClass = b.routeClass

structure Execution where
  profile : Option (String × Option Sha256)
  clientName : Option String
  responseModelId : Option String

def executionProfile (b : Bridge) (source : MessageRow) (requested : Option (String × Sha256))
    (r : Rooms) : Except BridgeError Execution := do
  let inherited := if truthy source.routeProfileId then
      source.routeProfileId.map (fun routeId => (routeId, source.routeProfileSha256)) else none
  let profile := (requested.map (fun q => (q.1, some q.2))).or inherited
  require (inherited = none ∨ profile = inherited)
    (.bridge "execution route profile does not match the source request")
  match profile with
  | none => pure { profile := none, clientName := b.clientName, responseModelId := b.modelId }
  | some (routeId, sha) => do
    let inexact := BridgeError.bridge "execution route profile is no longer exact"
    let row ← demand (r.executionProfile? b routeId) inexact
    require (row.exactFor b sha = true) inexact
    pure { profile := some (routeId, sha), clientName := row.clientName,
           responseModelId := orElse row.responseModelId row.modelId }

def connectionRow (b : Bridge) (requested : Option (String × Sha256)) (execution : Execution)
    (r : Rooms) : Except BridgeError (Option ConnectionRow) :=
  match requested with
  | none => pure none
  | some (connectionId, sha) => do
    require (execution.profile.isSome = true)
      (.bridge "routed inference receipt is missing its execution profile")
    let unbound := BridgeError.bridge "provider connection binding does not match"
    let row ← demand (r.connections.find? (fun x =>
      x.scope = b.scope ∧ x.connectionId = connectionId ∧ x.enabled)) unbound
    require (row.connectionSha256 = sha ∧ row.boundProviderId = b.providerId ∧
      some row.routeClass = b.routeClass) unbound
    pure (some row)

def expectedRoute (b : Bridge) (source : MessageRow) (execution : Execution)
    (connection : Option (String × Sha256)) (row : Option ConnectionRow) (schema : String) :
    Json :=
  .obj ([("route_profile_id", .opt (execution.profile.map Prod.fst)),
    ("route_profile_sha256", .optSha (execution.profile.bind Prod.snd)),
    ("route_class", .opt (b.routeClass.map RouteClass.text)), ("provider_id", .opt b.providerId),
    ("model_id", .opt b.modelId), ("response_model_id", .opt execution.responseModelId),
    ("reasoning_mode", .opt b.reasoningMode),
    ("connection_id", .opt (connection.map Prod.fst)),
    ("connection_sha256", .optSha (connection.map Prod.snd)), ("room_id", .str source.roomId),
    ("session_id", .str b.sessionId)] ++
    (if schema = "peerbridge.claude-native-wcm-inference-receipt.v1" then
      [("endpoint_sha256", .optSha (row.map ConnectionRow.endpointSha256)),
        ("credential_version_sha256", .optSha (row.bind ConnectionRow.credentialVersionSha256))]
    else []))

def trustedInferenceReceiptPayload (t : TrustedReceiptRow) : Json :=
  .obj [("scope", .str t.scope), ("message_id", .str t.messageId), ("agent_id", .str t.agentId),
    ("session_id", .str t.sessionId), ("attempt_count", .int t.attemptCount),
    ("lease_token_sha256", .sha t.leaseTokenSha256),
    ("source_content_sha256", .sha t.sourceContentSha256),
    ("source_route_request_sha256", .optSha t.sourceRouteRequestSha256),
    ("receipt_schema", .str t.receiptSchema),
    ("inference_receipt_sha256", .sha t.inferenceReceiptSha256),
    ("assistant_message_sha256", .sha t.assistantMessageSha256),
    ("assistant_content_sha256", .sha t.assistantContentSha256),
    ("reply_body_sha256", .sha t.replyBodySha256),
    ("inference_usage_sha256", .sha t.inferenceUsageSha256),
    ("route_profile_id", .opt t.routeProfileId),
    ("route_profile_sha256", .optSha t.routeProfileSha256),
    ("connection_id", .opt t.connectionId), ("connection_sha256", .optSha t.connectionSha256),
    ("provider_id", .opt t.providerId), ("model_id", .opt t.modelId),
    ("response_model_id", .opt t.responseModelId), ("reasoning_mode", .opt t.reasoningMode),
    ("route_class", .opt (t.routeClass.map RouteClass.text)), ("room_id", .str t.roomId),
    ("recorded_utc", .utc t.recordedUtc)]

def bindingSha (P : Platform) (t : TrustedReceiptRow) : Sha256 :=
  P.stableSha256 (trustedInferenceReceiptPayload t)

def requireSource (b : Bridge) (messageId : String) (m : Mail) : Except BridgeError MessageRow := do
  let absent := BridgeError.bridge "source message is not addressed to this agent"
  let source ← demand (m.message? b.scope messageId) absent
  require (addressedTo source b.agentId = true) absent
  pure source

def Ledger.trusted? (l : Ledger) (scope messageId agentId : String) (attempt : Nat) :
    Option TrustedReceiptRow :=
  l.trustedReceipts.find? (fun t => t.scope = scope ∧ t.messageId = messageId ∧
    t.agentId = agentId ∧ t.attemptCount = attempt)

def recordTrustedInferenceReceipt (P : Platform) (c : Ctx) (a : TrustedArgs) (s : Store) :
    Except BridgeError (Store × TrustedReceiptRow) := do
  let q ← requireTrusted P a
  let usage ← liftText (P.usageFromReceipt a.receipt)
  let dispatch ← requireDispatchLease P c q.messageId a.leaseToken false s.mail
  let source ← requireSource c.self q.messageId s.mail
  requireRoomMember c.self source.roomId c.self.agentId s.rooms
  requireRoute (evaluateRoute P c.self c.self.agentId s.rooms source)
  let execution ← executionProfile c.self source q.execution s.rooms
  let connection ← connectionRow c.self q.connection execution s.rooms
  let schema := (connection.map (fun x => receiptSchema x.secretBackend execution.clientName)).getD
    "peerbridge.openai-compatible-run.v1"
  let validated ← liftText (P.validateInferenceReceipt a.receipt q.messageId a.assistantMessage
    q.body (expectedRoute c.self source execution q.connection connection schema))
  require (validated.receiptSchema = schema)
    (.bridge "provider receipt schema does not match the bound secret backend")
  let row : TrustedReceiptRow :=
    { scope := c.self.scope, messageId := q.messageId, agentId := c.self.agentId,
      sessionId := c.self.sessionId, attemptCount := dispatch.attemptCount,
      leaseTokenSha256 := P.sha256Bytes a.leaseToken,
      sourceContentSha256 := source.contentSha256,
      sourceRouteRequestSha256 := source.routeRequestSha256,
      receiptSchema := validated.receiptSchema,
      inferenceReceiptSha256 := validated.inferenceReceiptSha256,
      assistantMessageSha256 := validated.assistantMessageSha256,
      assistantContentSha256 := validated.assistantContentSha256,
      replyBodySha256 := validated.replyBodySha256,
      inferenceUsageSha256 := P.stableSha256 usage.json,
      routeProfileId := execution.profile.map Prod.fst,
      routeProfileSha256 := execution.profile.bind Prod.snd,
      connectionId := q.connection.map Prod.fst, connectionSha256 := q.connection.map Prod.snd,
      providerId := c.self.providerId, modelId := c.self.modelId,
      responseModelId := execution.responseModelId, reasoningMode := c.self.reasoningMode,
      routeClass := c.self.routeClass, roomId := source.roomId,
      recordedUtc := utcNow c.clock.entry, bindingSha256 := zeroSha256 }
  let row := { row with bindingSha256 := bindingSha P row }
  match s.ledger.trusted? c.self.scope q.messageId c.self.agentId dispatch.attemptCount with
  | some existing => do
    require (existing.sessionId = row.sessionId ∧
        existing.leaseTokenSha256 = row.leaseTokenSha256 ∧
        existing.inferenceReceiptSha256 = row.inferenceReceiptSha256 ∧
        existing.replyBodySha256 = row.replyBodySha256 ∧
        existing.inferenceUsageSha256 = row.inferenceUsageSha256 ∧
        existing.bindingSha256 = bindingSha P existing)
      (.bridge "dispatch attempt already has a different trusted receipt")
    pure (s, existing)
  | none => do
    require (∀ t ∈ s.ledger.trustedReceipts, ¬ (t.scope = row.scope ∧
        t.messageId = row.messageId ∧ t.agentId = row.agentId ∧
        t.inferenceReceiptSha256 = row.inferenceReceiptSha256))
      (.integrity "idx_trusted_inference_receipt_sha")
    let ledger := { s.ledger with trustedReceipts := s.ledger.trustedReceipts ++ [row] }
    let (s, _) ← (s.withLedger ledger).event P c "message.inference_receipt_trusted"
      [("message_id", .str q.messageId), ("agent_id", .str c.self.agentId),
        ("attempt_count", .int dispatch.attemptCount),
        ("inference_receipt_sha256", .sha row.inferenceReceiptSha256),
        ("binding_sha256", .sha row.bindingSha256)] (some source.taskId)
    pure (s, row)

def routeReceipt (P : Platform) (c : Ctx) (source : MessageRow) (acknowledged : Utc) :
    RouteReceiptRow :=
  { scope := c.self.scope, messageId := source.messageId, agentId := c.self.agentId,
    sessionId := c.self.sessionId, observedProviderId := c.self.providerId,
    observedModelId := c.self.modelId, observedReasoningMode := c.self.reasoningMode,
    observedRouteClass := c.self.routeClass, acknowledgedUtc := acknowledged,
    receiptSha256 := P.stableSha256 (.obj [("scope", .str c.self.scope),
      ("message_id", .str source.messageId), ("agent_id", .str c.self.agentId),
      ("session_id", .str c.self.sessionId), ("observed_provider_id", .opt c.self.providerId),
      ("observed_model_id", .opt c.self.modelId),
      ("observed_reasoning_mode", .opt c.self.reasoningMode),
      ("observed_route_class", .opt (c.self.routeClass.map RouteClass.text)),
      ("route_status", .str "verified"), ("acknowledged_utc", .utc acknowledged),
      ("route_request_sha256", .optSha source.routeRequestSha256)]) }

def Ledger.routeReceipt? (l : Ledger) (scope messageId agentId : String) :
    Option RouteReceiptRow :=
  l.routeReceipts.find? (fun r => r.scope = scope ∧ r.messageId = messageId ∧ r.agentId = agentId)

def Ledger.ignoreRouteReceipt (l : Ledger) (r : RouteReceiptRow) : Ledger :=
  if (l.routeReceipt? r.scope r.messageId r.agentId).isSome then l
  else { l with routeReceipts := l.routeReceipts ++ [r] }

def Ledger.acknowledge (l : Ledger) (row : MessageRow) (now : Utc) : Ledger :=
  if row.recipient = "*" || l.acknowledged.any (fun x => x.messageId = row.messageId) then l
  else { l with acknowledged :=
    l.acknowledged ++ [{ messageId := row.messageId, acknowledgedUtc := now }] }

def consumerCursor (scope channel consumer : String) (l : Ledger) : Nat :=
  ((lookup CursorRow.key (scope, channel, consumer) l.cursors).map CursorRow.position).getD 0

def Mail.eligible (m : Mail) (scope roomId consumer : String) (current : Nat) : List MessageRow :=
  m.messages.filter (fun x => x.scope = scope ∧ x.roomId = roomId ∧ current < x.sequence ∧
    addressedTo x consumer)

def Mail.acknowledged (m : Mail) (consumer : String) (x : MessageRow) : Bool :=
  (m.receipt? x.scope x.messageId consumer).isSome

def advancedCursor (scope roomId consumer : String) (current : Nat) (m : Mail) : Nat :=
  Frontier.scan MessageRow.sequence (m.acknowledged consumer) current
    (m.eligible scope roomId consumer current)

def acknowledgedCursor (scope roomId consumer : String) (current : Nat) (m : Mail) : Nat :=
  Frontier.window MessageRow.sequence (m.acknowledged consumer) current
    (m.eligible scope roomId consumer current)

def Store.putCursor (c : Ctx) (roomId : String) (position : Nat) (now : Utc) (s : Store) : Store :=
  let row : CursorRow := { scope := c.self.scope, channel := "messages:" ++ roomId,
                           consumer := c.self.agentId, position, updatedUtc := now }
  s.withLedger { s.ledger with cursors := upsert CursorRow.key row s.ledger.cursors }

def Store.cursor (c : Ctx) (roomId : String) (s : Store) : Nat :=
  consumerCursor c.self.scope ("messages:" ++ roomId) c.self.agentId s.ledger

def Store.ackCursor (c : Ctx) (roomId : String) (now : Utc) (s : Store) : Store × Nat :=
  let advanced := acknowledgedCursor c.self.scope roomId c.self.agentId (s.cursor c roomId) s.mail
  (s.putCursor c roomId advanced now, advanced)

def Store.advanceCursor (c : Ctx) (roomId : String) (now : Utc) (s : Store) : Store × Nat :=
  let advanced := advancedCursor c.self.scope roomId c.self.agentId (s.cursor c roomId) s.mail
  (s.putCursor c roomId advanced now, advanced)

def Store.acknowledge (P : Platform) (c : Ctx) (source : MessageRow) (route : RouteEvaluation)
    (now : Utc) (s : Store) : Store :=
  let ledger := if route.status = .verified then
    s.ledger.ignoreRouteReceipt (routeReceipt P c source now) else s.ledger
  (s.withMail (s.mail.ignoreReceipt
    { scope := c.self.scope, messageId := source.messageId, agentId := c.self.agentId,
      acknowledgedUtc := now })).withLedger (ledger.acknowledge source now)

structure AckArgs where
  messageId : String
  agentId : Option String := none

def RouteStatus.text : RouteStatus → String
  | .notRequested => "not_requested"
  | .verified => "verified"
  | .mismatch => "mismatch"

def boundConsumer (b : Bridge) (requested : Option String) : Except BridgeError String :=
  match requested with
  | none => pure b.agentId
  | some value => do
    let consumer ← requireIdentifier value "agent_id"
    require (consumer = b.agentId) (.bridge "agent_id must match the current runtime identity")
    pure consumer

def ackMessage (P : Platform) (c : Ctx) (a : AckArgs) (s : Store) :
    Except BridgeError (Store × Nat) := do
  let messageId ← requireIdentifier a.messageId "message_id"
  let consumer ← boundConsumer c.self a.agentId
  let absent := BridgeError.bridge "message is not addressed to this consumer"
  let row ← demand (s.mail.message? c.self.scope messageId) absent
  require (addressedTo row consumer = true) absent
  let roomId ← requireIdentifier row.roomId "room_id"
  requireRoomMember c.self roomId consumer s.rooms
  let now := utcNow c.clock.locked
  let route := evaluateRoute P c.self consumer s.rooms row
  requireRoute route
  let (s, advanced) := (s.acknowledge P c row route now).ackCursor c roomId now
  let receiptSha := if route.status = .verified then
    (s.ledger.routeReceipt? c.self.scope messageId consumer).map RouteReceiptRow.receiptSha256
    else none
  let (s, _) ← s.event P c "message.acknowledged"
    [("message_id", .str messageId), ("room_id", .str roomId), ("consumer", .str consumer),
      ("cursor", .int advanced), ("route_status", .str route.status.text),
      ("route_receipt_sha256", .optSha receiptSha)] none
  pure (s, advanced)

structure CompleteArgs where
  messageId : String
  leaseToken : String
  body : String
  inferenceReceiptSha256 : String
  inferenceUsage : Option Json := none
  subject : String := ""

structure CompleteRequest where
  messageId : String
  body : String
  inferenceReceiptSha256 : Sha256
  usage : Usage

def requireComplete (P : Platform) (a : CompleteArgs) : Except BridgeError CompleteRequest := do
  let messageId ← requireIdentifier a.messageId "message_id"
  let body ← requireText P a.body "body" maxTextChars
  let inferenceReceiptSha256 ← requireSha256 a.inferenceReceiptSha256 "inference_receipt_sha256"
  let usage ← liftText (P.validateUsage (a.inferenceUsage.getD P.unavailableUsage))
  pure { messageId, body, inferenceReceiptSha256, usage }

def trustedProfileMatches (b : Bridge) (t : TrustedReceiptRow) (r : Rooms) : Bool :=
  t.routeProfileId.all (fun routeId =>
    (r.executionProfile? b routeId).any (fun p => p.exactFor b t.routeProfileSha256))

def sourceProfileMatches (source : MessageRow) (t : TrustedReceiptRow) : Bool :=
  source.routeProfileId.isNone || (t.routeProfileId = source.routeProfileId &&
    t.routeProfileSha256 = source.routeProfileSha256)

def requireTrustedBinding (P : Platform) (c : Ctx) (q : CompleteRequest) (leaseToken : String)
    (dispatch : DispatchRow) (source : MessageRow) (s : Store) : Except BridgeError Unit := do
  let t ← demand (s.ledger.trustedReceipts.find? (fun t => t.scope = c.self.scope ∧
      t.messageId = q.messageId ∧ t.agentId = c.self.agentId ∧ t.sessionId = c.self.sessionId ∧
      t.attemptCount = dispatch.attemptCount ∧
      t.leaseTokenSha256 = P.sha256Bytes leaseToken ∧
      t.inferenceReceiptSha256 = q.inferenceReceiptSha256))
    (.bridge "trusted inference receipt binding is required before completion")
  require (t.bindingSha256 = bindingSha P t ∧ t.sourceContentSha256 = source.contentSha256 ∧
      t.sourceRouteRequestSha256 = source.routeRequestSha256 ∧
      t.replyBodySha256 = P.sha256Bytes q.body ∧
      t.inferenceUsageSha256 = P.stableSha256 q.usage.json ∧
      sourceProfileMatches source t = true ∧ trustedProfileMatches c.self t s.rooms = true ∧
      t.providerId = c.self.providerId ∧ t.modelId = c.self.modelId ∧
      t.reasoningMode = c.self.reasoningMode ∧ t.routeClass = c.self.routeClass ∧
      t.roomId = source.roomId)
    (.bridge "trusted inference receipt binding does not match")

def requireDiscussionOpen (scope : String) (source : MessageRow) (m : Mail) :
    Except BridgeError Unit :=
  require (source.discussionId.all (fun d => m.discussionIn scope d [.active, .paused]) = true)
    (.bridge "discussion is no longer active; reply completion is fenced")

def replyDraft (c : Ctx) (source : MessageRow) (subject body : String) : Draft :=
  { roomId := source.roomId, taskId := source.taskId, sender := c.self.agentId,
    recipient := source.sender, subject, body, priority := "normal",
    replyTo := some source.messageId,
    discussion := source.discussionId.map
      (fun d => (d, source.discussionRound.getD 0, .response)),
    namesDiscussion := true, visibility := source.visibility, createdUtc := utcNow c.clock.locked }

def completedDispatch (P : Platform) (now : Utc) (replyId : String) (receiptSha : Sha256)
    (row : DispatchRow) : DispatchRow :=
  sealDispatch P
    { row with status := .completed, leaseExpiresEpoch := none, updatedUtc := now,
               completedUtc := some now, replyMessageId := some replyId,
               inferenceReceiptSha256 := some receiptSha, errorCode := none }

def usageRow (P : Platform) (c : Ctx) (q : CompleteRequest) (source : MessageRow)
    (replyId : String) (now : Utc) : InferenceUsageRow :=
  { scope := c.self.scope, messageId := q.messageId, agentId := c.self.agentId,
    replyMessageId := replyId, routeProfileId := source.routeProfileId,
    providerId := c.self.providerId, modelId := c.self.modelId,
    reasoningMode := c.self.reasoningMode, routeClass := c.self.routeClass, usage := q.usage,
    recordedUtc := now, inferenceReceiptSha256 := q.inferenceReceiptSha256,
    usageSha256 := P.stableSha256 (.obj ([("scope", Json.str c.self.scope),
      ("message_id", .str q.messageId), ("agent_id", .str c.self.agentId),
      ("reply_message_id", .str replyId), ("route_profile_id", .opt source.routeProfileId),
      ("provider_id", .opt c.self.providerId), ("model_id", .opt c.self.modelId),
      ("reasoning_mode", .opt c.self.reasoningMode),
      ("route_class", .opt (c.self.routeClass.map RouteClass.text)),
      ("usage_status", .str q.usage.status), ("usage_source", .str q.usage.source),
      ("recorded_utc", .utc now),
      ("inference_receipt_sha256", .sha q.inferenceReceiptSha256)] ++ q.usage.fields)) }

structure Completion where
  replay : Bool
  replyMessageId : Option String
  dispatch : DispatchRow

def completeMessageDispatch (P : Platform) (c : Ctx) (a : CompleteArgs) (s : Store) :
    Except BridgeError (Store × Completion) := do
  let q ← requireComplete P a
  let row ← requireDispatchLease P c q.messageId a.leaseToken true s.mail
  if row.status = .completed then
    pure (s, { replay := true, replyMessageId := row.replyMessageId, dispatch := row })
  else do
    let source ← requireSource c.self q.messageId s.mail
    requireDiscussionOpen c.self.scope source s.mail
    requireRoomMember c.self source.roomId c.self.agentId s.rooms
    let route := evaluateRoute P c.self c.self.agentId s.rooms source
    requireRoute route
    requireTrustedBinding P c q a.leaseToken row source s
    let subject ← requireText P (if a.subject = "" then "Re: " ++ source.subject else a.subject)
      "subject" 500
    let created := utcNow c.clock.locked
    let (s, reply) ← insertReserved P c (replyDraft c source subject q.body) s
    let (s, _) := (s.acknowledge P c source route created).advanceCursor c source.roomId created
    let completed := completedDispatch P created reply.messageId q.inferenceReceiptSha256 row
    let s := s.withMail (s.mail.putDispatch completed)
    require (∀ u ∈ s.ledger.inferenceUsage, ¬ (u.scope = c.self.scope ∧
        u.messageId = q.messageId ∧ u.agentId = c.self.agentId))
      (.integrity "inference_usage")
    let used := usageRow P c q source reply.messageId created
    let s := s.withLedger { s.ledger with inferenceUsage := s.ledger.inferenceUsage ++ [used] }
    let (s, _) ← s.event P c "message.sent"
      [("message_id", .str reply.messageId), ("room_id", .str source.roomId),
        ("sequence", .int reply.sequence), ("content_sha256", .sha reply.contentSha256),
        ("route_request_sha256", .null)] (some source.taskId)
    let (s, _) ← s.event P c "message.dispatch_completed"
      [("message_id", .str q.messageId), ("reply_message_id", .str reply.messageId),
        ("dispatch_sha256", .sha completed.dispatchSha256),
        ("inference_receipt_sha256", .sha q.inferenceReceiptSha256),
        ("route_receipt_sha256", .optSha (if route.status = .verified then
          some (routeReceipt P c source created).receiptSha256 else none)),
        ("inference_usage_sha256", .sha used.usageSha256),
        ("inference_usage_status", .str q.usage.status)] (some source.taskId)
    pure (s, { replay := false, replyMessageId := some reply.messageId, dispatch := completed })

@[simp] theorem completedDispatch_key (P : Platform) (now : Utc) (reply : String) (sha : Sha256)
    (d : DispatchRow) : (completedDispatch P now reply sha d).key = d.key := rfl

section Specs
variable {P : Platform} {c : Ctx} {s s' : Store}

@[simp] theorem Store.advanceCursor_mail {roomId : String} {now : Utc} :
    (s.advanceCursor c roomId now).1.mail = s.mail := rfl

@[simp] theorem Store.advanceCursor_rooms {roomId : String} {now : Utc} :
    (s.advanceCursor c roomId now).1.rooms = s.rooms := rfl

@[simp] theorem Store.acknowledge_mail {source : MessageRow} {route : RouteEvaluation} {now : Utc} :
    (s.acknowledge P c source route now).mail = s.mail.ignoreReceipt
      { scope := c.self.scope, messageId := source.messageId, agentId := c.self.agentId,
        acknowledgedUtc := now } := rfl

@[simp] theorem Store.acknowledge_rooms {source : MessageRow} {route : RouteEvaluation}
    {now : Utc} : (s.acknowledge P c source route now).rooms = s.rooms := rfl

theorem boundConsumer_ok {b : Bridge} {requested : Option String} {consumer : String}
    (h : boundConsumer b requested = .ok consumer) : consumer = b.agentId := by
  cases requested with
  | none => exact (pure_eq_ok.mp h).symm
  | some value =>
    simp only [boundConsumer, bind_eq_ok, require_eq_ok, pure_eq_ok] at h
    obtain ⟨t, -, -, ht, rfl⟩ := h
    exact ht

theorem recordTrustedInferenceReceipt_ok {a : TrustedArgs} {row : TrustedReceiptRow}
    (h : recordTrustedInferenceReceipt P c a s = .ok (s', row)) :
    s'.mail = s.mail ∧ s'.rooms = s.rooms := by
  simp only [recordTrustedInferenceReceipt, bind_eq_ok] at h
  obtain ⟨q, -, usage, -, dispatch, -, source, -, -, -, -, -, execution, -, connection, -,
    validated, -, -, -, h⟩ := h
  split at h
  · simp only [bind_eq_ok, pure_eq_ok, Prod.mk.injEq] at h
    obtain ⟨-, -, rfl, -⟩ := h
    exact ⟨rfl, rfl⟩
  · simp only [bind_eq_ok, pure_eq_ok, Prod.mk.injEq] at h
    obtain ⟨-, -, ⟨s₁, chain⟩, he, rfl, -⟩ := h
    obtain ⟨hm, hr, -⟩ := Store.event_frame he
    exact ⟨hm, hr⟩

theorem ackMessage_ok {a : AckArgs} {cursor : Nat} (h : ackMessage P c a s = .ok (s', cursor)) :
    ∃ messageId row, s.mail.message? c.self.scope messageId = some row ∧
      addressedTo row c.self.agentId = true ∧ s'.rooms = s.rooms ∧
      s'.mail = s.mail.ignoreReceipt
        { scope := c.self.scope, messageId := row.messageId, agentId := c.self.agentId,
          acknowledgedUtc := utcNow c.clock.locked } := by
  simp only [ackMessage, bind_eq_ok, require_eq_ok, demand_eq_ok, pure_eq_ok, Prod.mk.injEq] at h
  obtain ⟨messageId, -, consumer, hcon, row, hrow, -, hto, roomId, -, -, -, -, -, ⟨s₁, chain⟩, he,
    rfl, -⟩ := h
  obtain ⟨hm, hr, -⟩ := Store.event_frame he
  rw [boundConsumer_ok hcon] at hto
  exact ⟨messageId, row, hrow, hto, hr, hm⟩

structure Completes (P : Platform) (c : Ctx) (leaseToken : String) (m : Mail) (row : DispatchRow)
    (source reply : MessageRow) (subject body : String) : Prop where
  holder : Holder P c source.messageId leaseToken m row
  claimed : row.status = .claimed
  live : ∀ e ∈ row.leaseExpiresEpoch, c.clock.locked < e
  source_eq : m.message? c.self.scope source.messageId = some source
  addressed : addressedTo source c.self.agentId = true
  fenced : source.discussionId.all
    (fun d => m.discussionIn c.self.scope d [.active, .paused]) = true
  inserted : Inserted P c [replyDraft c source subject body] [reply] m (m.addMessages [reply])

theorem completeMessageDispatch_ok {a : CompleteArgs} {x : Completion}
    (h : completeMessageDispatch P c a s = .ok (s', x)) :
    (x.replay = true ∧ s' = s ∧ Holder P c (strip a.messageId) a.leaseToken s.mail x.dispatch ∧
      x.dispatch.status = .completed ∧ x.replyMessageId = x.dispatch.replyMessageId) ∨
    ∃ row source reply subject body sha, source.messageId = strip a.messageId ∧
      Completes P c a.leaseToken s.mail row source reply subject body ∧
      x = { replay := false, replyMessageId := some reply.messageId,
            dispatch := completedDispatch P (utcNow c.clock.locked) reply.messageId sha row } ∧
      s'.rooms = s.rooms ∧
      s'.mail = ((s.mail.addMessages [reply]).ignoreReceipt
        { scope := c.self.scope, messageId := source.messageId, agentId := c.self.agentId,
          acknowledgedUtc := utcNow c.clock.locked }).putDispatch x.dispatch := by
  simp only [completeMessageDispatch, bind_eq_ok] at h
  obtain ⟨q, hq, row, hrow, h⟩ := h
  have hqid : q.messageId = strip a.messageId := by
    simp only [requireComplete, bind_eq_ok, pure_eq_ok] at hq
    obtain ⟨id, hid, body, -, sha, -, usage, -, rfl⟩ := hq
    exact (requireIdentifier_ok hid).1
  obtain ⟨hh, hst, hlive⟩ := requireDispatchLease_replay hrow
  split at h
  · rename_i hdone
    simp only [pure_eq_ok, Prod.mk.injEq] at h
    obtain ⟨rfl, rfl⟩ := h
    exact .inl ⟨rfl, rfl, hqid ▸ hh, hdone, rfl⟩
  · rename_i hopen
    have hc : row.status = .claimed := hst.resolve_right hopen
    simp only [bind_eq_ok, require_eq_ok, pure_eq_ok, Prod.mk.injEq, requireSource,
      demand_eq_ok, requireDiscussionOpen] at h
    obtain ⟨_, ⟨source, hsource, -, hto, rfl⟩, -, hfence, -, -, -, -, -, -, subject, -, ⟨s₁, reply⟩,
      hi, -, -, ⟨s₂, chain₂⟩, he₂, ⟨s₃, chain₃⟩, he₃, rfl, rfl⟩ := h
    obtain ⟨hi, hr₁, -⟩ := insertReserved_ok hi
    obtain ⟨hm₂, hr₂, -⟩ := Store.event_frame he₂
    obtain ⟨hm₃, hr₃, -⟩ := Store.event_frame he₃
    have hid : source.messageId = q.messageId := by
      have hk := Rows.lookup_key hsource
      exact (Prod.mk.inj hk).2
    have hm₁ := hi.mail_eq
    rw [hm₁] at hi
    refine .inr ⟨row, source, reply, subject, q.body, q.inferenceReceiptSha256, hid.trans hqid,
      ⟨hid ▸ hh, hc, hlive hc, hid ▸ hsource, hto, hfence, hi⟩, rfl, hr₃.trans (hr₂.trans hr₁), ?_⟩
    rw [← hm₁]
    exact hm₃.trans hm₂

end Specs

end PeerBridge
