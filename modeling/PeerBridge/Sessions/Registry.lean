import PeerBridge.Rooms

namespace PeerBridge.AuthorizedSessions
open Checked Rows

def maxAuthorizedSessions : Nat := 64
def maxAuthorizedEvents : Nat := 1000
def maxEventTextChars : Nat := 20000
def maxEventSummaryChars : Nat := 1000

inductive SessionError where
  | session (text : String)
  | bridge (e : BridgeError)

inductive SourceType where
  | desktop | terminal
  deriving DecidableEq, Repr

def SourceType.text : SourceType → String
  | .desktop => "authorized-desktop"
  | .terminal => "authorized-terminal"

inductive SessionState where
  | detected | running | waiting | completed | stopped | failed
  deriving DecidableEq, Repr

def SessionState.text : SessionState → String
  | .detected => "detected"
  | .running => "running"
  | .waiting => "waiting"
  | .completed => "completed"
  | .stopped => "stopped"
  | .failed => "failed"

def SessionState.terminal : SessionState → Bool
  | .completed | .stopped | .failed => true
  | .detected | .running | .waiting => false

inductive Stream where
  | system | stdout | stderr
  deriving DecidableEq, Repr

def Stream.text : Stream → String
  | .system => "system"
  | .stdout => "stdout"
  | .stderr => "stderr"

inductive Kind where
  | system | terminal | activity | answer | error
  deriving DecidableEq, Repr

def Kind.text : Kind → String
  | .system => "system"
  | .terminal => "terminal"
  | .activity => "activity"
  | .answer => "answer"
  | .error => "error"

def parseText {α : Type} (text : α → String) (values : List α) (t : String) : Option α :=
  values.find? (fun v => text v = t)

def SourceType.parse? : String → Option SourceType :=
  parseText SourceType.text [.desktop, .terminal]

def SessionState.parse? : String → Option SessionState :=
  parseText SessionState.text [.detected, .running, .waiting, .completed, .stopped, .failed]

def Stream.parse? : String → Option Stream := parseText Stream.text [.system, .stdout, .stderr]

def Kind.parse? : String → Option Kind :=
  parseText Kind.text [.system, .terminal, .activity, .answer, .error]

abbrev Key := String × SourceType × String

structure SessionRow where
  scope : String
  sourceType : SourceType
  sourceSessionId : String
  sourceConversationId : String
  adapterId : String
  ownerAgentId : String
  ownerBridgeSessionId : String
  roomId : Option String
  roomSessionId : Option String
  displayName : String
  clientName : String
  clientVersion : Option String
  requestedRoute : Option String
  observedRoute : Option String
  observedRouteSource : Option String
  modelId : Option String
  modelSource : Option String
  roleId : String
  roleLabel : Option String
  state : SessionState
  supportsEvents : Bool
  createdUtc : Utc
  startedUtc : Utc
  endedUtc : Option Utc
  lastSeenUtc : Utc
  lastSeenEpoch : ℚ
  latestSequence : Nat
  sessionSha256 : Sha256

structure SessionEvent where
  scope : String
  sourceType : SourceType
  sourceSessionId : String
  sequence : Nat
  adapterEventId : String
  createdUtc : Utc
  stream : Stream
  kind : Kind
  text : String
  summary : Option String
  stateAfter : SessionState
  secretRedacted : Bool
  eventSha256 : Sha256

def SessionRow.key (r : SessionRow) : Key := (r.scope, r.sourceType, r.sourceSessionId)

def SessionEvent.key (e : SessionEvent) : Key := (e.scope, e.sourceType, e.sourceSessionId)

def sessionPayload (r : SessionRow) : Json :=
  .obj [("scope", .str r.scope), ("source_type", .str r.sourceType.text),
    ("source_session_id", .str r.sourceSessionId),
    ("source_conversation_id", .str r.sourceConversationId), ("adapter_id", .str r.adapterId),
    ("owner_agent_id", .str r.ownerAgentId),
    ("owner_bridge_session_id", .str r.ownerBridgeSessionId), ("room_id", .opt r.roomId),
    ("room_session_id", .opt r.roomSessionId), ("display_name", .str r.displayName),
    ("client_name", .str r.clientName), ("client_version", .opt r.clientVersion),
    ("requested_route", .opt r.requestedRoute), ("observed_route", .opt r.observedRoute),
    ("observed_route_source", .opt r.observedRouteSource), ("model_id", .opt r.modelId),
    ("model_source", .opt r.modelSource), ("role_id", .str r.roleId),
    ("role_label", .opt r.roleLabel), ("state", .str r.state.text),
    ("supports_events", .int r.supportsEvents.toNat), ("created_utc", .utc r.createdUtc),
    ("started_utc", .utc r.startedUtc), ("ended_utc", r.endedUtc.elim .null .utc),
    ("last_seen_utc", .utc r.lastSeenUtc), ("last_seen_epoch", .real r.lastSeenEpoch),
    ("latest_sequence", .int r.latestSequence)]

def eventPayload (e : SessionEvent) : Json :=
  .obj [("scope", .str e.scope), ("source_type", .str e.sourceType.text),
    ("source_session_id", .str e.sourceSessionId), ("sequence", .int e.sequence),
    ("adapter_event_id", .str e.adapterEventId), ("created_utc", .utc e.createdUtc),
    ("stream", .str e.stream.text), ("kind", .str e.kind.text), ("text", .str e.text),
    ("summary", .opt e.summary), ("state_after", .str e.stateAfter.text),
    ("secret_redacted", .int e.secretRedacted.toNat)]

def sealSession (P : Platform) (r : SessionRow) : SessionRow :=
  { r with sessionSha256 := P.stableSha256 (sessionPayload r) }

def sealEvent (P : Platform) (e : SessionEvent) : SessionEvent :=
  { e with eventSha256 := P.stableSha256 (eventPayload e) }

structure Registry where
  store : Store
  sessions : List SessionRow
  events : List SessionEvent

-- one configuration of AuthorizedSessionRegistry, after its clamps
structure Host where
  platform : Platform
  redactSecrets : String → String
  adapterTtlSeconds : Nat
  maxRetainedSessions : Nat
  ttl_bounds : 30 ≤ adapterTtlSeconds ∧ adapterTtlSeconds ≤ 3600
  retained_bounds : 1 ≤ maxRetainedSessions ∧ maxRetainedSessions ≤ maxAuthorizedSessions

def SessionRow.fresh (H : Host) (now : ℚ) (r : SessionRow) : Bool :=
  now - H.adapterTtlSeconds ≤ r.lastSeenEpoch

def SessionRow.live (H : Host) (now : ℚ) (r : SessionRow) : Bool :=
  !r.state.terminal && r.fresh H now

section Arguments
variable (H : Host)

def identifier (value label : String) : Except SessionError String := do
  let text := strip value
  require (isSafeId text = true ∧ H.platform.containsSecret text = false)
    (.session (label ++ " is invalid"))
  pure text

def optionalIdentifier (value label : String) : Except SessionError (Option String) :=
  if strip value = "" then pure none else some <$> identifier H (strip value) label

def safeText (value label : String) (limit : Nat) : Except SessionError (Option String × Bool) := do
  let raw := strip value
  require (raw.length ≤ limit)
    (.session (label ++ " exceeds " ++ toString limit ++ " characters"))
  if raw = "" then pure (none, false)
  else pure (some (H.redactSecrets raw), H.redactSecrets raw ≠ raw)

def requiredText (value label : String) (limit : Nat) : Except SessionError (String × Bool) := do
  require (strip value ≠ "") (.session (label ++ " is required"))
  let (text, redacted) ← safeText H value label limit
  pure (text.getD "", redacted)

def requireSourceType (value : String) : Except SessionError SourceType :=
  demand (SourceType.parse? (lower (strip value)))
    (.session "source type is not an authorized external source")

def requireState (value : String) (default : SessionState) : Except SessionError SessionState :=
  demand (SessionState.parse? (lower (strip (if value = "" then default.text else value))))
    (.session "external session state is invalid")

end Arguments

def Registry.session? (g : Registry) (k : Key) : Option SessionRow :=
  lookup SessionRow.key k g.sessions

def Registry.event (P : Platform) (c : Ctx) (eventType : String) (payload : List (String × Json))
    (g : Registry) : Except SessionError Registry :=
  match g.store.event P c eventType payload none with
  | .ok (s, _) => pure { g with store := s }
  | .error e => throw (.bridge e)

def sourceSha (P : Platform) (sourceSessionId : String) : Json :=
  .sha (P.stableSha256 (.str sourceSessionId))

def verifiedSessionRow (P : Platform) (k : Key) (g : Registry) : Except SessionError SessionRow := do
  let row ← demand (g.session? k) (.session "authorized session does not exist")
  require (P.stableSha256 (sessionPayload row) = row.sessionSha256)
    (.session "authorized session SHA-256 does not match")
  pure row

def requireAdapterOwner (b : Bridge) (row : SessionRow) : Except SessionError Unit :=
  require (row.ownerAgentId = b.agentId ∧ row.ownerBridgeSessionId = b.sessionId)
    (.session "only the bound external adapter session may publish or close this session")

def pruneBefore (a b : SessionRow) : Prop :=
  a.lastSeenEpoch < b.lastSeenEpoch ∨ (a.lastSeenEpoch = b.lastSeenEpoch ∧
    (a.sourceType.text < b.sourceType.text ∨ (a.sourceType = b.sourceType ∧
      a.sourceSessionId ≤ b.sourceSessionId)))

instance (a b : SessionRow) : Decidable (pruneBefore a b) := inferInstanceAs (Decidable (_ ∨ _))

def Registry.surplus (H : Host) (scope : String) (g : Registry) : Nat :=
  (g.sessions.filter (fun r => r.scope = scope)).length + 1 - H.maxRetainedSessions

-- the rows retention removes for a new session
def Registry.victims (H : Host) (scope : String) (now : ℚ) (g : Registry) : List SessionRow :=
  ((g.sessions.filter (fun r => r.scope = scope ∧ r.live H now = false)).insertionSort
    pruneBefore).take (g.surplus H scope)

def pruneRow (H : Host) (c : Ctx) (now : ℚ) (g : Registry) (r : SessionRow) :
    Except SessionError Registry :=
  Registry.event H.platform c "cockpit.authorized_session.retention_pruned"
    [("source_type", .str r.sourceType.text),
      ("source_session_sha256", sourceSha H.platform r.sourceSessionId),
      ("terminal", .bool r.state.terminal), ("stale", .bool (!r.fresh H now))]
    { g with events := g.events.filter (fun e => e.key ≠ r.key),
             sessions := g.sessions.filter (fun q => q.key ≠ r.key) }

def pruneForNewSession (H : Host) (c : Ctx) (now : ℚ) (g : Registry) :
    Except SessionError Registry := do
  let rows := g.victims H c.self.scope now
  require (rows.length = g.surplus H c.self.scope)
    (.session ("authorized session retention limit reached while all retained sessions " ++
      "are live"))
  require (∀ r ∈ rows, H.platform.stableSha256 (sessionPayload r) = r.sessionSha256)
    (.session "authorized session SHA-256 does not match")
  rows.foldlM (pruneRow H c now) g

structure RoomBinding where
  roomId : Option String := none
  roomSessionId : Option String := none
  roleId : String := defaultRoomRole
  roleLabel : Option String := none

def roomBinding (H : Host) (b : Bridge) (roomId : Option String) (r : Rooms) :
    Except SessionError RoomBinding :=
  match roomId with
  | none => pure {}
  | some value => do
    let roomId ← identifier H value "room id"
    let member ← demand (r.activeRoomMember b.scope roomId b.agentId)
      (.session "external adapter must be an active member of the linked room")
    let role := lookup RoleRow.key (b.scope, roomId, b.agentId) r.roles
    pure { roomId := some roomId, roomSessionId := some member.roomSessionId,
           roleId := (role.map RoleRow.roleId).getD defaultRoomRole,
           roleLabel := (role.bind RoleRow.roleLabel).filter (fun t => t ≠ "") }

structure ConnectArgs where
  sourceType : String
  sourceSessionId : String
  sourceConversationId : String
  adapterId : String
  supportsEvents : Bool
  state : String := ""
  displayName : String
  clientName : String
  clientVersion : String := ""
  requestedRoute : String := ""
  observedRoute : String := ""
  observedRouteSource : String := ""
  modelId : String := ""
  modelSource : String := ""
  roomId : String := ""

def requireNoConflict (H : Host) (now : ℚ) (scope : String) (k : Key) (roomSessionId : Option String)
    (g : Registry) : Except SessionError Unit :=
  require (roomSessionId.all (fun room => g.sessions.all (fun r => !(r.scope = scope &&
      r.roomSessionId = some room && r.key ≠ k && r.live H now))) = true)
    (.session "room member already has another live observable adapter")

def requireRebinding (H : Host) (c : Ctx) (now : ℚ) (conversationId : String) (room : RoomBinding)
    (existing : SessionRow) : Except SessionError Unit := do
  require (H.platform.stableSha256 (sessionPayload existing) = existing.sessionSha256)
    (.session "authorized session SHA-256 does not match")
  require (existing.sourceConversationId = conversationId ∧ existing.roomId = room.roomId ∧
      existing.roomSessionId = room.roomSessionId)
    (.session ("authorized session identity binding cannot change; " ++
      "use a new source session id"))
  require ((existing.ownerAgentId = c.self.agentId ∧
        existing.ownerBridgeSessionId = c.self.sessionId) ∨
      (existing.ownerAgentId = c.self.agentId ∧ existing.live H now = false))
    (.session "authorized session is still bound to another live adapter")

-- a new session makes room for itself, a known one is bound again
def admitSession (H : Host) (c : Ctx) (now : ℚ) (conversationId : String) (room : RoomBinding)
    (existing : Option SessionRow) (g : Registry) : Except SessionError Registry :=
  match existing with
  | none => pruneForNewSession H c now g
  | some row => do
    requireRebinding H c now conversationId room row
    pure g

-- the clock is read on entry, before the transaction
def connect (H : Host) (c : Ctx) (a : ConnectArgs) (g : Registry) :
    Except SessionError Registry := do
  let sourceType ← requireSourceType a.sourceType
  let sourceSessionId ← identifier H a.sourceSessionId "source session id"
  let conversationId ← identifier H a.sourceConversationId "source conversation id"
  let adapterId ← identifier H a.adapterId "adapter id"
  let state ← requireState a.state .detected
  let (displayName, _) ← requiredText H a.displayName "display name" 160
  let (clientName, _) ← requiredText H a.clientName "client name" 160
  let (clientVersion, _) ← safeText H a.clientVersion "client version" 80
  let (requestedRoute, _) ← safeText H a.requestedRoute "requested route" 200
  let (observedRoute, _) ← safeText H a.observedRoute "observed route" 200
  let (observedRouteSource, _) ← safeText H a.observedRouteSource "observed route source" 200
  let (modelId, _) ← safeText H a.modelId "model id" 200
  let (modelSource, _) ← safeText H a.modelSource "model source" 200
  let now := c.clock.entry
  let k : Key := (c.self.scope, sourceType, sourceSessionId)
  let roomId ← optionalIdentifier H a.roomId "room id"
  let room ← roomBinding H c.self roomId g.store.rooms
  requireNoConflict H now c.self.scope k room.roomSessionId g
  let existing := g.session? k
  let g ← admitSession H c now conversationId room existing g
  let row := sealSession H.platform
    { scope := c.self.scope, sourceType, sourceSessionId,
      sourceConversationId := conversationId, adapterId, ownerAgentId := c.self.agentId,
      ownerBridgeSessionId := c.self.sessionId, roomId := room.roomId,
      roomSessionId := room.roomSessionId, displayName, clientName, clientVersion,
      requestedRoute, observedRoute, observedRouteSource, modelId, modelSource,
      roleId := room.roleId, roleLabel := room.roleLabel, state,
      supportsEvents := a.supportsEvents,
      createdUtc := (existing.map SessionRow.createdUtc).getD (utcNow now),
      startedUtc := (existing.map SessionRow.startedUtc).getD (utcNow now),
      endedUtc := if state.terminal then some (utcNow now) else none,
      lastSeenUtc := utcNow now, lastSeenEpoch := now,
      latestSequence := (existing.map SessionRow.latestSequence).getD 0,
      sessionSha256 := zeroSha256 }
  Registry.event H.platform c "cockpit.authorized_session.connected"
    [("source_type", .str sourceType.text),
      ("source_session_sha256", sourceSha H.platform sourceSessionId),
      ("source_conversation_sha256", sourceSha H.platform conversationId),
      ("adapter_id", .str adapterId), ("room_session_id", .opt room.roomSessionId),
      ("session_sha256", .sha row.sessionSha256), ("supports_events", .bool a.supportsEvents)]
    { g with sessions := upsert SessionRow.key row g.sessions }

structure PublishArgs where
  sourceType : String
  sourceSessionId : String
  eventId : String
  stream : String := ""
  kind : String := ""
  text : String
  summary : String := ""
  state : String := ""

structure Published where
  sequence : Nat
  eventSha256 : Sha256
  idempotentReplay : Bool

def Registry.eventOf (g : Registry) (k : Key) (eventId : String) : Option SessionEvent :=
  g.events.find? (fun e => e.key = k ∧ e.adapterEventId = eventId)

-- one event is stored and the oldest retained one may leave
def storeEvent (e : SessionEvent) (events : List SessionEvent) : List SessionEvent :=
  (events ++ [e]).filter
    (fun x => ¬ (x.key = e.key ∧ x.sequence + maxAuthorizedEvents ≤ e.sequence))

def publishEvent (H : Host) (c : Ctx) (a : PublishArgs) (g : Registry) :
    Except SessionError (Registry × Published) := do
  let sourceType ← requireSourceType a.sourceType
  let sourceSessionId ← identifier H a.sourceSessionId "source session id"
  let eventId ← identifier H a.eventId "event id"
  let stream ← demand (Stream.parse? (lower (strip (if a.stream = "" then "system" else a.stream))))
    (.session "external event stream is invalid")
  let kind ← demand (Kind.parse? (lower (strip (if a.kind = "" then "activity" else a.kind))))
    (.session "external event kind is invalid")
  let (text, textRedacted) ← requiredText H a.text "event text" maxEventTextChars
  let (summary, summaryRedacted) ← safeText H a.summary "event summary" maxEventSummaryChars
  let stateAfter ← requireState a.state .running
  let now := c.clock.entry
  let k : Key := (c.self.scope, sourceType, sourceSessionId)
  let row ← verifiedSessionRow H.platform k g
  requireAdapterOwner c.self row
  require (row.supportsEvents = true)
    (.session "this adapter did not authorize observable event mirroring")
  match g.eventOf k eventId with
  | some e => do
    require (e.stream = stream ∧ e.kind = kind ∧ e.text = text ∧ e.summary = summary ∧
        e.stateAfter = stateAfter)
      (.session "event id was already used for different observable content")
    pure (g, { sequence := e.sequence, eventSha256 := e.eventSha256, idempotentReplay := true })
  | none => do
    let sequence := row.latestSequence + 1
    let e := sealEvent H.platform
      { scope := c.self.scope, sourceType, sourceSessionId, sequence, adapterEventId := eventId,
        createdUtc := utcNow now, stream, kind, text, summary, stateAfter,
        secretRedacted := textRedacted || summaryRedacted, eventSha256 := zeroSha256 }
    let updated := sealSession H.platform
      { row with state := stateAfter,
                 endedUtc := if stateAfter.terminal then some (utcNow now) else none,
                 lastSeenUtc := utcNow now, lastSeenEpoch := now, latestSequence := sequence }
    let g ← Registry.event H.platform c "cockpit.authorized_session.event_published"
      [("source_type", .str sourceType.text),
        ("source_session_sha256", sourceSha H.platform sourceSessionId),
        ("event_sha256", .sha e.eventSha256), ("sequence", .int sequence),
        ("kind", .str kind.text), ("secret_redacted", .bool e.secretRedacted),
        ("session_sha256", .sha updated.sessionSha256)]
      { g with sessions := upsert SessionRow.key updated g.sessions,
               events := storeEvent e g.events }
    pure (g, { sequence, eventSha256 := e.eventSha256, idempotentReplay := false })

structure CloseArgs where
  sourceType : String
  sourceSessionId : String
  state : String := ""

def close (H : Host) (c : Ctx) (a : CloseArgs) (g : Registry) : Except SessionError Registry := do
  let sourceType ← requireSourceType a.sourceType
  let sourceSessionId ← identifier H a.sourceSessionId "source session id"
  let state ← requireState a.state .stopped
  require (state.terminal = true) (.session "closing state must be terminal")
  let now := c.clock.entry
  let row ← verifiedSessionRow H.platform (c.self.scope, sourceType, sourceSessionId) g
  requireAdapterOwner c.self row
  let updated := sealSession H.platform
    { row with state, endedUtc := some (utcNow now), lastSeenUtc := utcNow now,
               lastSeenEpoch := now }
  Registry.event H.platform c "cockpit.authorized_session.closed"
    [("source_type", .str sourceType.text),
      ("source_session_sha256", sourceSha H.platform sourceSessionId),
      ("state", .str state.text), ("session_sha256", .sha updated.sessionSha256)]
    { g with sessions := upsert SessionRow.key updated g.sessions }

end PeerBridge.AuthorizedSessions
