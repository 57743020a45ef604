import PeerBridge.Routes

namespace PeerBridge
open Checked Rows

def defaultRoomId : String := "lobby"
def humanOperatorId : String := "human-operator"
def discussionOrchestratorId : String := "peerbridge-orchestrator"
def discussionCoordinatorId : String := "mailbox-supervisor"
def reservedInternalAgentIds : List String :=
  ["control-room-workflow", "control-room-migrator", discussionCoordinatorId,
    discussionOrchestratorId]
def defaultRoomRole : String := "equal-participant"
def roomMemberRoles : List String :=
  [defaultRoomRole, "researcher", "implementer", "reviewer", "custom"]
def defaultDiscussionMaxRounds : Nat := 4
def defaultDiscussionMaxMessages : Nat := 40
def defaultDiscussionStagnationRounds : Nat := 2
def maxDiscussionRounds : Nat := 20
def maxDiscussionMessages : Nat := 200

def discussionRowPayload (d : DiscussionRow) : Json :=
  .obj [("scope", .str d.scope), ("discussion_id", .str d.discussionId),
    ("room_id", .str d.roomId), ("task_id", .str d.taskId), ("subject", .str d.subject),
    ("starter_agent_id", .str d.starterAgentId), ("status", .str d.status.text),
    ("current_round", .int d.currentRound), ("processed_round", .int d.processedRound),
    ("max_rounds", .int d.maxRounds), ("max_messages", .int d.maxMessages),
    ("stagnation_rounds", .int d.stagnationRounds), ("message_count", .int d.messageCount),
    ("stagnation_count", .int d.stagnationCount), ("last_round_digest", .optSha d.lastRoundDigest),
    ("stop_reason", .opt (d.stopReason.map StopReason.text))]

def sealDiscussion (P : Platform) (now : Utc) (d : DiscussionRow) : DiscussionRow :=
  { d with updatedUtc := now, discussionSha256 := P.stableSha256 (discussionRowPayload d) }

def Store.storeDiscussionState (P : Platform) (now : Utc) (d : DiscussionRow) (s : Store) : Store :=
  s.withMail (s.mail.putDiscussion (sealDiscussion P now d))

def room (b : Bridge) (roomId : String) (r : Rooms) : Except BridgeError RoomRow := do
  let row ← demand (r.room? b.scope roomId) (.bridge "room not found")
  require (row.archived = false) (.bridge "room is archived")
  pure row

def Rooms.activeRoomMember (r : Rooms) (scope roomId agentId : String) : Option MembershipRow :=
  (r.membership? scope roomId agentId).filter (fun m => m.status = .active)

def requireRoomManager (b : Bridge) (roomId : String) (r : Rooms) : Except BridgeError RoomRow := do
  let row ← room b roomId r
  require (b.agentId = humanOperatorId ∨ b.agentId = row.createdBy)
    (.bridge "only the room creator or human operator may manage seats")
  require (b.agentId = humanOperatorId ∨
      (r.activeRoomMember b.scope roomId b.agentId).isSome = true)
    (.bridge "room creator must remain an active member to manage seats")
  pure row

def requireRoomMember (b : Bridge) (roomId agentId : String) (r : Rooms) :
    Except BridgeError Unit := do
  let _ ← room b roomId r
  let absent := BridgeError.bridge ("agent is not an active member of room " ++ roomId)
  if roomId = defaultRoomId then
    require ((r.membership? b.scope roomId agentId).all (fun m => m.status = .active) = true) absent
  else
    require ((r.activeRoomMember b.scope roomId agentId).isSome = true) absent

def roomPolicy (b : Bridge) (roomId : String) (r : Rooms) : Except BridgeError PolicyRow := do
  let _ ← room b roomId r
  demand (r.policy? b.scope roomId) (.bridge "room automation policy is missing")

def roomPayload (row : RoomRow) : Json :=
  .obj [("scope", .str row.scope), ("room_id", .str row.roomId), ("name", .str row.name),
    ("created_by", .str row.createdBy), ("archived", .bool row.archived)]

def policyPayload (p : PolicyRow) : Json :=
  .obj [("scope", .str p.scope), ("room_id", .str p.roomId), ("mode", .str p.mode.text),
    ("max_rounds", .int p.maxRounds), ("max_messages", .int p.maxMessages),
    ("stagnation_rounds", .int p.stagnationRounds), ("updated_by", .str p.updatedBy)]

def rolePayload (r : RoleRow) : Json :=
  .obj [("scope", .str r.scope), ("room_id", .str r.roomId), ("agent_id", .str r.agentId),
    ("room_session_id", .str r.roomSessionId), ("role_id", .str r.roleId),
    ("role_label", .opt r.roleLabel), ("updated_by", .str r.updatedBy)]

def membershipPayload (m : MembershipRow) : Json :=
  .obj ([("scope", .str m.scope), ("room_id", .str m.roomId), ("agent_id", .str m.agentId),
    ("route_profile_id", .opt m.routeProfileId), ("room_session_id", .str m.roomSessionId),
    ("status", .str m.status.text), ("joined_utc", .utc m.joinedUtc)] ++
    m.leftUtc.elim [] (fun t => [("left_utc", Json.utc t)]))

def normalizeRoomRole (P : Platform) (roleId roleLabel : String) :
    Except BridgeError (String × Option String) := do
  let normalized := lower (strip (if roleId = "" then defaultRoomRole else roleId))
  require (normalized ∈ roomMemberRoles)
    (.bridge "role_id must be equal-participant, researcher, implementer, reviewer or custom")
  let labelText := strip roleLabel
  if normalized = "custom" then do
    let label ← requireText P labelText "role_label" 80
    pure (normalized, some label)
  else do
    require (labelText = "") (.bridge "role_label is only valid for a custom role")
    pure (normalized, none)

def seatRole (P : Platform) (role : Option (String × Option String)) (existing : Option RoleRow) :
    Except BridgeError (String × Option String) :=
  match role, existing with
  | none, some e => pure (e.roleId, e.roleLabel)
  | none, none => normalizeRoomRole P "" ""
  | some q, _ => normalizeRoomRole P q.1 (q.2.getD "")

def upsertRoomRole (P : Platform) (c : Ctx) (roomId agentId roomSessionId : String)
    (role : Option (String × Option String)) (now : Utc) (r : Rooms) :
    Except BridgeError (Rooms × RoleRow) := do
  let existing := lookup RoleRow.key (c.self.scope, roomId, agentId) r.roles
  let (roleId, roleLabel) ← seatRole P role existing
  let row : RoleRow :=
    { scope := c.self.scope, roomId, agentId, roomSessionId, roleId, roleLabel,
      updatedBy := c.self.agentId, createdUtc := (existing.map RoleRow.createdUtc).getD now,
      updatedUtc := now, roleSha256 := zeroSha256 }
  let row := { row with roleSha256 := P.stableSha256 (rolePayload row) }
  pure ({ r with roles := upsert RoleRow.key row r.roles }, row)

def putMembership (P : Platform) (c : Ctx) (row : MembershipRow)
    (role : Option (String × Option String)) (now : Utc) (r : Rooms) :
    Except BridgeError (Rooms × MembershipRow × RoleRow) := do
  let row := { row with membershipSha256 := P.stableSha256 (membershipPayload row) }
  let r := { r with memberships := upsert MembershipRow.key row r.memberships }
  let (r, seatRole) ← upsertRoomRole P c row.roomId row.agentId row.roomSessionId role now r
  pure (r, row, seatRole)

def upsertRoomMembership (P : Platform) (c : Ctx) (roomId agentId : String)
    (routeProfileId : Option String) (role : Option (String × Option String)) (now : Utc)
    (r : Rooms) : Except BridgeError (Rooms × MembershipRow × RoleRow) :=
  let reused := (r.membership? c.self.scope roomId agentId).filter
    (fun m => m.status = .active ∧ m.routeProfileId = routeProfileId)
  putMembership P c
    { scope := c.self.scope, roomId, agentId, routeProfileId,
      roomSessionId := (reused.map MembershipRow.roomSessionId).getD c.uuid.text, status := .active,
      joinedUtc := (reused.map MembershipRow.joinedUtc).getD now, updatedUtc := now,
      leftUtc := none, membershipSha256 := zeroSha256 } role now r

def newRoom (P : Platform) (scope roomId name createdBy : String) (now : Utc) : RoomRow :=
  let row : RoomRow := { scope, roomId, name, createdBy, archived := false, createdUtc := now,
                         updatedUtc := now, roomSha256 := zeroSha256 }
  { row with roomSha256 := P.stableSha256 (roomPayload row) }

def newPolicy (P : Platform) (scope roomId updatedBy : String) (now : Utc) : PolicyRow :=
  let policy : PolicyRow :=
    { scope, roomId, mode := .once, maxRounds := defaultDiscussionMaxRounds,
      maxMessages := defaultDiscussionMaxMessages,
      stagnationRounds := defaultDiscussionStagnationRounds, updatedBy, createdUtc := now,
      updatedUtc := now, policySha256 := zeroSha256 }
  { policy with policySha256 := P.stableSha256 (policyPayload policy) }

def ensureLobby (P : Platform) (c : Ctx) (s : Store) : Store :=
  let now := utcNow c.clock.locked
  let r := s.rooms
  s.withRooms { r with
    rooms := if (r.room? c.self.scope defaultRoomId).isSome then r.rooms
      else r.rooms ++ [newRoom P c.self.scope defaultRoomId "Lobby" "peerbridge-system" now],
    policies := if (r.policy? c.self.scope defaultRoomId).isSome then r.policies
      else r.policies ++ [newPolicy P c.self.scope defaultRoomId "peerbridge-system" now] }

structure CreateRoomArgs where
  roomId : String
  name : String

def createRoom (P : Platform) (c : Ctx) (a : CreateRoomArgs) (s : Store) :
    Except BridgeError (Store × RoomRow) := do
  let roomId ← requireIdentifier a.roomId "room_id"
  require (roomId ≠ defaultRoomId) (.bridge "the built-in lobby room already exists")
  require ("history.".toList.isPrefixOf roomId.toList = false)
    (.bridge "history.* room IDs are reserved for read-only imports")
  let name ← requireText P a.name "name" 200
  let now := utcNow c.clock.entry
  let row := newRoom P c.self.scope roomId name c.self.agentId now
  require ((s.rooms.room? c.self.scope roomId).isNone = true) (.bridge "room already exists")
  let seated := { s.rooms with rooms := s.rooms.rooms ++ [row] }
  let (seated, _) ← upsertRoomMembership P c roomId c.self.agentId none none now seated
  let policy := newPolicy P c.self.scope roomId c.self.agentId now
  require ((seated.policy? c.self.scope roomId).isNone = true)
    (.integrity "room_automation_policies")
  let seated := { seated with policies := seated.policies ++ [policy] }
  let (s, _) ← (s.withRooms seated).event P c "room.created"
    [("room_id", .str roomId), ("room_sha256", .sha row.roomSha256)] none
  pure (s, row)

structure JoinRoomArgs where
  roomId : String
  agentId : Option String := none
  routeProfileId : String := ""
  roleId : Option String := none
  roleLabel : Option String := none

def requestedRole (P : Platform) (a : JoinRoomArgs) :
    Except BridgeError (Option (String × Option String)) :=
  if a.roleId.isSome || a.roleLabel.isSome then
    some <$> normalizeRoomRole P (a.roleId.getD "") (a.roleLabel.getD "")
  else pure none

def requireSeatProfile (scope agentId : String) (routeProfileId : Option String) (r : Rooms) :
    Except BridgeError Unit :=
  match routeProfileId with
  | none => pure ()
  | some routeId => do
    let profile ← demand (r.enabledProfile? scope routeId)
      (.bridge "route profile is missing or disabled")
    require (profile.agentId = agentId) (.bridge "route profile targets a different agent")

def joinRoom (P : Platform) (c : Ctx) (a : JoinRoomArgs) (s : Store) :
    Except BridgeError (Store × MembershipRow) := do
  let roomId ← requireIdentifier a.roomId "room_id"
  let agentId ← requireIdentifier (a.agentId.getD c.self.agentId) "agent_id"
  require (¬ (agentId ∈ reservedInternalAgentIds ∧ c.self.agentId ≠ agentId))
    (.bridge "reserved internal Agent cannot be added as a room seat")
  let routeProfileId ← optionalIdentifier a.routeProfileId "route_profile_id"
  let role ← requestedRole P a
  let now := utcNow c.clock.entry
  let _ ← requireRoomManager c.self roomId s.rooms
  requireSeatProfile c.self.scope agentId routeProfileId s.rooms
  let (rooms, membership, seatRole) ←
    upsertRoomMembership P c roomId agentId routeProfileId role now s.rooms
  let (s, _) ← (s.withRooms rooms).event P c "room.member_joined"
    [("room_id", .str roomId), ("agent_id", .str agentId),
      ("membership_sha256", .sha membership.membershipSha256),
      ("role_id", .str seatRole.roleId), ("role_sha256", .sha seatRole.roleSha256)] none
  pure (s, membership)

structure SetMemberRoleArgs where
  roomId : String
  agentId : String
  roleId : String
  roleLabel : String := ""

-- a lobby seat nobody has taken yet is materialised
def assignSeatRole (P : Platform) (c : Ctx) (roomId agentId : String)
    (role : String × Option String) (now : Utc) (r : Rooms) :
    Except BridgeError (Rooms × MembershipRow × RoleRow) :=
  let absent := BridgeError.bridge "agent is not an active room member"
  match r.membership? c.self.scope roomId agentId with
  | none => do
    require (roomId = defaultRoomId) absent
    upsertRoomMembership P c roomId agentId none (some role) now r
  | some m => do
    require (m.status = .active) absent
    let (r, seatRole) ← upsertRoomRole P c roomId agentId m.roomSessionId (some role) now r
    pure (r, m, seatRole)

def setRoomMemberRole (P : Platform) (c : Ctx) (a : SetMemberRoleArgs) (s : Store) :
    Except BridgeError (Store × RoleRow) := do
  let roomId ← requireIdentifier a.roomId "room_id"
  let agentId ← requireIdentifier a.agentId "agent_id"
  let role ← normalizeRoomRole P a.roleId a.roleLabel
  let now := utcNow c.clock.entry
  let _ ← requireRoomManager c.self roomId s.rooms
  let seat := s.rooms.membership? c.self.scope roomId agentId
  let previous := seat.bind
    (fun _ => lookup RoleRow.key (c.self.scope, roomId, agentId) s.rooms.roles)
  let (rooms, membership, seatRole) ← assignSeatRole P c roomId agentId role now s.rooms
  let (s, _) ← (s.withRooms rooms).event P c "room.member_role_updated"
    [("room_id", .str roomId), ("agent_id", .str agentId),
      ("room_session_id", .str membership.roomSessionId), ("role_id", .str seatRole.roleId),
      ("role_label", .opt seatRole.roleLabel),
      ("previous_role_sha256", .optSha (previous.map RoleRow.roleSha256)),
      ("role_sha256", .sha seatRole.roleSha256), ("membership_materialized", .bool seat.isNone),
      ("authority_effect", .str "none")] none
  pure (s, seatRole)

structure LeaveRoomArgs where
  roomId : String
  agentId : Option String := none

def requireLeaver (b : Bridge) (roomId agentId : String) (r : Rooms) : Except BridgeError Unit :=
  if agentId = b.agentId then pure () else do
    let _ ← requireRoomManager b roomId r
    pure ()

def leaveRoom (P : Platform) (c : Ctx) (a : LeaveRoomArgs) (s : Store) :
    Except BridgeError (Store × MembershipRow) := do
  let roomId ← requireIdentifier a.roomId "room_id"
  let agentId ← requireIdentifier (a.agentId.getD c.self.agentId) "agent_id"
  let now := utcNow c.clock.entry
  let _ ← room c.self roomId s.rooms
  requireLeaver c.self roomId agentId s.rooms
  let absent := BridgeError.bridge "agent is not an active room member"
  let row := s.rooms.membership? c.self.scope roomId agentId
  require (row.all (fun m => m.status = .active) = true) absent
  require (row.isSome = true ∨ roomId = defaultRoomId) absent
  let (rooms, membership, seatRole) ← putMembership P c
    { scope := c.self.scope, roomId, agentId, routeProfileId := row.bind MembershipRow.routeProfileId,
      roomSessionId := (row.map MembershipRow.roomSessionId).getD c.uuid.text, status := .left,
      joinedUtc := (row.map MembershipRow.joinedUtc).getD now, updatedUtc := now,
      leftUtc := some now, membershipSha256 := zeroSha256 } none now s.rooms
  let (s, _) ← (s.withRooms rooms).event P c "room.member_left"
    [("room_id", .str roomId), ("agent_id", .str agentId),
      ("membership_sha256", .sha membership.membershipSha256),
      ("role_id", .str seatRole.roleId), ("role_sha256", .sha seatRole.roleSha256)] none
  pure (s, membership)

structure SetRoomAutomationArgs where
  roomId : String
  mode : String
  maxRounds : Int := defaultDiscussionMaxRounds
  maxMessages : Int := defaultDiscussionMaxMessages
  stagnationRounds : Int := defaultDiscussionStagnationRounds

def openDiscussions (scope roomId : String) (m : Mail) : List DiscussionRow :=
  m.discussions.filter (fun d => d.scope = scope ∧ d.roomId = roomId ∧ d.status.isOpen)

def stopForPolicy (P : Platform) (now : Utc) (ds : List DiscussionRow) (m : Mail) : Mail :=
  ds.foldl (fun m d => m.putDiscussion (sealDiscussion P now
    { d with status := .stopped, stopReason := some .policyChanged })) m

def automationLimits (a : SetRoomAutomationArgs) (mode : RoomMode) :
    Except BridgeError (Nat × Nat) :=
  if mode = .goal then pure (0, 0)
  else do
    let rounds ← boundedInteger a.maxRounds "max_rounds" 1 maxDiscussionRounds
    let messages ← boundedInteger a.maxMessages "max_messages" 2 maxDiscussionMessages
    pure (rounds.toNat, messages.toNat)

def setRoomAutomation (P : Platform) (c : Ctx) (a : SetRoomAutomationArgs) (s : Store) :
    Except BridgeError (Store × PolicyRow) := do
  let roomId ← requireIdentifier a.roomId "room_id"
  let mode ← demand (RoomMode.parse? (lower (strip a.mode)))
    (.bridge "mode must be off, once, discussion, free or goal")
  let (maxRounds, maxMessages) ← automationLimits a mode
  let stagnationRounds ← boundedInteger a.stagnationRounds "stagnation_rounds" 1 5
  require (¬ (maxRounds ≠ 0 ∧ (maxRounds : Int) < stagnationRounds))
    (.bridge "stagnation_rounds cannot exceed max_rounds")
  let now := utcNow c.clock.entry
  let _ ← requireRoomManager c.self roomId s.rooms
  let existing ← roomPolicy c.self roomId s.rooms
  let policy := { existing with mode, maxRounds, maxMessages,
                                stagnationRounds := stagnationRounds.toNat,
                                updatedBy := c.self.agentId, updatedUtc := now }
  let policy := { policy with policySha256 := P.stableSha256 (policyPayload policy) }
  let s := s.withRooms { s.rooms with policies := upsert PolicyRow.key policy s.rooms.policies }
  let s := if mode.automates then s
    else s.withMail (stopForPolicy P now (openDiscussions c.self.scope roomId s.mail) s.mail)
  let (s, _) ← s.event P c "room.automation_updated"
    [("room_id", .str roomId), ("previous_policy_sha256", .sha existing.policySha256),
      ("policy_sha256", .sha policy.policySha256), ("mode", .str mode.text),
      ("max_rounds", .int maxRounds), ("max_messages", .int maxMessages),
      ("stagnation_rounds", .int stagnationRounds)] none
  pure (s, policy)

structure RouteProfileArgs where
  routeId : String
  agentId : String
  clientName : String := ""
  providerId : String := ""
  modelId : String := ""
  responseModelId : String := ""
  inferenceTimeoutSeconds : Option Int := none
  reasoningMode : String := ""
  routeClass : String := ""
  enabled : Bool := true

def optionalModelIdentifier (value label : String) : Except BridgeError (Option String) := do
  let text := strip value
  require (text = "" ∨ isSafeModelId text = true)
    (.bridge (label ++
      " must contain only letters, digits, dot, underscore, colon, slash or dash"))
  pure (if text = "" then none else some text)

def optionalInferenceTimeoutSeconds (value : Option Int) : Except BridgeError (Option Nat) :=
  match value with
  | none => pure none
  | some n => do
    require (1 ≤ n ∧ n ≤ 300)
      (.bridge "inference_timeout_seconds must be between 1 and 300")
    pure (some n.toNat)

def upsertRouteProfile (P : Platform) (c : Ctx) (a : RouteProfileArgs) (s : Store) :
    Except BridgeError (Store × RouteProfileRow) := do
  let routeId ← requireIdentifier a.routeId "route_id"
  let agentId ← requireIdentifier a.agentId "agent_id"
  require (¬ (agentId ∈ reservedInternalAgentIds ∧ c.self.agentId ≠ agentId))
    (.bridge "reserved internal Agent cannot be configured as a route")
  require (c.self.agentId = humanOperatorId ∨ c.self.agentId = agentId)
    (.bridge "only the human operator or route owner can register a route profile")
  let clientName ← optionalIdentifier a.clientName "client_name"
  let providerId ← optionalIdentifier a.providerId "provider_id"
  let modelId ← optionalModelIdentifier a.modelId "model_id"
  let responseModelId ← optionalModelIdentifier a.responseModelId "response_model_id"
  let inferenceTimeoutSeconds ← optionalInferenceTimeoutSeconds a.inferenceTimeoutSeconds
  let reasoningMode ← optionalIdentifier a.reasoningMode "reasoning_mode"
  let routeClass ← demand
    (RouteClass.parse? (lower (strip (if a.routeClass = "" then "local" else a.routeClass))))
    (.bridge "route_class must be official, relay or local")
  require (providerId.isSome = true ∨ modelId.isSome = true ∨ reasoningMode.isSome = true)
    (.bridge "a route profile requires provider_id, model_id or reasoning_mode")
  let now := utcNow c.clock.entry
  let row : RouteProfileRow :=
    { scope := c.self.scope, routeId, agentId, clientName, providerId, modelId, responseModelId,
      inferenceTimeoutSeconds, reasoningMode, routeClass, enabled := a.enabled,
      createdUtc := now, updatedUtc := now, profileSha256 := zeroSha256 }
  let row := { row with profileSha256 := routeProfileIdentitySha P row [] }
  match s.rooms.profile? c.self.scope routeId with
  | some existing => do
    let sha ← verifiedRouteProfileSha256 P existing
    require (existing.sameIdentity row = true)
      (.bridge "route profiles are immutable; create a new route_id")
    pure (s, { row with profileSha256 := sha, updatedUtc := existing.updatedUtc })
  | none => do
    let rooms := { s.rooms with routeProfiles := s.rooms.routeProfiles ++ [row] }
    let (s, _) ← (s.withRooms rooms).event P c "route.profile_upserted"
      [("route_id", .str routeId), ("agent_id", .str agentId),
        ("profile_sha256", .sha row.profileSha256), ("enabled", .bool a.enabled)] none
    pure (s, row)

section Specs
variable {P : Platform} {c : Ctx} {s s' : Store} {r r' : Rooms}

theorem upsertRoomRole_ok {roomId agentId session : String}
    {role : Option (String × Option String)} {now : Utc} {row : RoleRow}
    (h : upsertRoomRole P c roomId agentId session role now r = .ok (r', row)) :
    ∃ roles, r' = { r with roles } := by
  simp only [upsertRoomRole, bind_eq_ok, pure_eq_ok, Prod.mk.injEq] at h
  obtain ⟨q, -, rfl, -⟩ := h
  exact ⟨_, rfl⟩

theorem putMembership_ok {row m : MembershipRow} {role : Option (String × Option String)}
    {now : Utc} {seat : RoleRow} (h : putMembership P c row role now r = .ok (r', m, seat)) :
    m = { row with membershipSha256 := P.stableSha256 (membershipPayload row) } ∧
      ∃ roles, r' = { r with memberships := upsert MembershipRow.key m r.memberships, roles } := by
  simp only [putMembership, bind_eq_ok, pure_eq_ok, Prod.mk.injEq] at h
  obtain ⟨⟨r₁, seat₁⟩, h₁, rfl, rfl, -⟩ := h
  obtain ⟨roles, rfl⟩ := upsertRoomRole_ok h₁
  exact ⟨rfl, roles, rfl⟩

structure Seated (scope roomId agentId : String) (routeProfileId : Option String)
    (status : MembershipStatus) (r r' : Rooms) (m : MembershipRow) : Prop where
  key_eq : m.key = (scope, roomId, agentId)
  route_eq : m.routeProfileId = routeProfileId
  status_eq : m.status = status
  rooms_eq : ∃ roles, r' = { r with memberships := upsert MembershipRow.key m r.memberships, roles }

theorem upsertRoomMembership_ok {roomId agentId : String} {route : Option String}
    {role : Option (String × Option String)} {now : Utc} {m : MembershipRow} {seat : RoleRow}
    (h : upsertRoomMembership P c roomId agentId route role now r = .ok (r', m, seat)) :
    Seated c.self.scope roomId agentId route .active r r' m := by
  obtain ⟨rfl, hr⟩ := putMembership_ok h
  exact ⟨rfl, rfl, rfl, hr⟩

theorem ensureLobby_mail : (ensureLobby P c s).mail = s.mail := rfl

theorem createRoom_ok {a : CreateRoomArgs} {row : RoomRow}
    (h : createRoom P c a s = .ok (s', row)) :
    s'.mail = s.mail ∧ s'.ledger = s.ledger ∧ ∃ name now m roles,
      row = newRoom P c.self.scope row.roomId name c.self.agentId now ∧
      (s.rooms.room? c.self.scope row.roomId).isNone = true ∧
      (s.rooms.policy? c.self.scope row.roomId).isNone = true ∧
      m.key = (c.self.scope, row.roomId, c.self.agentId) ∧ m.routeProfileId = none ∧
      s'.rooms = { s.rooms with
        rooms := s.rooms.rooms ++ [row],
        memberships := upsert MembershipRow.key m s.rooms.memberships, roles := roles,
        policies := s.rooms.policies ++
          [newPolicy P c.self.scope row.roomId c.self.agentId now] } := by
  simp only [createRoom, bind_eq_ok, require_eq_ok, pure_eq_ok, Prod.mk.injEq] at h
  obtain ⟨roomId, -, -, -, -, -, name, -, -, hroom, ⟨r₁, m, seat⟩, h₁, -, hpol, ⟨s₁, chain⟩, he,
    rfl, rfl⟩ := h
  obtain ⟨a, rfl⟩ := Store.event_ok he
  obtain ⟨hk, hroute, -, roles, rfl⟩ := upsertRoomMembership_ok h₁
  exact ⟨rfl, rfl, name, _, m, roles, rfl, hroom, hpol, hk, hroute, rfl⟩

theorem requireRoomManager_ok {b : Bridge} {roomId : String} {row : RoomRow}
    (h : requireRoomManager b roomId r = .ok row) :
    room b roomId r = .ok row ∧ (b.agentId = humanOperatorId ∨ b.agentId = row.createdBy) := by
  simp only [requireRoomManager, bind_eq_ok, require_eq_ok, pure_eq_ok] at h
  obtain ⟨x, hx, -, hm, -, -, rfl⟩ := h
  exact ⟨hx, hm⟩

theorem room_ok {b : Bridge} {roomId : String} {row : RoomRow} :
    room b roomId r = .ok row ↔ r.room? b.scope roomId = some row ∧ row.archived = false := by
  simp only [room, bind_eq_ok, demand_eq_ok, require_eq_ok, pure_eq_ok]
  constructor
  · rintro ⟨x, hx, -, ha, rfl⟩
    exact ⟨hx, ha⟩
  · rintro ⟨hx, ha⟩
    exact ⟨row, hx, (), ha, rfl⟩

theorem joinRoom_ok {a : JoinRoomArgs} {m : MembershipRow}
    (h : joinRoom P c a s = .ok (s', m)) :
    s'.mail = s.mail ∧ s'.ledger = s.ledger ∧ ∃ roomId agentId route,
      isIdentifier agentId = true ∧
      (agentId ∈ reservedInternalAgentIds → c.self.agentId = agentId) ∧
      (s.rooms.room? c.self.scope roomId).isSome = true ∧
      Seated c.self.scope roomId agentId route .active s.rooms s'.rooms m := by
  simp only [joinRoom, bind_eq_ok, require_eq_ok, pure_eq_ok, Prod.mk.injEq] at h
  obtain ⟨roomId, -, agentId, ha, -, hres, route, -, role, -, row, hman, -, -, ⟨r₁, m₁, seat⟩, h₁,
    ⟨s₁, chain⟩, he, rfl, rfl⟩ := h
  obtain ⟨a, rfl⟩ := Store.event_ok he
  have hroom := (room_ok.mp (requireRoomManager_ok hman).1).1
  exact ⟨rfl, rfl, roomId, agentId, route, (requireIdentifier_ok ha).2,
    fun hm => not_not.mp fun hne => hres ⟨hm, hne⟩, by rw [hroom]; rfl,
    upsertRoomMembership_ok h₁⟩

theorem leaveRoom_ok {a : LeaveRoomArgs} {m : MembershipRow}
    (h : leaveRoom P c a s = .ok (s', m)) :
    s'.mail = s.mail ∧ s'.ledger = s.ledger ∧ ∃ roomId agentId route,
      isIdentifier agentId = true ∧ (s.rooms.room? c.self.scope roomId).isSome = true ∧
      Seated c.self.scope roomId agentId route .left s.rooms s'.rooms m := by
  simp only [leaveRoom, bind_eq_ok, require_eq_ok, pure_eq_ok, Prod.mk.injEq] at h
  obtain ⟨roomId, -, agentId, ha, row, hroom, -, -, -, -, -, -, ⟨r₁, m₁, seat⟩, h₁, ⟨s₁, chain⟩, he,
    rfl, rfl⟩ := h
  obtain ⟨a, rfl⟩ := Store.event_ok he
  obtain ⟨rfl, hr⟩ := putMembership_ok h₁
  exact ⟨rfl, rfl, roomId, agentId, _, (requireIdentifier_ok ha).2,
    by rw [(room_ok.mp hroom).1]; rfl, rfl, rfl, rfl, hr⟩

theorem setRoomAutomation_ok {a : SetRoomAutomationArgs} {policy : PolicyRow}
    (h : setRoomAutomation P c a s = .ok (s', policy)) :
    ∃ existing, s.rooms.policy? c.self.scope policy.roomId = some existing ∧
      (s.rooms.room? c.self.scope policy.roomId).isSome = true ∧
      policy.key = existing.key ∧ policy.createdUtc = existing.createdUtc ∧
      1 ≤ policy.stagnationRounds ∧ (policy.mode ≠ .goal → 2 ≤ policy.maxMessages) ∧
      s'.rooms = { s.rooms with policies := upsert PolicyRow.key policy s.rooms.policies } ∧
      s'.mail = if policy.mode.automates then s.mail
        else stopForPolicy P (utcNow c.clock.entry)
          (openDiscussions c.self.scope policy.roomId s.mail) s.mail := by
  simp only [setRoomAutomation, bind_eq_ok, require_eq_ok, demand_eq_ok, pure_eq_ok, Prod.mk.injEq,
    boundedInteger_eq_ok] at h
  obtain ⟨roomId, -, mode, -, ⟨mr, mm⟩, hl, stag, ⟨rfl, h1, h5⟩, -, -, row, hman, existing, hpol,
    ⟨s₁, chain⟩, he, rfl, rfl⟩ := h
  obtain ⟨log, rfl⟩ := Store.event_ok he
  simp only [roomPolicy, bind_eq_ok, demand_eq_ok] at hpol
  obtain ⟨_, -, hpol⟩ := hpol
  have hkey := Rows.lookup_key hpol
  simp only [PolicyRow.key, Prod.mk.injEq] at hkey
  obtain ⟨hs, rfl⟩ := hkey
  have hroom := (room_ok.mp (requireRoomManager_ok hman).1).1
  refine ⟨existing, hpol, by rw [hroom]; rfl, rfl, rfl, ?_, fun hg => ?_, ?_, ?_⟩
  · show 1 ≤ a.stagnationRounds.toNat
    omega
  · simp only [automationLimits, if_neg hg, bind_eq_ok, boundedInteger_eq_ok, pure_eq_ok,
      Prod.mk.injEq] at hl
    obtain ⟨_, -, _, ⟨rfl, h2, -⟩, -, rfl⟩ := hl
    show 2 ≤ a.maxMessages.toNat
    omega
  · rw [Store.withAudit_rooms, apply_ite Store.rooms]
    simp
  · rw [Store.withAudit_mail, apply_ite Store.mail]
    rfl

theorem optionalIdentifier_ok {value label : String} {o : Option String}
    (h : optionalIdentifier value label = .ok o) : o.all isIdentifier = true := by
  unfold optionalIdentifier at h
  split at h
  · obtain rfl : none = o := by simpa using h
    rfl
  · cases hr : requireIdentifier (strip value) label with
    | error e => simp [hr, Functor.map, Except.map] at h
    | ok t =>
      obtain rfl : some t = o := by simpa [hr, Functor.map, Except.map] using h
      exact (requireIdentifier_ok hr).2

theorem upsertRouteProfile_ok {a : RouteProfileArgs} {row : RouteProfileRow}
    (h : upsertRouteProfile P c a s = .ok (s', row)) :
    s'.mail = s.mail ∧ s'.ledger = s.ledger ∧ (s'.rooms = s.rooms ∨
      (s.rooms.profile? c.self.scope row.routeId = none ∧ row.scope = c.self.scope ∧
        row.profileSha256 = routeProfileIdentitySha P row [] ∧ isIdentifier row.routeId = true ∧
        row.providerId.all isIdentifier = true ∧ row.reasoningMode.all isIdentifier = true ∧
        s'.rooms = { s.rooms with routeProfiles := s.rooms.routeProfiles ++ [row] })) := by
  simp only [upsertRouteProfile, bind_eq_ok, require_eq_ok, demand_eq_ok] at h
  obtain ⟨routeId, hroute, agentId, -, -, -, -, -, client, -, provider, hprov, model, -, response, -,
    timeout, -, reasoning, hreason, cls, -, -, -, h⟩ := h
  split at h
  · simp only [bind_eq_ok, require_eq_ok, pure_eq_ok, Prod.mk.injEq] at h
    obtain ⟨_, -, -, -, rfl, -⟩ := h
    exact ⟨rfl, rfl, .inl rfl⟩
  · rename_i hnone
    simp only [bind_eq_ok, pure_eq_ok, Prod.mk.injEq] at h
    obtain ⟨⟨s₁, chain⟩, he, rfl, rfl⟩ := h
    obtain ⟨a, rfl⟩ := Store.event_ok he
    exact ⟨rfl, rfl, .inr ⟨hnone, rfl, rfl, (requireIdentifier_ok hroute).2,
      optionalIdentifier_ok hprov, optionalIdentifier_ok hreason, rfl⟩⟩

end Specs

end PeerBridge
