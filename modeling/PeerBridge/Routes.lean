import PeerBridge.Audit

namespace PeerBridge
open Checked Rows

def truthy (o : Option String) : Bool := o.getD "" ≠ ""

def orElse (a b : Option String) : Option String := if truthy a then a else b

structure RouteArgs where
  routeProfileId : String := ""
  requestedProviderId : String := ""
  requestedModelId : String := ""
  requestedReasoningMode : String := ""
  requestedRouteClass : String := ""

structure RouteRequest where
  routeProfileId : Option String
  targetAgentId : String
  requestedProviderId : Option String
  requestedModelId : Option String
  requestedReasoningMode : Option String
  requestedRouteClass : Option RouteClass
  routeProfileSha256 : Option (Option Sha256)
  routeRequestSha256 : Option Sha256
  deriving DecidableEq

-- the outer option of routeProfileSha256 is the presence of the key in the request
def RouteRequest.content (r : RouteRequest) : Json :=
  .obj ([("route_profile_id", .opt r.routeProfileId), ("target_agent_id", .str r.targetAgentId),
    ("requested_provider_id", .opt r.requestedProviderId),
    ("requested_model_id", .opt r.requestedModelId),
    ("requested_reasoning_mode", .opt r.requestedReasoningMode),
    ("requested_route_class", .opt (r.requestedRouteClass.map RouteClass.text))] ++
    (r.routeProfileSha256.map (fun sha => [("route_profile_sha256", Json.optSha sha)])).getD [])

def RouteRequest.contentBinding (r : RouteRequest) : Json :=
  .obj [("route_profile_id", .opt r.routeProfileId), ("target_agent_id", .str r.targetAgentId),
    ("requested_provider_id", .opt r.requestedProviderId),
    ("requested_model_id", .opt r.requestedModelId),
    ("requested_reasoning_mode", .opt r.requestedReasoningMode),
    ("requested_route_class", .opt (r.requestedRouteClass.map RouteClass.text)),
    ("route_request_sha256", .optSha r.routeRequestSha256)]

def routeProfileIdentityFields (row : RouteProfileRow) : List (String × Json) :=
  [("scope", .str row.scope), ("route_id", .str row.routeId), ("agent_id", .str row.agentId),
    ("client_name", .opt row.clientName), ("provider_id", .opt row.providerId),
    ("model_id", .opt row.modelId), ("response_model_id", .opt row.responseModelId),
    ("inference_timeout_seconds",
      row.inferenceTimeoutSeconds.elim .null (fun n => .int n)),
    ("reasoning_mode", .opt row.reasoningMode), ("route_class", .str row.routeClass.text),
    ("enabled", .bool row.enabled)]

def RouteProfileRow.sameIdentity (p q : RouteProfileRow) : Bool :=
  p.scope = q.scope && p.routeId = q.routeId && p.agentId = q.agentId &&
  p.clientName = q.clientName && p.providerId = q.providerId && p.modelId = q.modelId &&
  p.responseModelId = q.responseModelId &&
  p.inferenceTimeoutSeconds = q.inferenceTimeoutSeconds && p.reasoningMode = q.reasoningMode &&
  p.routeClass = q.routeClass && p.enabled = q.enabled

def routeProfileIdentitySha (P : Platform) (row : RouteProfileRow) (dropped : List String) :
    Sha256 :=
  P.stableSha256 (.obj ((routeProfileIdentityFields row).filter (fun f => f.1 ∉ dropped)))

def verifiedRouteProfileSha256 (P : Platform) (row : RouteProfileRow) :
    Except BridgeError Sha256 := do
  let stored := row.profileSha256
  require (stored = routeProfileIdentitySha P row [] ∨
      (row.inferenceTimeoutSeconds = none ∧
        (stored = routeProfileIdentitySha P row ["inference_timeout_seconds"] ∨
          (row.responseModelId = none ∧
            stored = routeProfileIdentitySha P row
              ["inference_timeout_seconds", "response_model_id"]))))
    (.bridge "route profile identity SHA mismatch")
  pure stored

def optionalRouteClass (value label : String) : Except BridgeError (Option RouteClass) :=
  let text := lower (strip value)
  if text = "" then pure none
  else match RouteClass.parse? text with
    | some c => pure (some c)
    | none => throw (.bridge (label ++ " must be official, relay or local"))

def Rooms.enabledProfile? (r : Rooms) (scope routeId : String) : Option RouteProfileRow :=
  (r.profile? scope routeId).filter RouteProfileRow.enabled

def mergeRequested (routeId label : String) (requested profile : Option String) :
    Except BridgeError (Option String) := do
  require (¬ (truthy requested = true ∧ truthy profile = true ∧ requested ≠ profile))
    (.bridge ("requested_" ++ label ++ " conflicts with route profile " ++ routeId))
  pure (orElse requested profile)

def mergeRequestedClass (routeId : String) (requested : Option RouteClass)
    (profile : RouteClass) : Except BridgeError (Option RouteClass) := do
  require (¬ (requested.isSome = true ∧ requested ≠ some profile))
    (.bridge ("requested_route_class conflicts with route profile " ++ routeId))
  pure (some (requested.getD profile))

def sealRequest (P : Platform) (r : RouteRequest) : RouteRequest :=
  { r with routeRequestSha256 := some (P.stableSha256 r.content) }

def resolveRouteRequest (P : Platform) (scope recipient : String) (args : RouteArgs) (r : Rooms) :
    Except BridgeError (Option RouteRequest) := do
  let routeProfileId ← optionalIdentifier args.routeProfileId "route_profile_id"
  let providerId ← optionalIdentifier args.requestedProviderId "requested_provider_id"
  let modelId ← optionalIdentifier args.requestedModelId "requested_model_id"
  let reasoningMode ← optionalIdentifier args.requestedReasoningMode "requested_reasoning_mode"
  let routeClass ← optionalRouteClass args.requestedRouteClass "requested_route_class"
  match routeProfileId with
  | some routeId =>
    let row ← demand (r.enabledProfile? scope routeId)
      (.bridge "route profile is not found or is disabled")
    let sha ← verifiedRouteProfileSha256 P row
    require (recipient = row.agentId)
      (.bridge ("route profile " ++ routeId ++ " targets " ++ row.agentId ++ ", not " ++ recipient))
    let providerId ← mergeRequested routeId "provider_id" providerId row.providerId
    let modelId ← mergeRequested routeId "model_id" modelId row.modelId
    let reasoningMode ← mergeRequested routeId "reasoning_mode" reasoningMode row.reasoningMode
    let routeClass ← mergeRequestedClass routeId routeClass row.routeClass
    require (recipient ≠ "*") (.bridge "model-routed messages require one explicit recipient")
    pure (some (sealRequest P
      { routeProfileId := some routeId, targetAgentId := recipient,
        requestedProviderId := providerId, requestedModelId := modelId,
        requestedReasoningMode := reasoningMode, requestedRouteClass := routeClass,
        routeProfileSha256 := some (some sha), routeRequestSha256 := none }))
  | none =>
    if providerId = none ∧ modelId = none ∧ reasoningMode = none ∧ routeClass = none then pure none
    else do
      require (recipient ≠ "*") (.bridge "model-routed messages require one explicit recipient")
      require (routeClass ≠ none)
        (.bridge "routed messages require route_profile_id or requested_route_class")
      pure (some (sealRequest P
        { routeProfileId := none, targetAgentId := recipient, requestedProviderId := providerId,
          requestedModelId := modelId, requestedReasoningMode := reasoningMode,
          requestedRouteClass := routeClass, routeProfileSha256 := none,
          routeRequestSha256 := none }))

def routeRequestFromRow (m : MessageRow) : Option RouteRequest :=
  let keyed := truthy m.routeProfileId || m.routeProfileSha256.isSome
  if m.routeRequestSha256.isNone && !truthy m.routeProfileId && !truthy m.requestedProviderId &&
      !truthy m.requestedModelId && !truthy m.requestedReasoningMode &&
      m.requestedRouteClass.isNone && m.routeProfileSha256.isNone then none
  else some
    { routeProfileId := m.routeProfileId, targetAgentId := m.recipient,
      requestedProviderId := m.requestedProviderId, requestedModelId := m.requestedModelId,
      requestedReasoningMode := m.requestedReasoningMode,
      requestedRouteClass := m.requestedRouteClass,
      routeProfileSha256 := if keyed then some m.routeProfileSha256 else none,
      routeRequestSha256 := m.routeRequestSha256 }

inductive RouteStatus where
  | notRequested | verified | mismatch
  deriving DecidableEq, Repr

structure RouteEvaluation where
  status : RouteStatus
  mismatches : List String

def profileIdentityMatches (P : Platform) (scope routeId : String) (sha : Option Sha256)
    (r : Rooms) : Bool :=
  match r.enabledProfile? scope routeId with
  | none => false
  | some current =>
    match verifiedRouteProfileSha256 P current with
    | .error _ => false
    | .ok currentSha => sha = some currentSha

def note (c : Bool) (label : String) : List String := if c then [label] else []

def RouteRequest.mismatches (P : Platform) (b : Bridge) (consumer : String) (r : Rooms)
    (q : RouteRequest) : List String :=
  note (consumer ≠ b.agentId || q.targetAgentId ≠ b.agentId) "agent_id" ++
  note (q.routeRequestSha256 ≠ some (P.stableSha256 q.content)) "route_request_sha256" ++
  (if truthy q.routeProfileId then
    note (!profileIdentityMatches P b.scope (q.routeProfileId.getD "")
      (q.routeProfileSha256.getD none) r) "route_profile_sha256"
  else note (q.routeProfileSha256.getD none).isSome "route_profile_sha256") ++
  note (q.requestedRouteClass.isNone || b.routeClass.isNone ||
    q.requestedRouteClass ≠ b.routeClass) "route_class" ++
  note (truthy q.requestedProviderId && q.requestedProviderId ≠ b.providerId) "provider_id" ++
  note (truthy q.requestedModelId && q.requestedModelId ≠ b.modelId) "model_id" ++
  note (truthy q.requestedReasoningMode && q.requestedReasoningMode ≠ b.reasoningMode)
    "reasoning_mode"

def evaluateRoute (P : Platform) (b : Bridge) (consumer : String) (r : Rooms) (m : MessageRow) :
    RouteEvaluation :=
  match routeRequestFromRow m with
  | none => { status := .notRequested, mismatches := [] }
  | some q =>
    let bad := q.mismatches P b consumer r
    { status := if bad = [] then .verified else .mismatch, mismatches := bad }

def requireRoute (e : RouteEvaluation) : Except BridgeError Unit :=
  require (e.status ≠ .mismatch)
    (.bridge ("route request is not satisfied by this runtime identity: " ++
      String.intercalate ", " e.mismatches))

end PeerBridge
