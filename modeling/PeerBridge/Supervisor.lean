import PeerBridge.Reconcile

namespace PeerBridge

structure RouteRuntime where
  routeId : String
  agentId : String
  providerId : String
  modelId : String
  reasoningMode : Option String
  routeClass : RouteClass

def supervisorAttempts (maxAttempts : Int) : Int := clamp 1 100 maxAttempts

def pendingWhere (scope : String) (maxAttempts : Int) (epoch : ℚ) (m : Mail) (row : MessageRow) :
    Bool :=
  let d := m.dispatch? row.scope row.messageId row.recipient
  row.scope = scope && row.recipient ≠ "*" && row.sender ≠ row.recipient &&
  (row.replyTo.isNone || row.isPrompt) && row.routeRequestSha256.isSome &&
  (m.receipt? row.scope row.messageId row.recipient).isNone &&
  d.all (fun d => !d.status.terminal) && d.all (fun d => (d.attemptCount : Int) < maxAttempts) &&
  d.all (fun d => d.status ≠ .retryable ||
    (m.dispatchSchedule? row.scope row.messageId row.recipient).all
      (fun r => r.notBeforeEpoch ≤ epoch)) &&
  row.discussionId.all (fun id => m.discussionIn row.scope id [.active])

def pendingRouteRequests (scope : String) (maxAttempts : Int) (epoch : ℚ) (m : Mail) :
    List MessageRow :=
  (m.messages.filter (pendingWhere scope (supervisorAttempts maxAttempts) epoch m)).take 500

def expects (expected : Option String) (observed : String) : Bool :=
  !truthy expected || expected = some observed

def routeMatchesRequest (route : RouteRuntime) (row : MessageRow) : Bool :=
  row.recipient = route.agentId && expects row.routeProfileId route.routeId &&
  expects row.requestedProviderId route.providerId &&
  expects row.requestedModelId route.modelId &&
  expects row.requestedReasoningMode (route.reasoningMode.getD "") &&
  row.requestedRouteClass.all (fun k => k = route.routeClass)

def matchCount (routes : List RouteRuntime) (row : MessageRow) : Nat :=
  (routes.filter (fun route => routeMatchesRequest route row)).length

def observation (routes : List RouteRuntime) (row : MessageRow) : ObservationArgs :=
  { messageId := row.messageId, routeRequestSha256 := (row.routeRequestSha256.map Sha256.hex).getD "",
    matchCount := matchCount routes row }

def terminalRouteRuntimeObservations (routes : List RouteRuntime) (rows : List MessageRow) :
    List ObservationArgs :=
  (rows.filter (fun row => matchCount routes row ≠ 1)).map (observation routes)

def cycleReconciliation (P : Platform) (c : Ctx) (maxAttempts : Int) (routes : List RouteRuntime)
    (epoch : ℚ) (s : Store) : Except BridgeError (Store × List Reconciled) :=
  reconcileMessageDispatches P c
    { limit := 500, maxAttempts := supervisorAttempts maxAttempts,
      observations := terminalRouteRuntimeObservations routes
        (pendingRouteRequests c.self.scope maxAttempts epoch s.mail) } s

end PeerBridge
