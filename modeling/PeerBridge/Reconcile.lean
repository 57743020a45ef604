import PeerBridge.Discussion

namespace PeerBridge
open Checked Rows

structure ObservationArgs where
  messageId : String
  routeRequestSha256 : String
  matchCount : Int

structure Observation where
  messageId : String
  routeRequestSha256 : Sha256
  matchCount : Int
  deriving DecidableEq

def Observation.sha (P : Platform) (o : Observation) : Sha256 :=
  P.stableSha256 (.obj [("message_id", .str o.messageId),
    ("route_request_sha256", .sha o.routeRequestSha256), ("match_count", .int o.matchCount)])

def requireObservation (seen : List Observation) (o : ObservationArgs) :
    Except BridgeError Observation := do
  let messageId ← requireIdentifier o.messageId "message_id"
  let sha ← requireSha256 o.routeRequestSha256 "route_request_sha256"
  let matchCount ← boundedInteger o.matchCount "match_count" 0 1000
  require (matchCount ≠ 1)
    (.bridge "route runtime observations only describe terminal match counts")
  require (∀ x ∈ seen, x.messageId ≠ messageId)
    (.bridge "route runtime observation is duplicated")
  pure { messageId, routeRequestSha256 := sha, matchCount }

def requireObservations :
    List Observation → List ObservationArgs → Except BridgeError (List Observation)
  | seen, [] => pure seen
  | seen, o :: os => do
    let o ← requireObservation seen o
    requireObservations (seen ++ [o]) os

structure ReconcileArgs where
  limit : Int := 250
  maxAttempts : Int := maxDispatchAttempts
  observations : List ObservationArgs := []

def Mail.attempts (m : Mail) (row : MessageRow) (agentId : String) : Nat :=
  ((m.dispatch? row.scope row.messageId agentId).map DispatchRow.attemptCount).getD 0

def Mail.settled (m : Mail) (row : MessageRow) (agentId : String) : Bool :=
  (m.dispatch? row.scope row.messageId agentId).any (fun d => d.status.terminal)

def reconcileWhere (scope : String) (m : Mail) (row : MessageRow) : Bool :=
  row.scope = scope && row.recipient ≠ "*" && row.sender ≠ row.recipient &&
  row.replyTo.isNone && row.routeRequestSha256.isSome &&
  (m.receipt? row.scope row.messageId row.recipient).isNone &&
  row.discussionId.all (fun d => m.discussionIn row.scope d [.active]) &&
  !m.settled row row.recipient

def reconcileRows (scope : String) (m : Mail) : List MessageRow :=
  m.messages.filter (reconcileWhere scope m)

def seatError (scope : String) (r : Rooms) (row : MessageRow) : Option String :=
  if row.roomId = defaultRoomId then none
  else match r.activeRoomMember scope row.roomId row.recipient with
    | none => some "room_seat_unavailable"
    | some m =>
      if m.routeProfileId.getD "" ≠ row.routeProfileId.getD "" then some "room_seat_route_changed"
      else none

def MessageRow.routeArgs (row : MessageRow) : RouteArgs :=
  { routeProfileId := row.routeProfileId.getD "",
    requestedProviderId := row.requestedProviderId.getD "",
    requestedModelId := row.requestedModelId.getD "",
    requestedReasoningMode := row.requestedReasoningMode.getD "",
    requestedRouteClass := (row.requestedRouteClass.map RouteClass.text).getD "" }

def routeError (P : Platform) (scope : String) (r : Rooms) (row : MessageRow) : Option String :=
  match resolveRouteRequest P scope row.recipient row.routeArgs r with
  | .error _ => some "route_profile_unavailable"
  | .ok current => if current = routeRequestFromRow row then none else some "route_profile_changed"

def reconcileError (P : Platform) (scope : String) (epoch : ℚ) (maxAttempts : Int) (r : Rooms)
    (m : Mail) (row : MessageRow) (observed : Option Observation) : Option String :=
  let leaseActive := (m.dispatch? row.scope row.messageId row.recipient).any
    (fun d => d.status = .claimed && epoch < d.leaseExpiresEpoch.getD 0)
  ((seatError scope r row).or (routeError P scope r row)).or
    (if leaseActive then none
     else if maxAttempts ≤ m.attempts row row.recipient then some "dispatch_attempts_exhausted"
     else observed.map (fun o => if o.matchCount = 0 then "route_runtime_unavailable"
       else "route_runtime_ambiguous"))

def reconciledDispatch (P : Platform) (scope errorCode : String) (now : Utc) (m : Mail)
    (row : MessageRow) : DispatchRow :=
  let old := m.dispatch? row.scope row.messageId row.recipient
  sealDispatch P
    { scope, messageId := row.messageId, agentId := row.recipient, status := .failed,
      claimedSessionId := none, leaseTokenSha256 := none, leaseExpiresEpoch := none,
      attemptCount := m.attempts row row.recipient,
      claimedUtc := old.bind DispatchRow.claimedUtc, updatedUtc := now, completedUtc := some now,
      replyMessageId := none, inferenceReceiptSha256 := none, errorCode := some errorCode,
      dispatchSha256 := zeroSha256 }

structure Reconciled where
  row : MessageRow
  dispatch : DispatchRow
  observationSha256 : Option Sha256

def reconcileRow (P : Platform) (scope : String) (now : Utc) (epoch : ℚ) (maxAttempts : Int)
    (r : Rooms) (m : Mail) (observations : List Observation) (row : MessageRow) :
    Except BridgeError (Option Reconciled) := do
  let observed := observations.find? (fun o => o.messageId = row.messageId)
  require (observed.all (fun o => row.routeRequestSha256 = some o.routeRequestSha256) = true)
    (.bridge "route runtime observation does not match the message route SHA")
  pure ((reconcileError P scope epoch maxAttempts r m row observed).map (fun code =>
    { row, dispatch := reconciledDispatch P scope code now m row,
      observationSha256 := observed.map (Observation.sha P) }))

-- the rows are read before the first write, and no write changes what a later row reads
def reconcileEach (P : Platform) (scope : String) (now : Utc) (epoch : ℚ) (maxAttempts : Int)
    (r : Rooms) (m : Mail) (observations : List Observation) :
    List MessageRow → Except BridgeError (List Reconciled)
  | [] => pure []
  | row :: rows => do
    let x ← reconcileRow P scope now epoch maxAttempts r m observations row
    let xs ← reconcileEach P scope now epoch maxAttempts r m observations rows
    pure (x.toList ++ xs)

def putReconciled (xs : List Reconciled) (m : Mail) : Mail :=
  xs.foldl (fun m x => m.putDispatch x.dispatch) m

def Reconciled.payload (x : Reconciled) : Json :=
  .obj [("message_id", .str x.row.messageId), ("discussion_id", .opt x.row.discussionId),
    ("agent_id", .str x.row.recipient), ("error_code", .opt x.dispatch.errorCode),
    ("route_runtime_observation_sha256", .optSha x.observationSha256),
    ("dispatch_sha256", .sha x.dispatch.dispatchSha256)]

def reconcileMessageDispatches (P : Platform) (c : Ctx) (a : ReconcileArgs) (s : Store) :
    Except BridgeError (Store × List Reconciled) := do
  requireCoordinator c.self "only the discussion coordinator may reconcile dispatches"
  let limit ← boundedInteger a.limit "limit" 1 1000
  let maxAttempts ← boundedInteger a.maxAttempts "max_attempts" 1 100
  let observations ← requireObservations [] a.observations
  let rows := (reconcileRows c.self.scope s.mail).take limit.toNat
  let xs ← reconcileEach P c.self.scope (utcNow c.clock.entry) c.clock.entry maxAttempts s.rooms
    s.mail observations rows
  require (∀ o ∈ observations, ∃ row ∈ rows, row.messageId = o.messageId)
    (.bridge "route runtime observation does not identify a pending routed message")
  let s := s.withMail (putReconciled xs s.mail)
  if xs = [] then pure (s, xs)
  else do
    let (s, _) ← s.event P c "message.dispatches_reconciled"
      [("count", .int xs.length), ("dispatches", .arr (xs.map Reconciled.payload))] none
    pure (s, xs)

section Specs
variable {P : Platform} {scope : String} {now : Utc} {epoch : ℚ} {maxAttempts : Int} {r : Rooms}
  {m : Mail} {observations : List Observation}

structure Settles (P : Platform) (scope : String) (now : Utc) (epoch : ℚ) (maxAttempts : Int)
    (r : Rooms) (m : Mail) (observations : List Observation) (x : Reconciled) : Prop where
  error_eq : ∃ code, reconcileError P scope epoch maxAttempts r m x.row
      (observations.find? (fun o => o.messageId = x.row.messageId)) = some code ∧
    x.dispatch = reconciledDispatch P scope code now m x.row

theorem reconcileRow_ok {row : MessageRow} {x : Option Reconciled}
    (h : reconcileRow P scope now epoch maxAttempts r m observations row = .ok x) :
    x.map Reconciled.row = (reconcileError P scope epoch maxAttempts r m row
      (observations.find? (fun o => o.messageId = row.messageId))).map (fun _ => row) ∧
    ∀ y ∈ x, y.row = row ∧ Settles P scope now epoch maxAttempts r m observations y := by
  simp only [reconcileRow, bind_eq_ok, require_eq_ok, pure_eq_ok] at h
  obtain ⟨-, -, rfl⟩ := h
  refine ⟨by rw [Option.map_map]; rfl, fun y hy => ?_⟩
  obtain ⟨code, hcode, rfl⟩ := Option.map_eq_some_iff.mp hy
  exact ⟨rfl, code, hcode, rfl⟩

theorem reconcileEach_ok {rows : List MessageRow} {xs : List Reconciled}
    (h : reconcileEach P scope now epoch maxAttempts r m observations rows = .ok xs) :
    xs.map Reconciled.row = rows.filter (fun row =>
      (reconcileError P scope epoch maxAttempts r m row
        (observations.find? (fun o => o.messageId = row.messageId))).isSome) ∧
    ∀ x ∈ xs, Settles P scope now epoch maxAttempts r m observations x := by
  induction rows generalizing xs with
  | nil =>
    obtain rfl : [] = xs := by simpa [reconcileEach] using h
    simp
  | cons row rows ih =>
    simp only [reconcileEach, bind_eq_ok, pure_eq_ok] at h
    obtain ⟨x, hx, ys, hys, rfl⟩ := h
    obtain ⟨hxr, hxs⟩ := reconcileRow_ok hx
    obtain ⟨hyr, hyss⟩ := ih hys
    constructor
    · rw [List.map_append, hyr, List.filter_cons]
      cases x with
      | none =>
        have : (reconcileError P scope epoch maxAttempts r m row
            (observations.find? (fun o => o.messageId = row.messageId))) = none := by
          simpa using hxr.symm
        simp [this]
      | some y =>
        have : (reconcileError P scope epoch maxAttempts r m row
            (observations.find? (fun o => o.messageId = row.messageId))).isSome = true := by
          cases he : reconcileError P scope epoch maxAttempts r m row
              (observations.find? (fun o => o.messageId = row.messageId)) with
          | none => simp [he] at hxr
          | some _ => rfl
        simp [this, (hxs y rfl).1]
    · intro y hy
      rcases List.mem_append.mp hy with hy | hy
      · exact (hxs y (Option.mem_toList.mp hy)).2
      · exact hyss y hy

theorem dispatch?_putReconciled (xs : List Reconciled) (m : Mail) (s id agent : String) :
    (∃ x ∈ xs, x.dispatch.key = (s, id, agent) ∧
      (putReconciled xs m).dispatch? s id agent = some x.dispatch) ∨
    ((∀ x ∈ xs, x.dispatch.key ≠ (s, id, agent)) ∧
      (putReconciled xs m).dispatch? s id agent = m.dispatch? s id agent) := by
  unfold putReconciled
  induction xs generalizing m with
  | nil => exact .inr ⟨by simp, rfl⟩
  | cons x xs ih =>
    rw [List.foldl_cons]
    rcases ih (m.putDispatch x.dispatch) with ⟨y, hy, hk, he⟩ | ⟨hn, he⟩
    · exact .inl ⟨y, List.mem_cons_of_mem _ hy, hk, he⟩
    · by_cases hk : x.dispatch.key = (s, id, agent)
      · exact .inl ⟨x, List.mem_cons_self, hk, by rw [he, Mail.dispatch?_putDispatch, if_pos hk]⟩
      · refine .inr ⟨fun y hy => ?_, by rw [he, Mail.dispatch?_putDispatch, if_neg hk]⟩
        rcases List.mem_cons.mp hy with rfl | hy
        · exact hk
        · exact hn y hy

theorem putReconciled_frame (xs : List Reconciled) (m : Mail) :
    ∃ ds, putReconciled xs m = { m with dispatches := ds } := by
  unfold putReconciled
  induction xs generalizing m with
  | nil => exact ⟨m.dispatches, rfl⟩
  | cons x xs ih =>
    obtain ⟨ds, h⟩ := ih (m.putDispatch x.dispatch)
    exact ⟨ds, h⟩

theorem reconcileMessageDispatches_ok {c : Ctx} {a : ReconcileArgs} {s s' : Store}
    {xs : List Reconciled} (h : reconcileMessageDispatches P c a s = .ok (s', xs)) :
    ∃ (limit : Nat) (attempts : Int) (os : List Observation),
      requireObservations [] a.observations = .ok os ∧ 1 ≤ limit ∧ limit = a.limit.toNat ∧
      attempts = a.maxAttempts ∧ 1 ≤ attempts ∧
      reconcileEach P c.self.scope (utcNow c.clock.entry) c.clock.entry attempts s.rooms s.mail os
        ((reconcileRows c.self.scope s.mail).take limit) = .ok xs ∧
      s'.mail = putReconciled xs s.mail ∧ s'.rooms = s.rooms := by
  simp only [reconcileMessageDispatches, bind_eq_ok, boundedInteger_eq_ok, require_eq_ok] at h
  obtain ⟨-, -, limit, ⟨rfl, h1, h2⟩, attempts, ⟨rfl, h3, -⟩, os, hos, ys, hys, -, -, h⟩ := h
  split at h
  · rename_i hnil
    simp only [pure_eq_ok, Prod.mk.injEq] at h
    obtain ⟨rfl, rfl⟩ := h
    exact ⟨_, _, os, hos, by omega, rfl, rfl, h3, hys, rfl, rfl⟩
  · simp only [bind_eq_ok, pure_eq_ok, Prod.mk.injEq] at h
    obtain ⟨⟨s₁, chain⟩, he, rfl, rfl⟩ := h
    obtain ⟨hm, hr, -⟩ := Store.event_frame he
    exact ⟨_, _, os, hos, by omega, rfl, rfl, h3, hys, hm, hr⟩

end Specs

end PeerBridge
