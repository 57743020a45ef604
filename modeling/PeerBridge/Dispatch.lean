import PeerBridge.Messages

namespace PeerBridge
open Checked Rows

def maxLeaseSeconds : Int := 86400
def defaultDispatchLeaseSeconds : Int := 300
def maxDispatchAttempts : Int := 5
def defaultDispatchRetrySeconds : Int := 15
def maxDispatchRetrySeconds : Int := 86400
def claimScanLimit : Nat := 500

def clamp (low high value : Int) : Int := max low (min value high)

def Json.optUtc (t : Option Utc) : Json := t.elim .null .utc

def Json.epoch (q : Option ℚ) : Json := q.elim .null .real

def dispatchPayload (d : DispatchRow) : Json :=
  .obj [("scope", .str d.scope), ("message_id", .str d.messageId), ("agent_id", .str d.agentId),
    ("status", .str d.status.text), ("claimed_session_id", .opt d.claimedSessionId),
    ("lease_token_sha256", .optSha d.leaseTokenSha256),
    ("lease_expires_epoch", .epoch d.leaseExpiresEpoch),
    ("attempt_count", .int d.attemptCount), ("claimed_utc", .optUtc d.claimedUtc),
    ("updated_utc", .utc d.updatedUtc), ("completed_utc", .optUtc d.completedUtc),
    ("reply_message_id", .opt d.replyMessageId),
    ("inference_receipt_sha256", .optSha d.inferenceReceiptSha256),
    ("error_code", .opt d.errorCode)]

def sealDispatch (P : Platform) (d : DispatchRow) : DispatchRow :=
  { d with dispatchSha256 := P.stableSha256 (dispatchPayload d) }

def Store.putDispatch (P : Platform) (d : DispatchRow) (s : Store) : Store :=
  s.withMail (s.mail.putDispatch (sealDispatch P d))

def requireHeld (b : Bridge) (allowCompleted : Bool) (row : DispatchRow) :
    Except BridgeError Unit :=
  if allowCompleted = true ∧ row.status = .completed then
    require (row.claimedSessionId = some b.sessionId)
      (.bridge "message dispatch was completed by another session")
  else require (row.status = .claimed) (.bridge "message dispatch has no active lease")

def requireDispatchLease (P : Platform) (c : Ctx) (messageId leaseToken : String)
    (allowCompleted : Bool) (m : Mail) : Except BridgeError DispatchRow := do
  require (leaseToken ≠ "") (.bridge "lease_token is required")
  let row ← demand (m.dispatch? c.self.scope messageId c.self.agentId)
    (.bridge "message dispatch is not claimed by this agent")
  requireHeld c.self allowCompleted row
  require (row.claimedSessionId = some c.self.sessionId)
    (.bridge "message dispatch is claimed by another session")
  require (row.leaseTokenSha256 = some (P.sha256Bytes leaseToken))
    (.bridge "message dispatch lease token does not match")
  require (¬ (row.status = .claimed ∧
      row.leaseExpiresEpoch.any (fun e => e ≤ c.clock.locked) = true))
    (.bridge "message dispatch lease has expired")
  pure row

def retrySchedulePayload (r : RetryScheduleRow) : Json :=
  .obj [("scope", .str r.scope), ("message_id", .str r.messageId), ("agent_id", .str r.agentId),
    ("attempt_count", .int r.attemptCount), ("not_before_epoch", .real r.notBeforeEpoch),
    ("error_code", .str r.errorCode), ("created_utc", .utc r.createdUtc)]

def sealSchedule (P : Platform) (r : RetryScheduleRow) : RetryScheduleRow :=
  { r with scheduleSha256 := P.stableSha256 (retrySchedulePayload r) }

structure ClaimArgs where
  messageId : String := ""
  roomId : String := ""
  routeProfileId : String := ""
  requireRoute : Bool := false
  leaseSeconds : Int := defaultDispatchLeaseSeconds
  maxAttempts : Int := maxDispatchAttempts

structure ClaimRequest where
  messageId : Option String
  roomId : Option String
  routeProfileId : Option String
  requireRoute : Bool
  leaseSeconds : Int
  maxAttempts : Int

def requireClaimRequest (a : ClaimArgs) : Except BridgeError ClaimRequest := do
  let messageId ← optionalIdentifier a.messageId "message_id"
  let roomId ← optionalIdentifier a.roomId "room_id"
  let routeProfileId ← optionalIdentifier a.routeProfileId "route_profile_id"
  pure { messageId, roomId, routeProfileId, requireRoute := a.requireRoute,
         leaseSeconds := clamp 30 maxLeaseSeconds a.leaseSeconds,
         maxAttempts := clamp 1 100 a.maxAttempts }

def Mail.discussionIn (m : Mail) (scope discussionId : String) (allowed : List DiscussionStatus) :
    Bool :=
  (m.discussion? scope discussionId).any (fun d => d.status ∈ allowed)

def MessageRow.isPrompt (m : MessageRow) : Bool :=
  m.discussionId.isSome && m.discussionRole = some .prompt

def addressedTo (m : MessageRow) (agentId : String) : Bool :=
  m.recipient = agentId || m.recipient = "*"

def claimWhere (b : Bridge) (q : ClaimRequest) (m : Mail) (row : MessageRow) : Bool :=
  row.scope = b.scope && addressedTo row b.agentId && row.sender ≠ b.agentId &&
  (row.replyTo.isNone || row.isPrompt) &&
  (m.receipt? row.scope row.messageId b.agentId).isNone &&
  row.discussionId.all (fun d => m.discussionIn row.scope d [.active]) &&
  (!q.requireRoute || row.routeRequestSha256.isSome) &&
  q.messageId.all (fun t => row.messageId = t) &&
  q.roomId.all (fun t => row.roomId = t) &&
  q.routeProfileId.all (fun t => row.routeProfileId = some t)

def dispatchReady (P : Platform) (epoch : ℚ) (maxAttempts : Int) (dispatch : Option DispatchRow)
    (schedule : Option RetryScheduleRow) : Except BridgeError Bool :=
  let status := dispatch.map DispatchRow.status
  let attempts := (dispatch.map DispatchRow.attemptCount).getD 0
  if status.any DispatchStatus.terminal then pure false
  else do
    require (schedule.all (fun r => (sealSchedule P r).scheduleSha256 = r.scheduleSha256) = true)
      (.bridge "message dispatch retry schedule SHA mismatch")
    if status = some .retryable ∧ schedule.any (fun r => epoch < r.notBeforeEpoch) then pure false
    else if status = some .claimed ∧
        epoch < (dispatch.bind DispatchRow.leaseExpiresEpoch).getD 0 then pure false
    else pure (decide ((attempts : Int) < maxAttempts))

def Mail.dispatchSchedule? (m : Mail) (scope messageId agentId : String) :
    Option RetryScheduleRow :=
  (m.dispatch? scope messageId agentId).bind
    (fun d => m.retrySchedule? scope messageId agentId d.attemptCount)

def considerCandidate (P : Platform) (c : Ctx) (q : ClaimRequest) (s : Store)
    (row : MessageRow) : Except BridgeError Bool :=
  if isOk (requireRoomMember c.self row.roomId c.self.agentId s.rooms) = false then pure false
  else if truthy row.routeProfileId = true ∧ q.messageId.isSome = true ∧
      q.routeProfileId.isNone = true then
    throw (.bridge "route_profile_id is required to claim this routed message")
  else
    let route := evaluateRoute P c.self c.self.agentId s.rooms row
    if route.status = .mismatch ∧ q.messageId.isNone = true then pure false
    else do
      requireRoute route
      dispatchReady P c.clock.entry q.maxAttempts
        (s.mail.dispatch? row.scope row.messageId c.self.agentId)
        (s.mail.dispatchSchedule? row.scope row.messageId c.self.agentId)

def selectCandidate (P : Platform) (c : Ctx) (q : ClaimRequest) (s : Store) :
    List MessageRow → Except BridgeError (Option MessageRow)
  | [] => pure none
  | row :: rows => do
    let ready ← considerCandidate P c q s row
    if ready then pure (some row) else selectCandidate P c q s rows

def claimCandidates (b : Bridge) (q : ClaimRequest) (m : Mail) : List MessageRow :=
  (m.messages.filter (claimWhere b q m)).take claimScanLimit

structure ClaimGrant where
  leaseToken : String
  message : MessageRow
  dispatch : DispatchRow

def claimedDispatch (P : Platform) (c : Ctx) (q : ClaimRequest) (m : Mail) (row : MessageRow) :
    DispatchRow :=
  let now := utcNow c.clock.entry
  sealDispatch P
    { scope := c.self.scope, messageId := row.messageId, agentId := c.self.agentId,
      status := .claimed, claimedSessionId := some c.self.sessionId,
      leaseTokenSha256 := some (P.sha256Bytes c.token),
      leaseExpiresEpoch := some (c.clock.entry + q.leaseSeconds),
      attemptCount := ((m.dispatch? row.scope row.messageId c.self.agentId).map
        DispatchRow.attemptCount).getD 0 + 1,
      claimedUtc := some now, updatedUtc := now, completedUtc := none, replyMessageId := none,
      inferenceReceiptSha256 := none, errorCode := none, dispatchSha256 := zeroSha256 }

def claimMessageDispatch (P : Platform) (c : Ctx) (a : ClaimArgs) (s : Store) :
    Except BridgeError (Store × Option ClaimGrant) := do
  let q ← requireClaimRequest a
  let rows := claimCandidates c.self q s.mail
  let selected ← selectCandidate P c q s rows
  match selected with
  | none => do
    require (¬ (q.messageId.isSome = true ∧ rows = []))
      (.bridge "message is not available to this agent")
    pure (s, none)
  | some row => do
    let dispatch := claimedDispatch P c q s.mail row
    let (s, _) ← (s.withMail (s.mail.putDispatch dispatch)).event P c "message.dispatch_claimed"
      [("message_id", .str row.messageId), ("room_id", .str row.roomId),
        ("attempt_count", .int dispatch.attemptCount),
        ("lease_expires_epoch", .epoch dispatch.leaseExpiresEpoch),
        ("dispatch_sha256", .sha dispatch.dispatchSha256)] (some row.taskId)
    pure (s, some { leaseToken := c.token, message := row, dispatch })

structure RenewArgs where
  messageId : String
  leaseToken : String
  leaseSeconds : Int := defaultDispatchLeaseSeconds

def renewedDispatch (P : Platform) (now leaseSeconds : ℚ) (row : DispatchRow) : DispatchRow :=
  sealDispatch P { row with updatedUtc := utcNow now,
                            leaseExpiresEpoch := some (now + leaseSeconds) }

def renewMessageDispatch (P : Platform) (c : Ctx) (a : RenewArgs) (s : Store) :
    Except BridgeError (Store × DispatchRow) := do
  let messageId ← requireIdentifier a.messageId "message_id"
  let row ← requireDispatchLease P c messageId a.leaseToken false s.mail
  let _ ← demand (s.mail.message? c.self.scope messageId) (.bridge "source message is absent")
  let renewed := renewedDispatch P c.clock.later (clamp 30 maxLeaseSeconds a.leaseSeconds) row
  let (s, _) ← (s.withMail (s.mail.putDispatch renewed)).event P c "message.dispatch_renewed"
    [("message_id", .str messageId), ("lease_expires_epoch", .epoch renewed.leaseExpiresEpoch),
      ("dispatch_sha256", .sha renewed.dispatchSha256)] none
  pure (s, renewed)

structure FailArgs where
  messageId : String
  leaseToken : String
  errorCode : String
  retryable : Bool := true
  retryAfterSeconds : Int := defaultDispatchRetrySeconds

def failedDispatch (P : Platform) (now : Utc) (retryable : Bool) (errorCode : String)
    (row : DispatchRow) : DispatchRow :=
  sealDispatch P
    { row with status := if retryable then .retryable else .failed, claimedSessionId := none,
               leaseTokenSha256 := none, leaseExpiresEpoch := none, updatedUtc := now,
               errorCode := some errorCode }

def failMessageDispatch (P : Platform) (c : Ctx) (a : FailArgs) (s : Store) :
    Except BridgeError (Store × DispatchRow) := do
  let messageId ← requireIdentifier a.messageId "message_id"
  let errorCode ← requireIdentifier a.errorCode "error_code"
  let retryAfterSeconds := clamp 1 maxDispatchRetrySeconds a.retryAfterSeconds
  let row ← requireDispatchLease P c messageId a.leaseToken false s.mail
  let source ← demand (s.mail.message? c.self.scope messageId) (.bridge "source message is absent")
  let updated := utcNow c.clock.locked
  let failed := failedDispatch P updated a.retryable errorCode row
  let schedule := sealSchedule P
    { scope := c.self.scope, messageId, agentId := c.self.agentId,
      attemptCount := row.attemptCount, notBeforeEpoch := c.clock.later + retryAfterSeconds,
      errorCode, createdUtc := updated, scheduleSha256 := zeroSha256 }
  require (¬ (a.retryable = true ∧
      (s.mail.retrySchedule? c.self.scope messageId c.self.agentId row.attemptCount).isSome = true))
    (.integrity "message_dispatch_retry_schedules")
  let mail := if a.retryable then s.mail.addSchedule schedule else s.mail
  let (s, _) ← (s.withMail (mail.putDispatch failed)).event P c "message.dispatch_failed"
    [("message_id", .str messageId), ("status", .str failed.status.text),
      ("error_code", .str errorCode),
      ("retry_after_seconds", if a.retryable then .int retryAfterSeconds else .null),
      ("retry_not_before_epoch", if a.retryable then .real schedule.notBeforeEpoch else .null),
      ("retry_schedule_sha256", if a.retryable then .sha schedule.scheduleSha256 else .null),
      ("dispatch_sha256", .sha failed.dispatchSha256)] (some source.taskId)
  pure (s, failed)

@[simp] theorem sealDispatch_key (P : Platform) (d : DispatchRow) :
    (sealDispatch P d).key = d.key := rfl
@[simp] theorem sealDispatch_status (P : Platform) (d : DispatchRow) :
    (sealDispatch P d).status = d.status := rfl
@[simp] theorem sealDispatch_attemptCount (P : Platform) (d : DispatchRow) :
    (sealDispatch P d).attemptCount = d.attemptCount := rfl
@[simp] theorem sealDispatch_replyMessageId (P : Platform) (d : DispatchRow) :
    (sealDispatch P d).replyMessageId = d.replyMessageId := rfl

@[simp] theorem renewedDispatch_key (P : Platform) (now seconds : ℚ) (d : DispatchRow) :
    (renewedDispatch P now seconds d).key = d.key := rfl
@[simp] theorem failedDispatch_key (P : Platform) (now : Utc) (retry : Bool) (code : String)
    (d : DispatchRow) : (failedDispatch P now retry code d).key = d.key := rfl

theorem clamp_ge {low high value : Int} : low ≤ clamp low high value := le_max_left _ _

structure Holder (P : Platform) (c : Ctx) (messageId leaseToken : String) (m : Mail)
    (row : DispatchRow) : Prop where
  lookup_eq : m.dispatch? c.self.scope messageId c.self.agentId = some row
  session_eq : row.claimedSessionId = some c.self.sessionId
  token_eq : row.leaseTokenSha256 = some (P.sha256Bytes leaseToken)

theorem Holder.key_eq {P : Platform} {c : Ctx} {messageId leaseToken : String} {m : Mail}
    {row : DispatchRow} (h : Holder P c messageId leaseToken m row) :
    row.key = (c.self.scope, messageId, c.self.agentId) := Rows.lookup_key h.lookup_eq

section Specs
variable {P : Platform} {c : Ctx} {s s' : Store} {m : Mail}

theorem requireDispatchLease_replay {messageId leaseToken : String} {allow : Bool}
    {row : DispatchRow} (h : requireDispatchLease P c messageId leaseToken allow m = .ok row) :
    Holder P c messageId leaseToken m row ∧ (row.status = .claimed ∨ row.status = .completed) ∧
      (row.status = .claimed → ∀ e ∈ row.leaseExpiresEpoch, c.clock.locked < e) := by
  simp only [requireDispatchLease, bind_eq_ok, require_eq_ok, demand_eq_ok, pure_eq_ok] at h
  obtain ⟨-, -, x, hrow, u, hheld, -, hsession, -, htoken, -, hlive, rfl⟩ := h
  refine ⟨⟨hrow, hsession, htoken⟩, ?_, fun hc e he => ?_⟩
  · unfold requireHeld at hheld
    split at hheld
    · rename_i hdone
      exact .inr hdone.2
    · exact .inl (require_eq_ok.mp hheld)
  · rw [Option.mem_def.mp he] at hlive
    simpa [hc] using hlive

theorem requireDispatchLease_ok {messageId leaseToken : String} {row : DispatchRow}
    (h : requireDispatchLease P c messageId leaseToken false m = .ok row) :
    Holder P c messageId leaseToken m row ∧ row.status = .claimed ∧
      ∀ e ∈ row.leaseExpiresEpoch, c.clock.locked < e := by
  obtain ⟨hh, -, hlive⟩ := requireDispatchLease_replay h
  simp only [requireDispatchLease, bind_eq_ok, require_eq_ok, demand_eq_ok, pure_eq_ok] at h
  obtain ⟨-, -, x, -, u, hheld, -, -, -, -, -, -, rfl⟩ := h
  have hc : x.status = .claimed := by simpa [requireHeld] using hheld
  exact ⟨hh, hc, hlive hc⟩

theorem selectCandidate_some {q : ClaimRequest} {rows : List MessageRow} {row : MessageRow}
    (h : selectCandidate P c q s rows = .ok (some row)) :
    row ∈ rows ∧ considerCandidate P c q s row = .ok true := by
  induction rows with
  | nil => simp [selectCandidate] at h
  | cons x xs ih =>
    simp only [selectCandidate, bind_eq_ok] at h
    obtain ⟨ready, hr, h⟩ := h
    cases ready with
    | true =>
      obtain rfl : x = row := by simpa using h
      exact ⟨List.mem_cons_self, hr⟩
    | false =>
      obtain ⟨hm, hc⟩ := ih (by simpa using h)
      exact ⟨List.mem_cons_of_mem _ hm, hc⟩

theorem dispatchReady_true {epoch : ℚ} {maxAttempts : Int} {dispatch : Option DispatchRow}
    {schedule : Option RetryScheduleRow}
    (h : dispatchReady P epoch maxAttempts dispatch schedule = .ok true) :
    (∀ d ∈ dispatch, d.status.terminal = false) ∧
      (((dispatch.map DispatchRow.attemptCount).getD 0 : Nat) : Int) < maxAttempts := by
  simp only [dispatchReady] at h
  split at h
  · simp at h
  · rename_i hterm
    simp only [bind_eq_ok] at h
    obtain ⟨-, -, h⟩ := h
    split at h
    · simp at h
    · split at h
      · simp at h
      · refine ⟨fun d hd => ?_, by simpa using h⟩
        rw [Option.mem_def.mp hd] at hterm
        simpa using hterm

structure Claimable (P : Platform) (c : Ctx) (q : ClaimRequest) (s : Store) (row : MessageRow) :
    Prop where
  mem : row ∈ s.mail.messages
  eligible : claimWhere c.self q s.mail row = true
  ready : dispatchReady P c.clock.entry q.maxAttempts
    (s.mail.dispatch? row.scope row.messageId c.self.agentId)
    (s.mail.dispatchSchedule? row.scope row.messageId c.self.agentId) = .ok true

theorem considerCandidate_true {q : ClaimRequest} {row : MessageRow}
    (h : considerCandidate P c q s row = .ok true) :
    dispatchReady P c.clock.entry q.maxAttempts
      (s.mail.dispatch? row.scope row.messageId c.self.agentId)
      (s.mail.dispatchSchedule? row.scope row.messageId c.self.agentId) = .ok true := by
  simp only [considerCandidate] at h
  split at h
  · simp at h
  · split at h
    · simp at h
    · split at h
      · simp at h
      · simp only [bind_eq_ok] at h
        exact h.choose_spec.2

theorem claimMessageDispatch_ok {a : ClaimArgs} {g : Option ClaimGrant}
    (h : claimMessageDispatch P c a s = .ok (s', g)) :
    (g = none ∧ s' = s) ∨ ∃ q row, requireClaimRequest a = .ok q ∧ Claimable P c q s row ∧
      s'.mail = s.mail.putDispatch (claimedDispatch P c q s.mail row) ∧ s'.rooms = s.rooms ∧
      g = some { leaseToken := c.token, message := row,
                 dispatch := claimedDispatch P c q s.mail row } := by
  simp only [claimMessageDispatch, bind_eq_ok] at h
  obtain ⟨q, hq, selected, hsel, h⟩ := h
  cases selected with
  | none =>
    simp only [bind_eq_ok, pure_eq_ok, Prod.mk.injEq] at h
    obtain ⟨-, -, rfl, rfl⟩ := h
    exact .inl ⟨rfl, rfl⟩
  | some row =>
    simp only [bind_eq_ok, pure_eq_ok, Prod.mk.injEq] at h
    obtain ⟨⟨s₁, chain⟩, he, rfl, rfl⟩ := h
    obtain ⟨hm, hr, -⟩ := Store.event_frame he
    obtain ⟨hmem, hc⟩ := selectCandidate_some hsel
    have hf := List.mem_filter.mp (List.mem_of_mem_take hmem)
    exact .inr ⟨q, row, hq, ⟨hf.1, hf.2, considerCandidate_true hc⟩, hm, hr, rfl⟩

theorem renewMessageDispatch_ok {a : RenewArgs} {d : DispatchRow}
    (h : renewMessageDispatch P c a s = .ok (s', d)) :
    ∃ row seconds, Holder P c (strip a.messageId) a.leaseToken s.mail row ∧
      row.status = .claimed ∧ d = renewedDispatch P c.clock.later seconds row ∧
      s'.mail = s.mail.putDispatch d ∧ s'.rooms = s.rooms := by
  simp only [renewMessageDispatch, bind_eq_ok, demand_eq_ok, pure_eq_ok, Prod.mk.injEq] at h
  obtain ⟨messageId, hid, row, hrow, -, -, ⟨s₁, chain⟩, he, rfl, rfl⟩ := h
  obtain ⟨rfl, -⟩ := requireIdentifier_ok hid
  obtain ⟨hm, hr, -⟩ := Store.event_frame he
  obtain ⟨hh, hc, -⟩ := requireDispatchLease_ok hrow
  exact ⟨row, _, hh, hc, rfl, hm, hr⟩

theorem failMessageDispatch_ok {a : FailArgs} {d : DispatchRow}
    (h : failMessageDispatch P c a s = .ok (s', d)) :
    ∃ errorCode row notBefore, Holder P c (strip a.messageId) a.leaseToken s.mail row ∧
      row.status = .claimed ∧
      d = failedDispatch P (utcNow c.clock.locked) a.retryable errorCode row ∧
      s'.rooms = s.rooms ∧ s'.mail = (if a.retryable then s.mail.addSchedule (sealSchedule P
        { scope := c.self.scope, messageId := strip a.messageId, agentId := c.self.agentId,
          attemptCount := row.attemptCount, notBeforeEpoch := notBefore, errorCode,
          createdUtc := utcNow c.clock.locked, scheduleSha256 := zeroSha256 })
        else s.mail).putDispatch d := by
  simp only [failMessageDispatch, bind_eq_ok, require_eq_ok, demand_eq_ok, pure_eq_ok,
    Prod.mk.injEq] at h
  obtain ⟨messageId, hid, code, -, row, hrow, source, -, -, -, ⟨s₁, chain⟩, he, rfl, rfl⟩ := h
  obtain ⟨rfl, -⟩ := requireIdentifier_ok hid
  obtain ⟨hm, hr, -⟩ := Store.event_frame he
  obtain ⟨hh, hc, -⟩ := requireDispatchLease_ok hrow
  exact ⟨code, row, _, hh, hc, rfl, hr, hm⟩

end Specs

end PeerBridge
