import PeerBridge.Completion

namespace PeerBridge
open Checked Rows

def maxDiscussionContextChars : Nat := 100000
def freeDiscussionMinContributions : Nat := 3

def isLineBreak (c : Char) : Bool :=
  (10 ≤ c.toNat && c.toNat ≤ 13) || (28 ≤ c.toNat && c.toNat ≤ 30) || c.toNat = 0x85 ||
  c.toNat = 0x2028 || c.toNat = 0x2029

-- re.IGNORECASE also equates the two dotted I, the long s and the Kelvin sign
def foldCase (c : Char) : Char :=
  if c.toNat = 0x130 || c.toNat = 0x131 then 'i'
  else if c.toNat = 0x17f then 's'
  else if c.toNat = 0x212a then 'k'
  else lowerAscii c

-- str.upper leaves the dotted capital I and the Kelvin sign as they are
def upperChar (c : Char) : Char :=
  if c.toNat = 0x131 then 'I' else if c.toNat = 0x17f then 'S' else upperAscii c

def signalMatch (line : List Char) : Option (List Char) :=
  let key := "peerbridge_signal".toList
  if (line.take key.length).map foldCase = key then
    match (line.drop key.length).dropWhile isSpace with
    | ':' :: rest =>
      let word := rest.dropWhile isSpace
      if word.map foldCase ∈ ["continue".toList, "consensus".toList, "blocked".toList] then
        some word
      else none
    | _ => none
  else none

def bodyLines (body : String) : List (List Char) :=
  ((body.toList.splitOnP isLineBreak).map stripChars).filter (· ≠ [])

def discussionSignal (body : String) : String :=
  let found := (bodyLines body).map signalMatch
  match found.getLast?, found.dropLast.all Option.isNone with
  | some (some word), true => String.ofList (word.map upperChar)
  | _, _ => "INVALID"

def normalizedDiscussionDigest (P : Platform) (rows : List MessageRow) : Sha256 :=
  P.stableSha256 (.arr ((rows.insertionSort (fun a b => a.sender ≤ b.sender)).map (fun row =>
    .obj [("sender", .str row.sender), ("signal", .str (discussionSignal row.body)),
      ("body_sha256", .sha (P.sha256Bytes (P.foldWhitespaceLower row.body)))])))

def contribution (row : MessageRow) : String := "\n[" ++ row.sender ++ "]\n" ++ strip row.body

def discussionContext (rows : List MessageRow) (roundNumber : Nat) : String :=
  String.intercalate "\n" (["DISCUSSION ROUND " ++ toString roundNumber ++ " COMPLETE.",
    "Review the peer contributions below. Add only new evidence, resolve disagreements, " ++
    "or state a concrete blocker. End with exactly one line: " ++
    "PEERBRIDGE_SIGNAL: CONTINUE, CONSENSUS, or BLOCKED."] ++ rows.map contribution)

def freeDiscussionContext (rows : List MessageRow) (eventNumber : Nat)
    (triggerSender rootBody : String) : String :=
  String.join (["FREE DISCUSSION EVENT " ++ toString eventNumber ++ ".",
    triggerSender ++ " has just added a contribution. Do not wait for a fixed turn order. ",
    "Continue your current work without interruption, then review the recent peer contributions ",
    "below. Add only new evidence, resolve a disagreement, or state a concrete blocker. ",
    "End with exactly one line: PEERBRIDGE_SIGNAL: CONTINUE, CONSENSUS, or BLOCKED.",
    "\n\n[PINNED ROOT]\n" ++ strip rootBody] ++ rows.map contribution)

namespace Mail

def ofDiscussion (m : Mail) (scope discussionId : String) (role : DiscussionRole) :
    List MessageRow :=
  m.messages.filter (fun x => x.scope = scope ∧ x.discussionId = some discussionId ∧
    x.discussionRole = some role)

def prompts (m : Mail) (scope discussionId : String) (roundNumber : Nat) : List MessageRow :=
  ((m.ofDiscussion scope discussionId .prompt).filter
    (fun x => x.discussionRound = some roundNumber)).insertionSort
      (fun a b => a.recipient ≤ b.recipient)

def cancellable (m : Mail) (scope discussionId : String) (d : DispatchRow) : Bool :=
  d.scope = scope && !d.status.terminal && (m.message? d.scope d.messageId).any
    (fun x => x.discussionId = some discussionId ∧ x.discussionRole = some .prompt)

end Mail

def cancelledDispatch (P : Platform) (errorCode : String) (now : Utc) (d : DispatchRow) :
    DispatchRow :=
  sealDispatch P
    { d with status := .failed, claimedSessionId := none, leaseTokenSha256 := none,
             leaseExpiresEpoch := none, updatedUtc := now, completedUtc := some now,
             replyMessageId := none, inferenceReceiptSha256 := none,
             errorCode := some errorCode }

def cancelDiscussionDispatches (P : Platform) (scope discussionId errorCode : String) (now : Utc)
    (m : Mail) : Mail :=
  { m with dispatches := m.dispatches.map (fun d =>
      if m.cancellable scope discussionId d then cancelledDispatch P errorCode now d else d) }

def cancelCount (scope discussionId : String) (m : Mail) : Nat :=
  (m.dispatches.filter (m.cancellable scope discussionId)).length

def Store.cancelDispatches (P : Platform) (scope discussionId errorCode : String) (now : Utc)
    (s : Store) : Store :=
  s.withMail (cancelDiscussionDispatches P scope discussionId errorCode now s.mail)

def participant (P : Platform) (scope : String) (r : Rooms) (row : MessageRow) :
    Except BridgeError Seat := do
  let agentId := row.recipient
  let routeId := row.routeProfileId.getD ""
  let label := "discussion participant " ++ agentId
  require (routeId ≠ "") (.bridge (label ++ " has no bound route profile"))
  require ((r.activeRoomMember scope row.roomId agentId).any
      (fun m => m.routeProfileId.getD "" = routeId) = true)
    (.bridge (label ++ " is unavailable or changed route"))
  let bound ← demand (routeRequestFromRow row) (.bridge (label ++ " has no bound route request"))
  require (bound.routeRequestSha256 = some (P.stableSha256 bound.content))
    (.bridge (label ++ " route request SHA mismatch"))
  let current ← resolveRouteRequest P scope agentId { routeProfileId := routeId } r
  require (current = some bound) (.bridge (label ++ " route profile changed"))
  pure { agentId, routeProfileId := routeId, request := bound }

def discussionParticipants (P : Platform) (scope discussionId : String) (s : Store) :
    Except BridgeError (List Seat) := do
  let rows := s.mail.prompts scope discussionId 1
  require (rows ≠ []) (.bridge "discussion participant snapshot is missing")
  rows.mapM (participant P scope s.rooms)

def Seat.draft (seat : Seat) (d : DiscussionRow) (roundNumber : Nat) (subject body : String)
    (replyTo : Option String) (created : Utc) : Draft :=
  { roomId := d.roomId, taskId := d.taskId, sender := discussionOrchestratorId,
    recipient := seat.agentId, subject, body, priority := "normal", replyTo,
    request := some seat.request, discussion := some (d.discussionId, roundNumber, .prompt),
    createdUtc := created }

structure Advance where
  discussionId : String
  processedRound : Nat
  currentRound : Nat
  status : DiscussionStatus
  stopReason : Option StopReason
  newPromptCount : Nat
  trigger : Option MessageRow

def DiscussionRow.advance (d : DiscussionRow) (newPromptCount : Nat)
    (trigger : Option MessageRow) : Advance :=
  { discussionId := d.discussionId, processedRound := d.processedRound,
    currentRound := d.currentRound, status := d.status, stopReason := d.stopReason,
    newPromptCount, trigger }

def errorText : BridgeError → String
  | .bridge t => t
  | .integrity t => t

def blockParticipants (P : Platform) (c : Ctx) (eventType : String) (e : BridgeError)
    (extra : List (String × Json)) (d blocked : DiscussionRow) (s : Store) :
    Except BridgeError (Store × Advance) := do
  let now := utcNow c.clock.locked
  let blocked := { blocked with status := .waitingHuman, stopReason := some .participantUnavailable }
  let count := cancelCount c.self.scope d.discussionId s.mail
  let s := (s.cancelDispatches P c.self.scope d.discussionId "discussion_participant_unavailable"
    now).storeDiscussionState P now blocked
  let (s, _) ← s.event P c eventType
    ([("discussion_id", .str d.discussionId), ("status", .str "waiting_human"),
      ("stop_reason", .str "participant_unavailable"), ("detail", .str (errorText e)),
      ("cancelled_dispatch_count", .int count),
      ("discussion_sha256", .sha (sealDiscussion P now blocked).discussionSha256)] ++ extra)
    (some d.taskId)
  pure (s, blocked.advance 0 none)

namespace Mail

def latestPrompt (m : Mail) (scope discussionId : String) (x : MessageRow) : Bool :=
  (m.ofDiscussion scope discussionId .prompt).all
    (fun y => y.recipient ≠ x.recipient || y.sequence ≤ x.sequence)

def dispatchFailed (m : Mail) (x : MessageRow) : Bool :=
  (m.dispatch? x.scope x.messageId x.recipient).any (fun d => d.status = .failed)

def latestTerminal (m : Mail) (scope discussionId : String) : Option MessageRow :=
  (m.ofDiscussion scope discussionId .prompt).find?
    (fun x => m.dispatchFailed x && m.latestPrompt scope discussionId x)

def leaseLive (epoch : ℚ) (d : DispatchRow) : Bool :=
  d.status = .claimed && d.leaseExpiresEpoch.any (fun e => epoch < e)

def inFlight (m : Mail) (epoch : ℚ) (scope discussionId : String) : Bool :=
  (m.ofDiscussion scope discussionId .prompt).any
    (fun x => (m.dispatch? x.scope x.messageId x.recipient).any (leaseLive epoch))

def hasFollowup (m : Mail) (scope discussionId : String) (reply : MessageRow) : Bool :=
  (m.ofDiscussion scope discussionId .prompt).any (fun x => x.replyTo = some reply.messageId)

def freeTrigger (m : Mail) (scope discussionId : String) : Option MessageRow :=
  (m.ofDiscussion scope discussionId .response).find?
    (fun x => !m.hasFollowup scope discussionId x)

end Mail

def latestBySender (rows : List MessageRow) (agentId : String) : Option MessageRow :=
  (rows.filter (fun x => x.sender = agentId)).getLast?

def allLatestSignal (rows : List MessageRow) (participants : List String) (signal : String) :
    Bool :=
  participants.all (fun a =>
    (latestBySender rows a).any (fun x => discussionSignal x.body = signal))

def minimumContributionsMet (rows : List MessageRow) (participants : List String) : Bool :=
  participants.all (fun a =>
    freeDiscussionMinContributions ≤ (rows.filter (fun x => x.sender = a)).length)

def isStagnant (d : DiscussionRow) (digest : Sha256) : Bool := d.lastRoundDigest = some digest

structure FreeStep where
  response : MessageRow
  signal : String
  consensus : Bool
  blocked : Bool
  digest : Sha256
  stagnationCount : Nat
  messageCount : Nat
  nextEvent : Nat
  targets : List Seat

def freeStep (P : Platform) (scope : String) (m : Mail) (d : DiscussionRow)
    (participants : List Seat) (response : MessageRow) : FreeStep :=
  let ids := participants.map Seat.agentId
  let rows := m.ofDiscussion scope d.discussionId .response
  let digest := normalizedDiscussionDigest P [response]
  { response, signal := discussionSignal response.body,
    consensus := minimumContributionsMet rows ids && allLatestSignal rows ids "CONSENSUS",
    blocked := allLatestSignal rows ids "BLOCKED", digest,
    stagnationCount := if isStagnant d digest then d.stagnationCount + 1 else 0,
    messageCount := d.messageCount + 1, nextEvent := d.currentRound + 1,
    targets := participants.filter (fun seat => seat.agentId ≠ response.sender) }

def FreeStep.verdict (f : FreeStep) (d : DiscussionRow) : DiscussionStatus × Option StopReason :=
  if f.signal = "INVALID" then (.waitingHuman, some .malformedSignal)
  else if f.consensus then (.completed, some .consensus)
  else if f.blocked then (.waitingHuman, some .allAgentsBlocked)
  else if d.maxRounds ≠ 0 ∧ d.maxRounds < f.nextEvent then (.waitingHuman, some .eventLimit)
  else if d.maxMessages ≠ 0 ∧ d.maxMessages < f.messageCount + f.targets.length then
    (.waitingHuman, some .messageLimit)
  else if d.stagnationRounds ≤ f.stagnationCount then (.waitingHuman, some .stagnation)
  else if f.targets = [] then (.completed, some .singleAgentComplete)
  else (.active, none)

def rootPrompt (scope discussionId : String) (m : Mail) : Option MessageRow :=
  (m.ofDiscussion scope discussionId .prompt).find? (fun x => x.discussionRound = some 1)

def FreeStep.context (f : FreeStep) (scope : String) (d : DiscussionRow) (m : Mail) : String :=
  let rows := m.ofDiscussion scope d.discussionId .response
  freeDiscussionContext (rows.drop (rows.length - 8)) f.nextEvent f.response.sender
    (((rootPrompt scope d.discussionId m).map MessageRow.body).getD "")

def FreeStep.outcome (f : FreeStep) (scope : String) (d : DiscussionRow) (m : Mail) :
    DiscussionStatus × Option StopReason :=
  if (f.verdict d).1 = .active then
    if maxDiscussionContextChars < (f.context scope d m).length then
      (.waitingHuman, some .contextLimit)
    else if (rootPrompt scope d.discussionId m).isNone then
      (.waitingHuman, some .rootContextMissing)
    else f.verdict d
  else f.verdict d

def FreeStep.drafts (f : FreeStep) (scope : String) (d : DiscussionRow) (m : Mail) (now : Utc) :
    List Draft :=
  if (f.outcome scope d m).1 = .active then
    f.targets.map (fun seat => seat.draft d f.nextEvent
      ("Re: " ++ d.subject ++ " // free event " ++ toString f.nextEvent) (f.context scope d m)
      (some f.response.messageId) now)
  else []

def FreeStep.after (f : FreeStep) (outcome : DiscussionStatus × Option StopReason)
    (newPrompts : Nat) (d : DiscussionRow) : DiscussionRow :=
  { d with status := outcome.1, currentRound := f.nextEvent, processedRound := f.nextEvent,
           messageCount := f.messageCount + newPrompts, stagnationCount := f.stagnationCount,
           lastRoundDigest := some f.digest, stopReason := outcome.2 }

def blockFailedDispatch (P : Platform) (c : Ctx) (d : DiscussionRow) (failed : MessageRow)
    (s : Store) : Except BridgeError (Store × Advance) := do
  let now := utcNow c.clock.locked
  let blocked := { d with status := .waitingHuman, stopReason := some .agentDispatchFailed }
  let errorCode := (s.mail.dispatch? failed.scope failed.messageId failed.recipient).bind
    DispatchRow.errorCode
  let s := s.storeDiscussionState P now blocked
  let (s, _) ← s.event P c "discussion.free_blocked"
    [("discussion_id", .str d.discussionId), ("status", .str "waiting_human"),
      ("stop_reason", .str "agent_dispatch_failed"), ("agent_id", .str failed.recipient),
      ("message_id", .str failed.messageId), ("error_code", .opt errorCode),
      ("discussion_sha256", .sha (sealDiscussion P now blocked).discussionSha256)]
    (some d.taskId)
  pure (s, blocked.advance 0 none)

def takeFreeStep (P : Platform) (c : Ctx) (d : DiscussionRow) (f : FreeStep) (s : Store) :
    Except BridgeError (Store × Advance) := do
  let now := utcNow c.clock.locked
  let outcome := f.outcome c.self.scope d s.mail
  let (s, rows) ← insertPrompts P c (f.drafts c.self.scope d s.mail now) s
  let updated := f.after outcome rows.length d
  let s := s.storeDiscussionState P now updated
  let (s, _) ← s.event P c "discussion.free_event_advanced"
    [("discussion_id", .str d.discussionId),
      ("trigger_message_id", .str f.response.messageId),
      ("trigger_sender", .str f.response.sender), ("event_number", .int f.nextEvent),
      ("signal", .str f.signal), ("status", .str updated.status.text),
      ("stop_reason", .opt (updated.stopReason.map StopReason.text)),
      ("new_prompt_count", .int rows.length),
      ("discussion_sha256", .sha (sealDiscussion P now updated).discussionSha256)]
    (some d.taskId)
  pure (s, updated.advance rows.length (some f.response))

def idle (s : Store) : Except BridgeError (Store × Option Advance) := pure (s, none)

def advanced (x : Except BridgeError (Store × Advance)) :
    Except BridgeError (Store × Option Advance) := do
  let (s, a) ← x
  pure (s, some a)

def advanceFreeDiscussionLocked (P : Platform) (c : Ctx) (d : DiscussionRow) (s : Store) :
    Except BridgeError (Store × Option Advance) :=
  match discussionParticipants P c.self.scope d.discussionId s with
  | .error e => advanced (blockParticipants P c "discussion.free_blocked" e [] d d s)
  | .ok participants =>
    match s.mail.latestTerminal c.self.scope d.discussionId with
    | some failed =>
      if s.mail.inFlight c.clock.locked c.self.scope d.discussionId then idle s
      else advanced (blockFailedDispatch P c d failed s)
    | none =>
      match s.mail.freeTrigger c.self.scope d.discussionId with
      | none => idle s
      | some response =>
        advanced (takeFreeStep P c d (freeStep P c.self.scope s.mail d participants response) s)

namespace Mail

def dispatchesOf (m : Mail) (x : MessageRow) : List DispatchRow :=
  m.dispatches.filter (fun d => d.scope = x.scope ∧ d.messageId = x.messageId)

def roundResponses (m : Mail) (scope discussionId : String) (roundNumber : Nat) :
    List MessageRow :=
  ((m.prompts scope discussionId roundNumber).flatMap (fun x =>
    (m.dispatchesOf x).filterMap (fun d =>
      if d.status = .completed then d.replyMessageId.bind (m.message? d.scope) else none))
    ).insertionSort (fun a b => a.sender ≤ b.sender)

def terminalCount (m : Mail) (scope discussionId : String) (roundNumber : Nat) : Nat :=
  ((m.prompts scope discussionId roundNumber).flatMap (fun x =>
    (m.dispatchesOf x).filter (fun d => d.status = .failed))).length

end Mail

structure RoundStep where
  responses : List MessageRow
  promptCount : Nat
  terminal : Nat
  digest : Sha256
  stagnationCount : Nat
  messageCount : Nat
  participants : List Seat

def roundStep (P : Platform) (scope : String) (m : Mail) (d : DiscussionRow)
    (participants : List Seat) : RoundStep :=
  let responses := m.roundResponses scope d.discussionId d.currentRound
  let digest := normalizedDiscussionDigest P responses
  { responses, promptCount := (m.prompts scope d.discussionId d.currentRound).length,
    terminal := m.terminalCount scope d.discussionId d.currentRound, digest,
    stagnationCount := if isStagnant d digest then d.stagnationCount + 1 else 0,
    messageCount := d.messageCount + responses.length, participants }

def RoundStep.allSignal (r : RoundStep) (p : String → Bool) : Bool :=
  r.responses.all (fun x => p (discussionSignal x.body))

def RoundStep.complete (r : RoundStep) : Bool := r.responses.length = r.promptCount

def RoundStep.verdict (r : RoundStep) (d : DiscussionRow) :
    DiscussionStatus × Option StopReason :=
  if r.terminal ≠ 0 then (.waitingHuman, some .agentDispatchFailed)
  else if r.complete && !r.allSignal (· ≠ "INVALID") then (.waitingHuman, some .malformedSignal)
  else if r.complete && r.allSignal (· = "CONSENSUS") then (.completed, some .consensus)
  else if r.complete && r.allSignal (· = "BLOCKED") then (.waitingHuman, some .allAgentsBlocked)
  else if d.maxRounds ≠ 0 ∧ d.maxRounds ≤ d.currentRound then (.waitingHuman, some .roundLimit)
  else if d.maxMessages ≠ 0 ∧ d.maxMessages < r.messageCount + 2 * r.participants.length then
    (.waitingHuman, some .messageLimit)
  else if d.stagnationRounds ≤ r.stagnationCount then (.waitingHuman, some .stagnation)
  else (.active, none)

def RoundStep.outcome (r : RoundStep) (d : DiscussionRow) : DiscussionStatus × Option StopReason :=
  if (r.verdict d).1 = .active ∧
      maxDiscussionContextChars < (discussionContext r.responses d.currentRound).length then
    (.waitingHuman, some .contextLimit)
  else r.verdict d

def roundDrafts (d : DiscussionRow) (seats : List Seat) (body : String) (now : Utc) :
    List Draft :=
  let next := d.currentRound + 1
  seats.map (fun seat => seat.draft d next
    ("Re: " ++ d.subject ++ " // round " ++ toString next) body none now)

def RoundStep.drafts (r : RoundStep) (d : DiscussionRow) (now : Utc) : List Draft :=
  if (r.outcome d).1 = .active then
    roundDrafts d r.participants (discussionContext r.responses d.currentRound) now
  else []

def RoundStep.after (r : RoundStep) (newPrompts : Nat) (d : DiscussionRow) : DiscussionRow :=
  { d with status := (r.outcome d).1,
           currentRound := if (r.outcome d).1 = .active then d.currentRound + 1
             else d.currentRound,
           processedRound := d.currentRound, messageCount := r.messageCount + newPrompts,
           stagnationCount := r.stagnationCount, lastRoundDigest := some r.digest,
           stopReason := (r.outcome d).2 }

def takeRoundStep (P : Platform) (c : Ctx) (d : DiscussionRow) (r : RoundStep) (s : Store) :
    Except BridgeError (Store × Advance) := do
  let now := utcNow c.clock.locked
  let (s, rows) ← insertPrompts P c (r.drafts d now) s
  let updated := r.after rows.length d
  let s := s.storeDiscussionState P now updated
  let (s, _) ← s.event P c "discussion.round_advanced"
    [("discussion_id", .str d.discussionId), ("processed_round", .int d.currentRound),
      ("next_round", .int updated.currentRound), ("status", .str updated.status.text),
      ("stop_reason", .opt (updated.stopReason.map StopReason.text)),
      ("response_count", .int r.responses.length),
      ("terminal_failure_count", .int r.terminal), ("new_prompt_count", .int rows.length),
      ("round_digest", .sha r.digest),
      ("discussion_sha256", .sha (sealDiscussion P now updated).discussionSha256)]
    (some d.taskId)
  pure (s, updated.advance rows.length none)

def advanceRound (P : Platform) (c : Ctx) (d : DiscussionRow) (s : Store) :
    Except BridgeError (Store × Option Advance) :=
  if s.mail.prompts c.self.scope d.discussionId d.currentRound = [] then idle s
  else match discussionParticipants P c.self.scope d.discussionId s with
  | .error e =>
    let responses := s.mail.roundResponses c.self.scope d.discussionId d.currentRound
    advanced (blockParticipants P c "discussion.round_blocked" e
      [("processed_round", .int d.currentRound), ("response_count", .int responses.length)] d
      { d with processedRound := d.currentRound,
               messageCount := d.messageCount + responses.length } s)
  | .ok participants => do
    let r := roundStep P c.self.scope s.mail d participants
    require (r.promptCount = participants.length)
      (.bridge "discussion prompt participant set drifted")
    if r.responses.length + r.terminal < r.promptCount then idle s
    else advanced (takeRoundStep P c d r s)

structure AdvanceArgs where
  roomId : String := ""
  limit : Int := 10

def requireCoordinator (b : Bridge) (text : String) : Except BridgeError Unit :=
  require (b.agentId = discussionCoordinatorId ∧ b.discussionCoordinator = true) (.bridge text)

def advanceWhere (scope : String) (roomId : Option String) (r : Rooms) (d : DiscussionRow) :
    Bool :=
  d.scope = scope && d.status = .active &&
  (r.policy? d.scope d.roomId).any
    (fun p => d.processedRound < d.currentRound || p.mode.isFree) &&
  roomId.all (fun t => d.roomId = t)

def discussionBefore (a b : DiscussionRow) : Prop :=
  a.updatedUtc < b.updatedUtc ∨ (a.updatedUtc = b.updatedUtc ∧ a.discussionId ≤ b.discussionId)

instance : DecidableRel discussionBefore := fun _ _ => inferInstanceAs (Decidable (_ ∨ _))

def advanceOrder (scope : String) (roomId : Option String) (s : Store) : List DiscussionRow :=
  (s.mail.discussions.filter (advanceWhere scope roomId s.rooms)).insertionSort discussionBefore

def automationMode (r : Rooms) (d : DiscussionRow) : Option RoomMode :=
  (r.policy? d.scope d.roomId).map PolicyRow.mode

def advanceOne (P : Platform) (c : Ctx) (mode : Option RoomMode) (d : DiscussionRow)
    (s : Store) : Except BridgeError (Store × Option Advance) :=
  if mode.any RoomMode.isFree then advanceFreeDiscussionLocked P c d s else advanceRound P c d s

def advanceEach (P : Platform) (c : Ctx) :
    List DiscussionRow → Store → Except BridgeError (Store × List Advance)
  | [], s => pure (s, [])
  | d :: ds, s => do
    let (s, a) ← advanceOne P c (automationMode s.rooms d) d s
    let (s, as) ← advanceEach P c ds s
    pure (s, a.toList ++ as)

def selectDiscussions (b : Bridge) (a : AdvanceArgs) (s : Store) :
    Except BridgeError (List DiscussionRow) := do
  requireCoordinator b "only the discussion coordinator may advance rounds"
  let roomId ← optionalIdentifier a.roomId "room_id"
  let limit ← boundedInteger a.limit "limit" 1 100
  pure ((advanceOrder b.scope roomId s).take limit.toNat)

def advanceDiscussions (P : Platform) (c : Ctx) (a : AdvanceArgs) (s : Store) :
    Except BridgeError (Store × List Advance) := do
  let selected ← selectDiscussions c.self a s
  advanceEach P c selected s

inductive ControlAction where
  | pause | resume | stop | continue
  deriving DecidableEq, Repr

def ControlAction.text : ControlAction → String
  | .pause => "pause"
  | .resume => "resume"
  | .stop => "stop"
  | .continue => "continue"

def ControlAction.parse? (t : String) : Option ControlAction :=
  [ControlAction.pause, .resume, .stop, .continue].find? (fun a => a.text = t)

structure ControlArgs where
  discussionId : String
  action : String
  extraRounds : Int := 2

def continueLimits (d : DiscussionRow) (extraRounds : Nat) : DiscussionRow :=
  { d with status := .active, stopReason := none,
           maxRounds := if d.maxRounds = 0 then 0
             else min maxDiscussionRounds (max d.maxRounds (d.currentRound + extraRounds)) }

def continueContext (d : DiscussionRow) (m : Mail) : String :=
  discussionContext (((m.ofDiscussion d.scope d.discussionId .response).filter
    (fun x => x.discussionRound = some d.currentRound)).insertionSort
      (fun a b => a.sender ≤ b.sender)) d.currentRound ++
  "\n\nA human operator explicitly requested another bounded round."

def continueDiscussion (P : Platform) (c : Ctx) (extraRounds : Nat) (d : DiscussionRow)
    (s : Store) : Except BridgeError (Store × DiscussionRow × Nat) := do
  require (d.status = .waitingHuman ∨ d.status = .paused)
    (.bridge "continue requires a paused or waiting discussion")
  let limited := continueLimits d extraRounds
  if d.processedRound < d.currentRound then pure (s, limited, 0)
  else do
    require (¬ (limited.maxRounds ≠ 0 ∧ maxDiscussionRounds ≤ d.currentRound))
      (.bridge "discussion reached the absolute round limit")
    let seats ← discussionParticipants P c.self.scope d.discussionId s
    require (¬ (d.maxMessages ≠ 0 ∧ maxDiscussionMessages < d.messageCount + 2 * seats.length))
      (.bridge "discussion reached the absolute message limit")
    let context := continueContext d s.mail
    require (context.length ≤ maxDiscussionContextChars)
      (.bridge "discussion context reached the absolute size limit")
    let (s, rows) ← insertPrompts P c (roundDrafts d seats context (utcNow c.clock.entry)) s
    pure (s, { limited with
      currentRound := d.currentRound + 1, messageCount := d.messageCount + rows.length,
      maxMessages := if d.maxMessages = 0 then 0
        else min maxDiscussionMessages
          (max d.maxMessages (d.messageCount + seats.length * 2 * extraRounds)) }, rows.length)

def controlUpdate (P : Platform) (c : Ctx) (action : ControlAction) (extraRounds : Nat)
    (d : DiscussionRow) (s : Store) : Except BridgeError (Store × DiscussionRow × Nat) :=
  match action with
  | .pause => do
    require (d.status = .active) (.bridge "only an active discussion can pause")
    pure (s, { d with status := .paused, stopReason := some .humanPaused }, 0)
  | .stop => do
    require (d.status.isOpen = true) (.bridge "only an open discussion can stop")
    pure (s.cancelDispatches P c.self.scope d.discussionId "discussion_stopped"
      (utcNow c.clock.entry), { d with status := .stopped, stopReason := some .humanStopped }, 0)
  | .resume => do
    require (d.status = .paused) (.bridge "only a paused discussion can resume")
    pure (s, { d with status := .active, stopReason := none }, 0)
  | .continue => continueDiscussion P c extraRounds d s

def controlDiscussion (P : Platform) (c : Ctx) (a : ControlArgs) (s : Store) :
    Except BridgeError (Store × DiscussionRow) := do
  let discussionId ← requireIdentifier a.discussionId "discussion_id"
  let action ← demand (ControlAction.parse? (lower (strip a.action)))
    (.bridge "action must be pause, resume, stop or continue")
  let extraRounds ← boundedInteger a.extraRounds "extra_rounds" 1 10
  let now := utcNow c.clock.entry
  let d ← demand (s.mail.discussion? c.self.scope discussionId) (.bridge "discussion not found")
  let _ ← requireRoomManager c.self d.roomId s.rooms
  let cancelled := if action = .stop then cancelCount c.self.scope discussionId s.mail else 0
  let (s, updated, prompts) ← controlUpdate P c action extraRounds.toNat d s
  let s := s.storeDiscussionState P now updated
  let (s, _) ← s.event P c "discussion.controlled"
    [("discussion_id", .str discussionId), ("action", .str action.text),
      ("status", .str updated.status.text), ("max_rounds", .int updated.maxRounds),
      ("max_messages", .int updated.maxMessages), ("new_prompt_count", .int prompts),
      ("cancelled_dispatch_count", .int cancelled),
      ("discussion_sha256", .sha (sealDiscussion P now updated).discussionSha256)]
    (some d.taskId)
  pure (s, sealDiscussion P now updated)

def supersede (P : Platform) (c : Ctx) (replacement : String) :
    List DiscussionRow → Store → Except BridgeError Store
  | [], s => pure s
  | d :: ds, s => do
    let now := utcNow c.clock.entry
    let count := cancelCount c.self.scope d.discussionId s.mail
    let s := (s.cancelDispatches P c.self.scope d.discussionId "discussion_superseded"
      now).storeDiscussionState P now
        { d with status := .stopped, stopReason := some .supersededByNewPost }
    let (s, _) ← s.event P c "discussion.superseded"
      [("discussion_id", .str d.discussionId),
        ("replacement_discussion_id", .str replacement),
        ("cancelled_dispatch_count", .int count)] (some d.taskId)
    supersede P c replacement ds s

def newDiscussion (P : Platform) (c : Ctx) (p : Post) (policy : PolicyRow) (messageCount : Nat) :
    DiscussionRow :=
  let now := utcNow c.clock.entry
  sealDiscussion P now
    { scope := c.self.scope, discussionId := c.uuid.text, roomId := p.roomId,
      taskId := p.taskId, subject := p.subject, starterAgentId := c.self.agentId,
      status := .active, currentRound := 1, processedRound := 0, maxRounds := policy.maxRounds,
      maxMessages := policy.maxMessages, stagnationRounds := policy.stagnationRounds,
      messageCount, stagnationCount := 0, lastRoundDigest := none, stopReason := none,
      createdUtc := now, updatedUtc := now, discussionSha256 := zeroSha256 }

def openDiscussion (P : Platform) (c : Ctx) (p : Post) (policy : PolicyRow) (s : Store) :
    Except BridgeError (Store × List MessageRow) := do
  let now := utcNow c.clock.entry
  let prepared ← routedRoomSeats P c p.roomId (some c.self.agentId) s.rooms
  require (¬ (policy.maxMessages ≠ 0 ∧ policy.maxMessages < 2 * prepared.length))
    (.bridge ("max_messages cannot fit one complete discussion round for all " ++
      toString prepared.length ++ " routed Agent seats; requires at least " ++
      toString (2 * prepared.length)))
  let s ← supersede P c c.uuid.text (openDiscussions c.self.scope p.roomId s.mail) s
  let (s, rows) ← insertPrompts P c (prepared.map (fun seat =>
    { p.draft c.self.agentId seat.agentId now with
      request := some seat.request, discussion := some (c.uuid.text, 1, .prompt) })) s
  require ((s.mail.discussion? c.self.scope c.uuid.text).isNone = true)
    (.integrity "room_discussions")
  let d := newDiscussion P c p policy rows.length
  let (s, _) ← (s.withMail (s.mail.putDiscussion d)).event P c "discussion.started"
    [("discussion_id", .str d.discussionId), ("discussion_sha256", .sha d.discussionSha256),
      ("room_id", .str p.roomId), ("round", .int 1), ("message_count", .int rows.length),
      ("policy_sha256", .sha policy.policySha256)] (some p.taskId)
  pure (s, rows)

def postHistory (P : Platform) (c : Ctx) (p : Post) (s : Store) :
    Except BridgeError (Store × List MessageRow) := do
  let (s, row) ← insertReserved P c
    (p.draft c.self.agentId c.self.agentId (utcNow c.clock.entry)) s
  let (s, _) ← s.event P c "message.room_history_posted"
    [("message_id", .str row.messageId), ("room_id", .str p.roomId),
      ("sequence", .int row.sequence), ("content_sha256", .sha row.contentSha256)]
    (some p.taskId)
  pure (s, [row])

def postRoomMessage (P : Platform) (c : Ctx) (a : PostArgs) (s : Store) :
    Except BridgeError (Store × List MessageRow) := do
  let p ← requirePost P a
  requireRoomMember c.self p.roomId c.self.agentId s.rooms
  let policy ← roomPolicy c.self p.roomId s.rooms
  match policy.mode with
  | .off => postHistory P c p s
  | .once => sendRoomFanoutLocked P c p false s
  | .discussion | .free | .goal => openDiscussion P c p policy s

section Frame
variable {P : Platform} {scope discussionId code : String} {now : Utc} {m : Mail}

@[simp] theorem cancel_messages :
    (cancelDiscussionDispatches P scope discussionId code now m).messages = m.messages := rfl
@[simp] theorem cancel_lastSequence :
    (cancelDiscussionDispatches P scope discussionId code now m).lastSequence = m.lastSequence :=
  rfl
@[simp] theorem cancel_receipts :
    (cancelDiscussionDispatches P scope discussionId code now m).receipts = m.receipts := rfl
@[simp] theorem cancel_retrySchedules :
    (cancelDiscussionDispatches P scope discussionId code now m).retrySchedules =
      m.retrySchedules := rfl
@[simp] theorem cancel_discussions :
    (cancelDiscussionDispatches P scope discussionId code now m).discussions = m.discussions := rfl

theorem dispatch?_cancel (s id agent : String) :
    (cancelDiscussionDispatches P scope discussionId code now m).dispatch? s id agent =
      (m.dispatch? s id agent).map (fun d =>
        if m.cancellable scope discussionId d then cancelledDispatch P code now d else d) := by
  refine Rows.lookup_map (fun d => ?_) _ _
  split <;> rfl

end Frame

structure Blocks (P : Platform) (c : Ctx) (d blocked : DiscussionRow) (s s' : Store) : Prop where
  mail_eq : s'.mail = (cancelDiscussionDispatches P c.self.scope d.discussionId
    "discussion_participant_unavailable" (utcNow c.clock.locked) s.mail).putDiscussion
      (sealDiscussion P (utcNow c.clock.locked)
        { blocked with status := .waitingHuman, stopReason := some .participantUnavailable })
  rooms_eq : s'.rooms = s.rooms

-- what one discussion of a sweep does to the store
inductive Steps (P : Platform) (c : Ctx) (mode : Option RoomMode) (d : DiscussionRow)
    (s s' : Store) : Option Advance → Prop
  | idle (h : s' = s) : Steps P c mode d s s' none
  | freeUnavailable {e : BridgeError} (hm : mode.any RoomMode.isFree = true)
      (hp : discussionParticipants P c.self.scope d.discussionId s = .error e)
      (h : Blocks P c d d s s') {a : Advance} (ha : a.trigger = none) :
      Steps P c mode d s s' (some a)
  | freeFailed {x : MessageRow} (hm : mode.any RoomMode.isFree = true)
      (hx : s.mail.latestTerminal c.self.scope d.discussionId = some x)
      (hf : s.mail.inFlight c.clock.locked c.self.scope d.discussionId = false)
      (h : s'.mail = s.mail.putDiscussion (sealDiscussion P (utcNow c.clock.locked)
        { d with status := .waitingHuman, stopReason := some .agentDispatchFailed }))
      (hr : s'.rooms = s.rooms) {a : Advance} (ha : a.trigger = none) :
      Steps P c mode d s s' (some a)
  | free {participants : List Seat} {response : MessageRow} {rows : List MessageRow}
      (f : FreeStep) (m : Mail) (hm : mode.any RoomMode.isFree = true)
      (hp : discussionParticipants P c.self.scope d.discussionId s = .ok participants)
      (hl : s.mail.latestTerminal c.self.scope d.discussionId = none)
      (ht : s.mail.freeTrigger c.self.scope d.discussionId = some response)
      (hf : f = freeStep P c.self.scope s.mail d participants response)
      (hi : Inserted P c (f.drafts c.self.scope d s.mail (utcNow c.clock.locked)) rows s.mail m)
      (h : s'.mail = m.putDiscussion (sealDiscussion P (utcNow c.clock.locked)
        (f.after (f.outcome c.self.scope d s.mail) rows.length d)))
      (hr : s'.rooms = s.rooms) {a : Advance} (ha : a.trigger = some response)
      (hd : a.discussionId = d.discussionId) :
      Steps P c mode d s s' (some a)
  | roundUnavailable {e : BridgeError} (hm : mode.any RoomMode.isFree = false)
      (hn : s.mail.prompts c.self.scope d.discussionId d.currentRound ≠ [])
      (hp : discussionParticipants P c.self.scope d.discussionId s = .error e)
      (h : Blocks P c d { d with
        processedRound := d.currentRound,
        messageCount := d.messageCount +
          (s.mail.roundResponses c.self.scope d.discussionId d.currentRound).length } s s')
      {a : Advance} (ha : a.trigger = none) : Steps P c mode d s s' (some a)
  | round {participants : List Seat} {rows : List MessageRow} (r : RoundStep) (m : Mail)
      (hm : mode.any RoomMode.isFree = false)
      (hn : s.mail.prompts c.self.scope d.discussionId d.currentRound ≠ [])
      (hp : discussionParticipants P c.self.scope d.discussionId s = .ok participants)
      (hr : r = roundStep P c.self.scope s.mail d participants)
      (hc : r.promptCount = participants.length)
      (hd : r.promptCount ≤ r.responses.length + r.terminal)
      (hi : Inserted P c (r.drafts d (utcNow c.clock.locked)) rows s.mail m)
      (h : s'.mail = m.putDiscussion (sealDiscussion P (utcNow c.clock.locked)
        (r.after rows.length d)))
      (hq : s'.rooms = s.rooms) {a : Advance} (ha : a.trigger = none) :
      Steps P c mode d s s' (some a)

theorem Steps.rooms_eq {P : Platform} {c : Ctx} {mode : Option RoomMode} {d : DiscussionRow}
    {s s' : Store} {a : Option Advance} (h : Steps P c mode d s s' a) : s'.rooms = s.rooms := by
  cases h with
  | idle h => rw [h]
  | freeUnavailable _ _ h => exact h.rooms_eq
  | freeFailed _ _ _ _ hr => exact hr
  | free _ _ _ _ _ _ _ _ _ hr => exact hr
  | roundUnavailable _ _ _ h => exact h.rooms_eq
  | round _ _ _ _ _ _ _ _ _ _ hq => exact hq

section Specs
variable {P : Platform} {c : Ctx} {s s' : Store} {d : DiscussionRow}

theorem advanced_ok {x : Except BridgeError (Store × Advance)} {a : Option Advance}
    (h : advanced x = .ok (s', a)) : ∃ b, x = .ok (s', b) ∧ a = some b := by
  simp only [advanced, bind_eq_ok, pure_eq_ok, Prod.mk.injEq] at h
  obtain ⟨⟨s₁, b⟩, hx, rfl, rfl⟩ := h
  exact ⟨b, hx, rfl⟩

theorem blockParticipants_ok {ty : String} {e : BridgeError} {extra : List (String × Json)}
    {blocked : DiscussionRow} {a : Advance}
    (h : blockParticipants P c ty e extra d blocked s = .ok (s', a)) :
    Blocks P c d blocked s s' ∧ a.trigger = none := by
  simp only [blockParticipants, bind_eq_ok, pure_eq_ok, Prod.mk.injEq] at h
  obtain ⟨⟨s₁, chain⟩, he, rfl, rfl⟩ := h
  obtain ⟨hm, hr, -⟩ := Store.event_frame he
  exact ⟨⟨hm, hr⟩, rfl⟩

theorem blockFailedDispatch_ok {x : MessageRow} {a : Advance}
    (h : blockFailedDispatch P c d x s = .ok (s', a)) :
    s'.mail = s.mail.putDiscussion (sealDiscussion P (utcNow c.clock.locked)
      { d with status := .waitingHuman, stopReason := some .agentDispatchFailed }) ∧
      s'.rooms = s.rooms ∧ a.trigger = none := by
  simp only [blockFailedDispatch, bind_eq_ok, pure_eq_ok, Prod.mk.injEq] at h
  obtain ⟨⟨s₁, chain⟩, he, rfl, rfl⟩ := h
  obtain ⟨hm, hr, -⟩ := Store.event_frame he
  exact ⟨hm, hr, rfl⟩

theorem takeFreeStep_ok {f : FreeStep} {a : Advance}
    (h : takeFreeStep P c d f s = .ok (s', a)) :
    ∃ rows m, Inserted P c (f.drafts c.self.scope d s.mail (utcNow c.clock.locked)) rows s.mail m ∧
      s'.mail = m.putDiscussion (sealDiscussion P (utcNow c.clock.locked)
        (f.after (f.outcome c.self.scope d s.mail) rows.length d)) ∧
      s'.rooms = s.rooms ∧ a.trigger = some f.response ∧ a.discussionId = d.discussionId := by
  simp only [takeFreeStep, bind_eq_ok, pure_eq_ok, Prod.mk.injEq] at h
  obtain ⟨⟨s₁, rows⟩, hi, ⟨s₂, chain⟩, he, rfl, rfl⟩ := h
  obtain ⟨hi, hr₁, -⟩ := insertPrompts_ok hi
  obtain ⟨hm, hr, -⟩ := Store.event_frame he
  exact ⟨rows, s₁.mail, hi, hm, hr.trans hr₁, rfl, rfl⟩

theorem takeRoundStep_ok {r : RoundStep} {a : Advance}
    (h : takeRoundStep P c d r s = .ok (s', a)) :
    ∃ rows m, Inserted P c (r.drafts d (utcNow c.clock.locked)) rows s.mail m ∧
      s'.mail = m.putDiscussion (sealDiscussion P (utcNow c.clock.locked)
        (r.after rows.length d)) ∧
      s'.rooms = s.rooms ∧ a.trigger = none := by
  simp only [takeRoundStep, bind_eq_ok, pure_eq_ok, Prod.mk.injEq] at h
  obtain ⟨⟨s₁, rows⟩, hi, ⟨s₂, chain⟩, he, rfl, rfl⟩ := h
  obtain ⟨hi, hr₁, -⟩ := insertPrompts_ok hi
  obtain ⟨hm, hr, -⟩ := Store.event_frame he
  exact ⟨rows, s₁.mail, hi, hm, hr.trans hr₁, rfl⟩

theorem idle_ok {a : Option Advance} (h : idle s = .ok (s', a)) : s' = s ∧ a = none := by
  simp only [idle, pure_eq_ok, Prod.mk.injEq] at h
  exact ⟨h.1.symm, h.2.symm⟩

theorem advanceOne_ok {mode : Option RoomMode} {a : Option Advance}
    (h : advanceOne P c mode d s = .ok (s', a)) : Steps P c mode d s s' a := by
  unfold advanceOne at h
  split at h
  · rename_i hmode
    unfold advanceFreeDiscussionLocked at h
    split at h
    · rename_i e hp
      obtain ⟨b, hb, rfl⟩ := advanced_ok h
      obtain ⟨hblock, hb⟩ := blockParticipants_ok hb
      exact .freeUnavailable hmode hp hblock hb
    · rename_i participants hp
      split at h
      · rename_i x hx
        split at h
        · obtain ⟨rfl, rfl⟩ := idle_ok h
          exact .idle rfl
        · rename_i hf
          obtain ⟨b, hb, rfl⟩ := advanced_ok h
          obtain ⟨hm, hr, hb⟩ := blockFailedDispatch_ok hb
          exact .freeFailed hmode hx (by simpa using hf) hm hr hb
      · rename_i hl
        split at h
        · obtain ⟨rfl, rfl⟩ := idle_ok h
          exact .idle rfl
        · rename_i response ht
          obtain ⟨b, hb, rfl⟩ := advanced_ok h
          obtain ⟨rows, m, hi, hm, hr, hb, hd⟩ := takeFreeStep_ok hb
          exact .free _ m hmode hp hl ht rfl hi hm hr hb hd
  · rename_i hmode
    unfold advanceRound at h
    split at h
    · obtain ⟨rfl, rfl⟩ := idle_ok h
      exact .idle rfl
    · rename_i hn
      split at h
      · rename_i e hp
        obtain ⟨b, hb, rfl⟩ := advanced_ok h
        obtain ⟨hblock, hb⟩ := blockParticipants_ok hb
        exact .roundUnavailable (by simpa using hmode) hn hp hblock hb
      · rename_i participants hp
        simp only [bind_eq_ok, require_eq_ok] at h
        obtain ⟨-, hc, h⟩ := h
        split at h
        · obtain ⟨rfl, rfl⟩ := idle_ok h
          exact .idle rfl
        · rename_i hd
          obtain ⟨b, hb, rfl⟩ := advanced_ok h
          obtain ⟨rows, m, hi, hm, hr, hb⟩ := takeRoundStep_ok hb
          exact .round _ m (by simpa using hmode) hn hp rfl hc (by omega) hi hm hr hb

inductive Sweep (P : Platform) (c : Ctx) :
    List DiscussionRow → Store → Store → List Advance → Prop
  | nil (s : Store) : Sweep P c [] s s []
  | cons {d : DiscussionRow} {ds : List DiscussionRow} {s s₁ s' : Store} {a : Option Advance}
      {as : List Advance} (h : Steps P c (automationMode s.rooms d) d s s₁ a)
      (k : Sweep P c ds s₁ s' as) : Sweep P c (d :: ds) s s' (a.toList ++ as)

theorem Sweep.rooms_eq {ds : List DiscussionRow} {as : List Advance}
    (h : Sweep P c ds s s' as) : s'.rooms = s.rooms := by
  induction h with
  | nil => rfl
  | cons h _ ih => exact ih.trans h.rooms_eq

theorem advanceEach_ok {ds : List DiscussionRow} {as : List Advance}
    (h : advanceEach P c ds s = .ok (s', as)) : Sweep P c ds s s' as := by
  induction ds generalizing s as with
  | nil =>
    simp only [advanceEach, pure_eq_ok, Prod.mk.injEq] at h
    obtain ⟨rfl, rfl⟩ := h
    exact .nil _
  | cons d ds ih =>
    simp only [advanceEach, bind_eq_ok, pure_eq_ok, Prod.mk.injEq] at h
    obtain ⟨⟨s₁, a⟩, h₁, ⟨s₂, as'⟩, h₂, rfl, rfl⟩ := h
    exact .cons (advanceOne_ok h₁) (ih h₂)

theorem selectDiscussions_ok {b : Bridge} {a : AdvanceArgs} {ds : List DiscussionRow}
    (h : selectDiscussions b a s = .ok ds) :
    ∃ (roomId : Option String) (limit : Nat), 1 ≤ limit ∧ limit ≤ 100 ∧
      ds = (advanceOrder b.scope roomId s).take limit := by
  simp only [selectDiscussions, bind_eq_ok, boundedInteger_eq_ok, pure_eq_ok] at h
  obtain ⟨-, -, roomId, -, limit, ⟨rfl, h1, h2⟩, rfl⟩ := h
  exact ⟨roomId, a.limit.toNat, by omega, by omega, rfl⟩

theorem advanceDiscussions_ok {a : AdvanceArgs} {as : List Advance}
    (h : advanceDiscussions P c a s = .ok (s', as)) :
    ∃ ds, selectDiscussions c.self a s = .ok ds ∧ Sweep P c ds s s' as := by
  simp only [advanceDiscussions, bind_eq_ok] at h
  obtain ⟨ds, hds, h⟩ := h
  exact ⟨ds, hds, advanceEach_ok h⟩

structure Continues (P : Platform) (c : Ctx) (extraRounds : Nat) (d : DiscussionRow)
    (seats : List Seat) (rows : List MessageRow) (s : Store) (m : Mail) : Prop where
  processed : d.currentRound ≤ d.processedRound
  rounds : ¬ ((continueLimits d extraRounds).maxRounds ≠ 0 ∧
    maxDiscussionRounds ≤ d.currentRound)
  participants : discussionParticipants P c.self.scope d.discussionId s = .ok seats
  capacity : ¬ (d.maxMessages ≠ 0 ∧ maxDiscussionMessages < d.messageCount + 2 * seats.length)
  inserted : Inserted P c (roundDrafts d seats (continueContext d s.mail)
    (utcNow c.clock.entry)) rows s.mail m

def continuedDiscussion (d : DiscussionRow) (extraRounds seats newPrompts : Nat) :
    DiscussionRow :=
  { continueLimits d extraRounds with
    currentRound := d.currentRound + 1, messageCount := d.messageCount + newPrompts,
    maxMessages := if d.maxMessages = 0 then 0
      else min maxDiscussionMessages
        (max d.maxMessages (d.messageCount + seats * 2 * extraRounds)) }

-- the row a control action writes, with the mail it writes it to
inductive Controls (P : Platform) (c : Ctx) (extraRounds : Nat) (d : DiscussionRow) (s : Store) :
    ControlAction → Mail → DiscussionRow → Prop
  | pause (h : d.status = .active) :
      Controls P c extraRounds d s .pause s.mail
        { d with status := .paused, stopReason := some .humanPaused }
  | resume (h : d.status = .paused) :
      Controls P c extraRounds d s .resume s.mail { d with status := .active, stopReason := none }
  | stop (h : d.status.isOpen = true) :
      Controls P c extraRounds d s .stop (cancelDiscussionDispatches P c.self.scope d.discussionId
        "discussion_stopped" (utcNow c.clock.entry) s.mail)
        { d with status := .stopped, stopReason := some .humanStopped }
  | reopen (h : d.status = .waitingHuman ∨ d.status = .paused)
      (hp : d.processedRound < d.currentRound) :
      Controls P c extraRounds d s .continue s.mail (continueLimits d extraRounds)
  | extend {seats : List Seat} {rows : List MessageRow} {m : Mail}
      (h : d.status = .waitingHuman ∨ d.status = .paused)
      (hc : Continues P c extraRounds d seats rows s m) :
      Controls P c extraRounds d s .continue m
        (continuedDiscussion d extraRounds seats.length rows.length)

theorem controlUpdate_ok {action : ControlAction} {extraRounds n : Nat} {updated : DiscussionRow}
    (h : controlUpdate P c action extraRounds d s = .ok (s', updated, n)) :
    Controls P c extraRounds d s action s'.mail updated ∧ s'.rooms = s.rooms := by
  cases action with
  | pause =>
    simp only [controlUpdate, bind_eq_ok, require_eq_ok, pure_eq_ok, Prod.mk.injEq] at h
    obtain ⟨-, hs, rfl, rfl, -⟩ := h
    exact ⟨.pause hs, rfl⟩
  | resume =>
    simp only [controlUpdate, bind_eq_ok, require_eq_ok, pure_eq_ok, Prod.mk.injEq] at h
    obtain ⟨-, hs, rfl, rfl, -⟩ := h
    exact ⟨.resume hs, rfl⟩
  | stop =>
    simp only [controlUpdate, bind_eq_ok, require_eq_ok, pure_eq_ok, Prod.mk.injEq] at h
    obtain ⟨-, hs, rfl, rfl, -⟩ := h
    exact ⟨.stop hs, rfl⟩
  | «continue» =>
    simp only [controlUpdate, continueDiscussion, bind_eq_ok, require_eq_ok] at h
    obtain ⟨-, hs, h⟩ := h
    split at h
    · rename_i hp
      simp only [pure_eq_ok, Prod.mk.injEq] at h
      obtain ⟨rfl, rfl, -⟩ := h
      exact ⟨.reopen hs hp, rfl⟩
    · rename_i hp
      simp only [bind_eq_ok, require_eq_ok, pure_eq_ok, Prod.mk.injEq] at h
      obtain ⟨-, hr, seats, hseats, -, hcap, -, -, ⟨s₁, rows⟩, hi, rfl, rfl, -⟩ := h
      obtain ⟨hi, hrooms, -⟩ := insertPrompts_ok hi
      exact ⟨.extend hs ⟨by omega, hr, hseats, hcap, hi⟩, hrooms⟩

theorem controlDiscussion_ok {a : ControlArgs} {row : DiscussionRow}
    (h : controlDiscussion P c a s = .ok (s', row)) :
    ∃ action d updated m, ControlAction.parse? (lower (strip a.action)) = some action ∧
      d.discussionId = strip a.discussionId ∧ 1 ≤ a.extraRounds ∧
      s.mail.discussion? c.self.scope d.discussionId = some d ∧
      Controls P c a.extraRounds.toNat d s action m updated ∧ s'.rooms = s.rooms ∧
      s'.mail = m.putDiscussion (sealDiscussion P (utcNow c.clock.entry) updated) := by
  simp only [controlDiscussion, bind_eq_ok, demand_eq_ok, boundedInteger_eq_ok, pure_eq_ok,
    Prod.mk.injEq] at h
  obtain ⟨id, hid, action, hact, extra, ⟨rfl, h1, -⟩, d, hd, -, -, ⟨s₁, updated, n⟩, hu,
    ⟨s₂, chain⟩, he, rfl, -⟩ := h
  obtain ⟨hm, hr, -⟩ := Store.event_frame he
  obtain ⟨hu, hr₁⟩ := controlUpdate_ok hu
  have hk : d.key = (c.self.scope, id) := Rows.lookup_key hd
  obtain rfl : d.discussionId = id := (Prod.mk.inj hk).2
  exact ⟨action, d, updated, s₁.mail, hact, (requireIdentifier_ok hid).1, h1, hd, hu,
    hr.trans hr₁, hm⟩

def supersedeMail (P : Platform) (c : Ctx) (ds : List DiscussionRow) (m : Mail) : Mail :=
  ds.foldl (fun m d => (cancelDiscussionDispatches P c.self.scope d.discussionId
    "discussion_superseded" (utcNow c.clock.entry) m).putDiscussion
      (sealDiscussion P (utcNow c.clock.entry)
        { d with status := .stopped, stopReason := some .supersededByNewPost })) m

theorem supersede_ok {replacement : String} {ds : List DiscussionRow}
    (h : supersede P c replacement ds s = .ok s') :
    s'.mail = supersedeMail P c ds s.mail ∧ s'.rooms = s.rooms := by
  induction ds generalizing s with
  | nil =>
    obtain rfl : s = s' := by simpa [supersede] using h
    exact ⟨rfl, rfl⟩
  | cons d ds ih =>
    simp only [supersede, bind_eq_ok] at h
    obtain ⟨⟨s₁, chain⟩, he, h⟩ := h
    obtain ⟨hm, hr, -⟩ := Store.event_frame he
    obtain ⟨km, kr⟩ := ih h
    refine ⟨?_, kr.trans hr⟩
    rw [km, hm]
    rfl

def openingDrafts (c : Ctx) (p : Post) (seats : List Seat) : List Draft :=
  seats.map (fun seat =>
    { p.draft c.self.agentId seat.agentId (utcNow c.clock.entry) with
      request := some seat.request, discussion := some (c.uuid.text, 1, .prompt) })

structure Opens (P : Platform) (c : Ctx) (p : Post) (policy : PolicyRow) (seats : List Seat)
    (rows : List MessageRow) (m : Mail) (s s' : Store) : Prop where
  policy_eq : s.rooms.policy? c.self.scope p.roomId = some policy
  room_eq : (s.rooms.room? c.self.scope p.roomId).isSome = true
  automates : policy.mode.automates = true
  seats_eq : routedRoomSeats P c p.roomId (some c.self.agentId) s.rooms = .ok seats
  capacity : ¬ (policy.maxMessages ≠ 0 ∧ policy.maxMessages < 2 * seats.length)
  inserted : Inserted P c (openingDrafts c p seats) rows
    (supersedeMail P c (openDiscussions c.self.scope p.roomId s.mail) s.mail) m
  fresh : m.discussion? c.self.scope c.uuid.text = none
  mail_eq : s'.mail = m.putDiscussion (newDiscussion P c p policy rows.length)
  rooms_eq : s'.rooms = s.rooms

theorem postRoomMessage_ok {a : PostArgs} {rows : List MessageRow}
    (h : postRoomMessage P c a s = .ok (s', rows)) :
    (∃ ds : List Draft, (∀ d ∈ ds, d.discussion = none ∧ d.sender = c.self.agentId) ∧
      Inserted P c ds rows s.mail s'.mail ∧ s'.rooms = s.rooms) ∨
    ∃ p policy seats m, Opens P c p policy seats rows m s s' := by
  simp only [postRoomMessage, bind_eq_ok] at h
  obtain ⟨p, -, -, -, policy, hpol, h⟩ := h
  have opened (ha : policy.mode.automates = true)
      (h : openDiscussion P c p policy s = .ok (s', rows)) :
      ∃ p policy seats m, Opens P c p policy seats rows m s s' := by
    simp only [openDiscussion, bind_eq_ok, require_eq_ok, pure_eq_ok, Prod.mk.injEq,
      Option.isNone_iff_eq_none] at h
    obtain ⟨seats, hseats, -, hcap, s₁, hs, ⟨s₂, rs⟩, hi, -, hf, ⟨s₃, chain⟩, he, rfl, rfl⟩ := h
    obtain ⟨hm₁, hr₁⟩ := supersede_ok hs
    obtain ⟨hi, hr₂, -⟩ := insertPrompts_ok hi
    obtain ⟨hm, hr, -⟩ := Store.event_frame he
    simp only [roomPolicy, bind_eq_ok, demand_eq_ok] at hpol
    obtain ⟨_, hroom, hpol⟩ := hpol
    exact ⟨p, policy, seats, s₂.mail, hpol, by rw [(room_ok.mp hroom).1]; rfl, ha, hseats, hcap,
      hm₁ ▸ hi, hf, hm, hr.trans (hr₂.trans hr₁)⟩
  cases hmode : policy.mode with
  | off =>
    simp only [hmode, postHistory, bind_eq_ok, pure_eq_ok, Prod.mk.injEq] at h
    obtain ⟨⟨s₁, row⟩, hi, ⟨s₂, chain⟩, he, rfl, rfl⟩ := h
    obtain ⟨hi, hr₁, -⟩ := insertReserved_ok hi
    obtain ⟨hm, hr, -⟩ := Store.event_frame he
    exact .inl ⟨_, by simp [Post.draft], hm ▸ hi, hr.trans hr₁⟩
  | once => exact .inl (sendRoomFanoutLocked_ok (by simpa [hmode] using h))
  | discussion => exact .inr (opened (by rw [hmode]; rfl) (by simpa [hmode] using h))
  | free => exact .inr (opened (by rw [hmode]; rfl) (by simpa [hmode] using h))
  | goal => exact .inr (opened (by rw [hmode]; rfl) (by simpa [hmode] using h))

end Specs

end PeerBridge
