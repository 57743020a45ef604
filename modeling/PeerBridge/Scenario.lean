import PeerBridge.Mailbox

namespace PeerBridge

-- stands in for SHA-256 in the short runs below the theorems
def mix (h n : Nat) : Nat := (h * 1000003 + n + 1) % 2 ^ 256

def mixText (h : Nat) (t : String) : Nat := t.toList.foldl (fun h c => mix h c.toNat) (mix h 3)

mutual
def mixJson (h : Nat) : Json → Nat
  | .null => mix h 0
  | .bool b => mix h b.toNat
  | .int n => mix h n.toNat
  | .real q => mix (mix h q.num.toNat) q.den
  | .str t => mixText h t
  | .sha d => mix h d.bits.toNat
  | .utc t => mix h t.toNat
  | .arr items => mixItems (mix h 1) items
  | .obj fields => mixFields (mix h 2) fields
def mixItems (h : Nat) : List Json → Nat
  | [] => h
  | v :: vs => mixItems (mixJson h v) vs
def mixFields (h : Nat) : List (String × Json) → Nat
  | [] => h
  | (_, v) :: fs => mixFields (mixJson h v) fs
end

def Uuid.ofNat (n : Nat) : Uuid where
  text := String.ofList (hexText n 32)
  hex := by
    simpa [isUuidHex, hexText_length] using hexText_hex n 32

def sampleUsage : Usage :=
  { status := "unavailable", source := "runner-receipt-not-reported", inputTokens := none,
    outputTokens := none, totalTokens := none, cachedInputTokens := none,
    reasoningTokens := none, fieldReportedCalls := [], reportedCalls := 0, totalCalls := 1,
    totalTokensDerived := false }

def sampleSha (n : Nat) : Sha256 := ⟨BitVec.ofNat 256 n⟩

-- every record is billed at one kilobyte
def samplePlatform : Platform where
  sha256Bytes t := sampleSha (mixText 7 t)
  stableSha256 v := sampleSha (mixJson 7 v)
  encodedBytes _ := 1024
  containsSecret _ := false
  foldWhitespaceLower t := lower t
  casefold c := [lowerAscii c]
  casefold_slash := by decide
  windows := false
  usageFromReceipt _ := .ok sampleUsage
  validateUsage _ := .ok sampleUsage
  unavailableUsage := .null
  validateInferenceReceipt _ messageId _ body _ := .ok
    { receiptSchema := "peerbridge.openai-compatible-run.v1",
      inferenceReceiptSha256 := sampleSha (mixText 11 messageId),
      assistantMessageSha256 := sampleSha (mixText 12 messageId),
      assistantContentSha256 := sampleSha (mixText 13 messageId),
      replyBodySha256 := sampleSha (mixText 7 body) }

def sampleHuman : Bridge :=
  { agentId := humanOperatorId, scope := "demo", sessionId := "session-human",
    clientName := none, providerId := none, modelId := none, reasoningMode := none,
    routeClass := none, discussionCoordinator := false }

def sampleCoordinator : Bridge :=
  { agentId := discussionCoordinatorId, scope := "demo", sessionId := "session-supervisor",
    clientName := none, providerId := none, modelId := none, reasoningMode := none,
    routeClass := none, discussionCoordinator := true }

theorem isIdentifier_a : isIdentifier "a" = true := by decide

theorem isIdentifier_b : isIdentifier "b" = true := by decide

theorem isIdentifier_demo : isIdentifier "demo" = true := by decide

theorem isIdentifier_session : isIdentifier "session" = true := by decide

theorem isIdentifier_worker : isIdentifier "worker" = true := by decide

def sampleAgent (agentId : String) (safe : isIdentifier agentId = true := by
    first | exact isIdentifier_a | exact isIdentifier_b | exact isIdentifier_worker | decide) :
    Bridge :=
  { agentId, scope := "demo", sessionId := "session", clientName := none,
    providerId := some "provider", modelId := some "model", reasoningMode := none,
    routeClass := some .localHost, discussionCoordinator := false, agentId_safe := safe }

-- every call of a sample run takes one second
def sampleCtx (b : Bridge) (second : Nat) : Ctx :=
  { self := b, clock := { entry := second, locked := second, later := second },
    uuid := .ofNat (1000 + second), messageUuid := fun n => .ofNat (2000 + n),
    eventUuid := fun n => .ofNat (100000 + n), token := "token-" ++ toString second }

def plainForms : TextForms := { real := fun q => toString q.num, utc := fun t => toString t }

def sampleWorld : World := .initial [] 0

def asHuman (second : Nat) (calls : List Call) : List (Call × Ctx) :=
  (calls.zipIdx second).map (fun x => (x.1, sampleCtx sampleHuman x.2))

def asCoordinator (second : Nat) (call : Call) : Call × Ctx :=
  (call, sampleCtx sampleCoordinator second)

def sampleAutomation (mode : String) : Call := .setRoomAutomation { roomId := "r", mode }

def sampleRoute (agentId : String) : String := "route-" ++ agentId

def sampleSeats (agents : List String) : List Call :=
  [.openScope, .createRoom { roomId := "r", name := "Room" }] ++
  agents.map (fun a => .upsertRouteProfile
    { routeId := sampleRoute a, agentId := a, providerId := "provider", modelId := "model" }) ++
  agents.map (fun a => .joinRoom
    { roomId := "r", agentId := some a, routeProfileId := sampleRoute a })

def samplePost : Call :=
  .postRoomMessage { roomId := "r", taskId := "t", subject := "s", body := "hello" }

def sampleMessage (sequence : Nat) : String := (Uuid.ofNat (2000 + sequence)).text

def sampleClaim (b : Bridge) (sequence second : Nat) : Call × Ctx :=
  (.claim { messageId := sampleMessage sequence, routeProfileId := sampleRoute b.agentId },
    sampleCtx b second)

def sampleFailure (b : Bridge) (sequence claimed second : Nat) : Call × Ctx :=
  (.fail { messageId := sampleMessage sequence, leaseToken := (sampleCtx b claimed).token,
           errorCode := "crashed", retryable := false }, sampleCtx b second)

def sampleReply (b : Bridge) (sequence second : Nat) (body : String) : List (Call × Ctx) :=
  let messageId := sampleMessage sequence
  let leaseToken := (sampleCtx b second).token
  [(.recordTrusted { messageId, leaseToken, body, receipt := .null, assistantMessage := .null },
     sampleCtx b (second + 1)),
   (.complete { messageId, leaseToken, body,
                inferenceReceiptSha256 := (sampleSha (mixText 11 messageId)).hex },
     sampleCtx b (second + 2))]

end PeerBridge
