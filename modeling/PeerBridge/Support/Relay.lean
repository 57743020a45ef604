import PeerBridge.Lib.Interrupt
import PeerBridge.Lib.Rows
import PeerBridge.Text

namespace PeerBridge.Relay
open Interrupt Rows

def feedbackSchema : String := "peerbridge.feedback-upload.v1"
def maxBundleBytes : Nat := 8 * 1024 * 1024
def maxEncodedChars : Nat := (maxBundleBytes + 2) / 3 * 4
def maxEnvelopeChars : Nat := maxEncodedChars + 16 * 1024
def maxNewCasesPerUtcDay : Nat := 20
def protectedMailQuotaReserve : Int := 20
def maxUnresolvedDeliveries : Nat := 20
def maxDeliveryAttempts : Nat := 3
def maxAuthSkewMs : Int := 10 * 60 * 1000
def caseRetentionMs : Nat := 31 * 24 * 60 * 60 * 1000
def exactEnvelopeFields : List String :=
  ["schema", "case_id", "bundle_sha256", "bundle_base64", "reply_email", "received_utc",
    "ingress_timestamp", "ingress_nonce", "ingress_signature"]

inductive DeliveryState where
  | pending | uncertain | retryReady | sent
  deriving DecidableEq, Repr

def DeliveryState.text : DeliveryState → String
  | .pending => "pending"
  | .uncertain => "uncertain"
  | .retryReady => "retry_ready"
  | .sent => "sent"

-- the value of one case property: a bare digest, a JSON object, or anything else
inductive Stored where
  | legacy (sha256 : String)
  | record (sha256 : String) (state : DeliveryState) (createdMs updatedMs attempts : Option Nat)
      (lastError : String)
  | unreadable

structure CaseState where
  sha256 : String
  state : DeliveryState
  createdMs : Nat
  updatedMs : Nat
  attempts : Nat
  lastError : String

-- a migrated record has neither updated_ms nor attempts
inductive Parsed where
  | invalid
  | legacy (sha256 : String) (createdMs : Nat)
  | known (c : CaseState)

def positive (value : Option Nat) (default : Nat) : Nat := (value.filter (fun n => 0 < n)).getD default

def parseCaseState (nowMs : Nat) : Stored → Parsed
  | .legacy sha256 => .legacy sha256 nowMs
  | .record sha256 state createdMs updatedMs attempts lastError =>
    let created := positive createdMs nowMs
    .known { sha256, state, createdMs := created, updatedMs := positive updatedMs created,
             attempts := positive attempts 1, lastError }
  | .unreadable => .invalid

def deliveryState (c : CaseState) : Stored :=
  .record c.sha256 c.state (some c.createdMs) (some c.updatedMs) (some c.attempts) c.lastError

structure Message where
  recipient : String
  subject : String
  body : String
  replyTo : Option String
  attachment : List UInt8
  attachmentName : String

inductive Writer where
  | post | operator | cleanup
  deriving DecidableEq, Repr

-- the writes that took effect and the calls of sendEmail, in order
inductive Effect where
  | put (writer : Writer) (caseId : String) (value : Stored)
  | delete (caseId : String)
  | mail (caseId : String) (message : Message)

abbrev Cases := List (String × Stored)

def Effect.apply (cases : Cases) : Effect → Cases
  | .put _ caseId value => upsert Prod.fst (caseId, value) cases
  | .delete caseId => cases.filter (fun q => q.1 ≠ caseId)
  | .mail _ _ => cases

def replay (initial : Cases) (journal : List Effect) : Cases := journal.foldl Effect.apply initial

structure Script where
  initial : Cases
  journal : List Effect
  daily : List (String × Nat)

def Script.cases (s : Script) : Cases := replay s.initial s.journal

def caseOf (caseId : String) (cases : Cases) : Option Stored :=
  (lookup Prod.fst caseId cases).map Prod.snd

def Script.perform (e : Effect) (s : Script) : Script := { s with journal := s.journal ++ [e] }

def Script.setDay (day : String) (count : Nat) (s : Script) : Script :=
  { s with daily := upsert Prod.fst (day, count) s.daily }

def Script.removeDay (day : String) (s : Script) : Script :=
  { s with daily := s.daily.filter (fun q => q.1 ≠ day) }

def Script.dayCount (day : String) (s : Script) : Nat :=
  ((lookup Prod.fst day s.daily).map Prod.snd).getD 0

-- what the platform of the script computes
structure Services where
  hmacDigest : String → String → String
  dateParse : String → Option Int
  isEmail : String → Bool
  base64Decode : String → Option (List UInt8)
  base64Encode : List UInt8 → String
  sha256Hex : List UInt8 → String

-- a write of several properties may take place in part
inductive Bulk where
  | done
  | failed (case day : Bool)
  | crashed (case day : Bool)

def Bulk.act {σ ρ : Type} (b : Bulk) (f : Bool → Bool → σ → σ) : Program σ ρ Unit :=
  match b with
  | .done => Interrupt.act .done (f true true)
  | .failed case day => Interrupt.act .lost (f case day)
  | .crashed case day => Interrupt.act (.crashed true) (f case day)

-- what one request meets
structure Weather where
  nowMs : Nat
  laterMs : Nat
  day : String
  locked : Bool
  secret : String
  supportEmail : String
  quota : Option Int
  readSecret : Outcome := .done
  readAll : Outcome := .done
  readCase : Outcome := .done
  readDay : Outcome := .done
  readQuota : Outcome := .done
  readUnresolved : Outcome := .done
  readEmail : Outcome := .done
  migrate : String → Outcome := fun _ => .done
  expire : String → Outcome := fun _ => .done
  expireDay : String → Outcome := fun _ => .done
  opening : Bulk := .done
  mail : Outcome := .done
  sent : Outcome := .done
  uncertain : Outcome := .done

inductive Reply where
  | failed (code : String)
  | receipt (caseId sha256 receipt : String)
  | operator (caseId sha256 : String) (state : DeliveryState) (attemptsRemaining : Option Nat)
  | thrown (text : String)

abbrev Request (α : Type) := Program Script Reply α

def hexDigits (length : Nat) (t : String) : Bool := t.toList.all isHexDigit && t.length = length

def timestampForm : List Char := "dddd-dd-ddTdd:dd:dd.dddZ".toList

def isTimestamp (t : String) : Bool :=
  t.length = 24 && (timestampForm.zip t.toList).all (fun q => (q.1 = 'd' && q.2.isDigit) || q.1 = q.2)

def isBlank (c : Char) : Bool :=
  c.toNat ≤ 0x1f || c.toNat = 0x7f || c = ' ' || c.toNat = 0xa0 || c.toNat = 0x1680 ||
  (0x2000 ≤ c.toNat && c.toNat ≤ 0x200a) || c.toNat = 0x2028 || c.toNat = 0x2029 ||
  c.toNat = 0x202f || c.toNat = 0x205f || c.toNat = 0x3000 || c.toNat = 0xfeff

def collapse : List Char → List Char
  | [] => []
  | c :: cs =>
    if isBlank c then if (collapse cs).head? = some ' ' then collapse cs else ' ' :: collapse cs
    else c :: collapse cs

def trimBlanks (cs : List Char) : List Char :=
  ((cs.dropWhile isBlank).reverse.dropWhile isBlank).reverse

def cleanLine (value : String) (limit : Nat) : String :=
  String.ofList ((trimBlanks (collapse value.toList)).take limit)

-- the fields of a payload, each as String(value || "")
structure Envelope where
  fields : List String
  schema : String
  caseId : String
  bundleSha256 : String
  bundleBase64 : String
  replyEmail : String
  receivedUtc : String
  timestamp : String
  nonce : String
  signature : String

inductive Contents where
  | absent
  | text (length : Nat) (payload : Option Envelope)

structure Accepted where
  caseId : String
  sha256 : String
  bundle : List UInt8
  replyEmail : String
  receivedUtc : String

section Intake
variable (S : Services)

def isBase64Text (t : String) : Bool :=
  let body := t.toList.reverse.dropWhile (· = '=')
  body.all (fun c => c.isAlphanum || c = '+' || c = '/') && t.length ≤ body.length + 2

def decodeAndVerifyBundle (encoded expectedSha : String) : Request (List UInt8) := do
  require (encoded ≠ "" ∧ encoded.length % 4 = 0 ∧ encoded.length ≤ maxEncodedChars + 4 ∧
    isBase64Text encoded = true) (.failed "invalid_bundle_encoding")
  match S.base64Decode encoded with
  | none => answer (.failed "invalid_bundle_encoding")
  | some bytes => do
    require (4 ≤ bytes.length ∧ bytes.length ≤ maxBundleBytes ∧ S.base64Encode bytes = encoded ∧
      bytes.take 4 = [0x50, 0x4b, 0x03, 0x04]) (.failed "invalid_bundle_encoding")
    require (S.sha256Hex bytes = expectedSha) (.failed "bundle_sha256_mismatch")
    pure bytes

def ingressIsFormed (w : Weather) (e : Envelope) : Bool :=
  isTimestamp e.timestamp &&
  (S.dateParse e.timestamp).any (fun t => decide (|(w.nowMs : Int) - t| ≤ maxAuthSkewMs)) &&
  hexDigits 32 (lower e.nonce) && hexDigits 64 (lower e.signature)

def ingressIsSigned (w : Weather) (e : Envelope) (caseId expectedSha : String) : Bool :=
  43 ≤ w.secret.length &&
  S.hmacDigest ("\n".intercalate [e.schema, caseId, expectedSha, e.timestamp, lower e.nonce,
    e.replyEmail, e.receivedUtc]) w.secret = lower e.signature

def verifyIngress (w : Weather) (e : Envelope) (caseId expectedSha : String) : Request Unit := do
  require (ingressIsFormed S w e = true) (.failed "unauthorized_ingress")
  Interrupt.read w.readSecret (fun _ => ())
  require (ingressIsSigned S w e caseId expectedSha = true) (.failed "unauthorized_ingress")

-- doPost before it takes the lock
def readRequest (w : Weather) (contents : Contents) : Request Accepted :=
  match contents with
  | .absent => answer (.failed "missing_body")
  | .text length payload => do
    require (length ≤ maxEnvelopeChars) (.failed "request_too_large")
    match payload with
    | none => answer (.failed "invalid_json")
    | some e => do
      require (e.schema = feedbackSchema) (.failed "invalid_schema")
      require (e.fields.Perm exactEnvelopeFields) (.failed "invalid_envelope_fields")
      let caseId := lower e.caseId
      let expectedSha := lower e.bundleSha256
      require (hexDigits 32 caseId = true ∧ hexDigits 64 expectedSha = true)
        (.failed "invalid_identity")
      verifyIngress S w e caseId expectedSha
      let bundle ← decodeAndVerifyBundle S e.bundleBase64 expectedSha
      require (isTimestamp e.receivedUtc = true ∧ (S.dateParse e.receivedUtc).isSome = true)
        (.failed "invalid_received_timestamp")
      pure { caseId, sha256 := expectedSha, bundle, replyEmail := e.replyEmail,
             receivedUtc := e.receivedUtc }

def migrated (sha256 : String) (createdMs : Nat) : Stored :=
  .record sha256 .sent (some createdMs) none none ""

def cleanupCase (w : Weather) (q : String × Stored) : Request Unit :=
  match parseCaseState w.nowMs q.2 with
  | .invalid => pure ()
  | .legacy sha256 createdMs =>
    act (w.migrate q.1) (Script.perform (.put .cleanup q.1 (migrated sha256 createdMs)))
  | .known c =>
    if c.state = .sent ∧ 0 < c.updatedMs ∧ c.updatedMs + caseRetentionMs < w.nowMs then
      act (w.expire q.1) (Script.perform (.delete q.1))
    else pure ()

def cleanupDay (w : Weather) (q : String × Nat) : Request Unit :=
  match S.dateParse (q.1 ++ "T00:00:00.000Z") with
  | none => pure ()
  | some dayMs =>
    if dayMs + caseRetentionMs < w.nowMs then act (w.expireDay q.1) (Script.removeDay q.1)
    else pure ()

def cleanupExpiredState (w : Weather) : Request Unit := do
  let values ← Interrupt.read w.readAll (fun s => (s.cases, s.daily))
  each (cleanupCase w) values.1
  each (cleanupDay S w) values.2

def duplicate (a : Accepted) : Reply := .receipt a.caseId a.sha256 "duplicate_already_received"

-- the prior state of an operator-approved retry, none for a new case
def admitCase (w : Weather) (a : Accepted) (stored : Option Stored) : Request (Option CaseState) :=
  match stored.map (parseCaseState w.nowMs) with
  | none => pure none
  | some .invalid => answer (.failed "case_conflict")
  | some (.legacy sha256 _) => do
    require (sha256 = a.sha256) (.failed "case_conflict")
    answer (duplicate a)
  | some (.known c) => do
    require (c.sha256 = a.sha256) (.failed "case_conflict")
    require (c.state ≠ .pending ∧ c.state ≠ .uncertain) (.failed "delivery_state_uncertain")
    require (c.state ≠ .sent) (duplicate a)
    require (c.attempts < maxDeliveryAttempts) (.failed "delivery_attempt_limit_reached")
    pure (some c)

def Stored.unresolved : Stored → Bool
  | .legacy _ => false
  | .record _ state _ _ _ _ => state ≠ .sent
  | .unreadable => true

def unresolvedDeliveryCount (cases : Cases) : Nat := cases.countP (fun q => q.2.unresolved)

def requireCapacity (w : Weather) (prior : Option CaseState) : Request Unit :=
  match prior with
  | some _ => pure ()
  | none => do
    let count ← Interrupt.read w.readUnresolved (fun s => unresolvedDeliveryCount s.cases)
    require (count < maxUnresolvedDeliveries) (.failed "delivery_reconciliation_required")

def pendingState (w : Weather) (a : Accepted) (prior : Option CaseState) : CaseState :=
  { sha256 := a.sha256, state := .pending,
    createdMs := (prior.map CaseState.createdMs).getD w.nowMs, updatedMs := w.nowMs,
    attempts := (prior.map (fun c => c.attempts + 1)).getD 1, lastError := "" }

-- pending marker and daily counter are set together
def openDelivery (w : Weather) (a : Accepted) (prior : Option CaseState) (dayCount : Nat)
    (case day : Bool) (s : Script) : Script :=
  let s := if day && prior.isNone then s.setDay w.day (dayCount + 1) else s
  if case then s.perform (.put .post a.caseId (deliveryState (pendingState w a prior))) else s

def writeState (caseId : String) (c : CaseState) (s : Script) : Script :=
  s.perform (.put .post caseId (deliveryState c))

def recordUncertainDelivery (w : Weather) (caseId : String) (c : CaseState) (errorCode : String) :
    Request Unit :=
  rescue (act w.uncertain (writeState caseId
    { c with state := .uncertain, updatedMs := w.laterMs, lastError := errorCode })) (pure ())

def messageOf (a : Accepted) (supportEmail replyEmail : String) : Message :=
  { recipient := supportEmail, subject := "PeerBridge feedback " ++ a.caseId,
    body := "\n".intercalate ["PeerBridge private feedback received.", "",
      "Reply address: " ++ (if replyEmail = "" then "not provided" else replyEmail), "",
      "Case: " ++ a.caseId, "Bundle SHA-256: " ++ a.sha256,
      "Received (UTC): " ++ a.receivedUtc, "",
      "The validated private feedback bundle is attached.",
      "Any full API key/token inside the bundle was encrypted locally to the configured " ++
        "maintainer support public key before upload."],
    replyTo := if replyEmail = "" then none else some replyEmail,
    attachment := a.bundle,
    attachmentName := "peerbridge-feedback-" ++ a.caseId ++ ".zip" }

def giveUp (w : Weather) (caseId : String) (c : CaseState) (errorCode : String) : Request Unit := do
  recordUncertainDelivery w caseId c errorCode
  answer (.failed "delivery_failed")

def sendAndSettle (w : Weather) (a : Accepted) (c : CaseState) (message : Message) :
    Request Reply := do
  -- the call counts whether or not it delivers
  act .done (Script.perform (.mail a.caseId message))
  rescue (act w.mail id) (giveUp w a.caseId c "send_email_exception")
  rescue (act w.sent (writeState a.caseId { c with state := .sent, updatedMs := w.laterMs }))
    (giveUp w a.caseId c "sent_state_write_failed")
  pure (.receipt a.caseId a.sha256 "emailed_to_private_support")

-- doPost under the lock
def deliver (w : Weather) (a : Accepted) : Request Reply := do
  cleanupExpiredState S w
  let stored ← Interrupt.read w.readCase (fun s => caseOf a.caseId s.cases)
  let prior ← admitCase w a stored
  let dayCount ← Interrupt.read w.readDay (fun s => s.dayCount w.day)
  require (prior.isSome = true ∨ dayCount < maxNewCasesPerUtcDay) (.failed "daily_quota_reached")
  Interrupt.read w.readQuota (fun _ => ())
  require (w.quota.any (fun n => decide (protectedMailQuotaReserve < n)) = true)
    (.failed "protected_notification_capacity_reserved")
  requireCapacity w prior
  let replyEmail := if S.isEmail (cleanLine a.replyEmail 320) then cleanLine a.replyEmail 320 else ""
  w.opening.act (openDelivery w a prior dayCount)
  Interrupt.read w.readEmail (fun _ => ())
  let supportEmail := String.ofList (trimBlanks w.supportEmail.toList)
  require (S.isEmail supportEmail = true) (.failed "support_destination_unavailable")
  sendAndSettle w a (pendingState w a prior) (messageOf a supportEmail replyEmail)

def doPost (w : Weather) (contents : Contents) : Request Reply := do
  let a ← readRequest S w contents
  require (w.locked = true) (.failed "receiver_busy")
  rescue (deliver S w a) (answer (.failed "delivery_failed"))

end Intake

inductive Decision where
  | markDelivered | allowRetry
  deriving DecidableEq, Repr

def Decision.parse? (t : String) : Option Decision :=
  if t = "mark_delivered" then some .markDelivered
  else if t = "allow_retry" then some .allowRetry
  else none

structure OperatorWeather where
  nowMs : Nat
  locked : Bool
  readCase : Outcome := .done
  write : Outcome := .done

def settle (w : OperatorWeather) (caseId sha256 : String) (c : CaseState) : Request Reply := do
  act w.write (Script.perform (.put .operator caseId (deliveryState
    { c with sha256, state := .sent, updatedMs := w.nowMs, lastError := "" })))
  pure (.operator caseId sha256 .sent none)

def retryState (w : OperatorWeather) (sha256 : String) (c : CaseState) : CaseState :=
  { c with sha256, state := .retryReady, updatedMs := w.nowMs,
           lastError := if c.lastError = "" then "delivery_interrupted" else c.lastError }

def armRetry (w : OperatorWeather) (caseId sha256 : String) (c : CaseState) : Request Reply := do
  let reply := .operator caseId sha256 .retryReady (some (maxDeliveryAttempts - c.attempts))
  require (c.state ≠ .retryReady) reply
  require (c.attempts < maxDeliveryAttempts) (.thrown ("Delivery attempt limit reached; submit a " ++
    "new case if mailbox inspection confirms no delivery."))
  act w.write (Script.perform (.put .operator caseId (deliveryState (retryState w sha256 c))))
  pure reply

def reconcileParsed (w : OperatorWeather) (caseId sha256 : String) (decision : Decision) :
    Parsed → Request Reply
  | .invalid => answer (.thrown "Case state does not match the supplied identity.")
  | .legacy stored _ => do
    require (stored = sha256) (.thrown "Case state does not match the supplied identity.")
    require (decision = .markDelivered) (.thrown "A delivered case cannot be retried.")
    pure (.operator caseId sha256 .sent none)
  | .known c => do
    require (c.sha256 = sha256) (.thrown "Case state does not match the supplied identity.")
    require (c.state ≠ .sent ∨ decision = .markDelivered)
      (.thrown "A delivered case cannot be retried.")
    require (c.state ≠ .sent) (.operator caseId sha256 .sent none)
    match decision with
    | .markDelivered => settle w caseId sha256 c
    | .allowRetry => armRetry w caseId sha256 c

def reconcileDelivery (w : OperatorWeather) (caseId expectedSha action : String) : Request Reply := do
  let caseId := lower caseId
  let sha256 := lower expectedSha
  require (hexDigits 32 caseId = true ∧ hexDigits 64 sha256 = true)
    (.thrown "Exact case ID and bundle SHA-256 are required.")
  match Decision.parse? action with
  | none => answer (.thrown "Action must be mark_delivered or allow_retry.")
  | some decision => do
    require (w.locked = true) (.thrown "Receiver is busy; retry reconciliation.")
    let stored ← Interrupt.read w.readCase (fun s => caseOf caseId s.cases)
    match stored with
    | none => answer (.thrown "Case state does not match the supplied identity.")
    | some value => reconcileParsed w caseId sha256 decision (parseCaseState w.nowMs value)

end PeerBridge.Relay
