import PeerBridge.Routes
import PeerBridge.CanonicalCode

namespace PeerBridge
open Checked

-- dict.get, a missing key read as None
def Json.get (v : Json) (key : String) : Json := (v.field? key).getD .null

-- str(value or ""); containers never match what it is compared with
def Json.orText (F : TextForms) : Json → String
  | .str t => t
  | .sha d => d.hex
  | .utc t => F.utc t
  | .int n => if n = 0 then "" else toString n
  | .real q => if q = 0 then "" else F.real q
  | .bool true => "True"
  | .null | .bool false | .arr _ | .obj _ => ""

def Json.isObject : Json → Bool
  | .obj _ => true
  | _ => false

def Json.isNull : Json → Bool
  | .null => true
  | _ => false

-- Python's == against a string or None
def Json.agrees (actual expected : Json) : Bool :=
  if expected.isNull then actual.isNull
  else expected.text?.isSome && actual.text? = expected.text?

def expect (actual expected : Json) (field : String) : Except String Unit :=
  require (actual.agrees expected = true) ("provider receipt " ++ field ++ " does not match")

def expectAll (v : Json) (label : String) : List (String × Json) → Except String Unit
  | [] => pure ()
  | (field, expected) :: rest => do
    expect (v.get field) expected (label ++ field)
    expectAll v label rest

def openaiCompatibleRun : String := "peerbridge.openai-compatible-run.v1"
def acpxInferenceReceipt : String := "peerbridge.acpx-inference-receipt.v1"
def claudeNativeWcmInferenceReceipt : String := "peerbridge.claude-native-wcm-inference-receipt.v1"
def ccswitchInferenceReceipt : String := "peerbridge.ccswitch-inference-receipt.v1"

def supportedReceiptSchemas : List String :=
  [openaiCompatibleRun, acpxInferenceReceipt, claudeNativeWcmInferenceReceipt,
    ccswitchInferenceReceipt]

def requireReceiptSha (F : TextForms) (v : Json) (field : String) : Except String Sha256 :=
  demand (Sha256.parse? (v.orText F)) (field ++ " is not a SHA-256 digest")

def Json.unsigned : Json → Json
  | .obj fields => .obj (fields.filter (fun f => f.1 ≠ "receipt_sha256"))
  | v => v

def expectedResponseModel (route : Json) : Json :=
  if truthy (route.get "response_model_id").text? then route.get "response_model_id"
  else route.get "model_id"

def expectOpenai (P : Platform) (receipt : Json) (messageId : String) (assistant route : Json) :
    Except String Unit := do
  require ((receipt.get "route").isObject = true) "receipt.route must be an object"
  expectAll (receipt.get "route") "route."
    [("route_profile_id", route.get "route_profile_id"),
      ("route_profile_sha256", route.get "route_profile_sha256"),
      ("route_class", route.get "route_class"), ("provider_id", route.get "provider_id"),
      ("model_id", route.get "model_id"), ("response_model_id", expectedResponseModel route),
      ("reasoning_mode", route.get "reasoning_mode"),
      ("connection_id", route.get "connection_id"),
      ("connection_sha256", route.get "connection_sha256")]
  expectAll receipt ""
    [("room_id", route.get "room_id"), ("session_id", route.get "session_id"),
      ("message_id_sha256", .sha (P.stableSha256 (.str messageId))),
      ("output_message_sha256", .sha (P.stableSha256 assistant))]

def expectBackend (P : Platform) (receipt : Json) (backend content : String)
    (fields : List (String × Json)) : Except String Unit := do
  expect (receipt.get "secret_backend") (.str backend) "secret_backend"
  expectAll receipt "" fields
  expect (receipt.get "response_sha256") (.sha (P.sha256Bytes content)) "response_sha256"

def acpxFields (messageId : String) (route : Json) : List (String × Json) :=
  [("route_profile_id", route.get "route_profile_id"),
    ("route_profile_sha256", route.get "route_profile_sha256"),
    ("route_class", route.get "route_class"),
    ("requested_provider_id", route.get "provider_id"),
    ("requested_model", route.get "model_id"),
    ("requested_reasoning_mode", route.get "reasoning_mode"),
    ("connection_id", route.get "connection_id"), ("message_id", .str messageId)]

def ccswitchFields (messageId : String) (route : Json) : List (String × Json) :=
  [("route_profile_id", route.get "route_profile_id"),
    ("route_profile_sha256", route.get "route_profile_sha256"),
    ("route_class", route.get "route_class"), ("requested_model", route.get "model_id"),
    ("connection_id", route.get "connection_id"), ("message_id", .str messageId)]

def claudeNativeFields (messageId : String) (route : Json) : List (String × Json) :=
  [("route_profile_id", route.get "route_profile_id"),
    ("route_profile_sha256", route.get "route_profile_sha256"),
    ("route_class", route.get "route_class"),
    ("requested_provider_id", route.get "provider_id"),
    ("requested_model", route.get "model_id"),
    ("requested_reasoning_mode", route.get "reasoning_mode"),
    ("connection_id", route.get "connection_id"),
    ("endpoint_sha256", route.get "endpoint_sha256"),
    ("credential_version_sha256", route.get "credential_version_sha256"),
    ("message_id", .str messageId)]

def expectSchema (P : Platform) (schema : String) (receipt : Json) (messageId content : String)
    (assistant route : Json) : Except String Unit :=
  if schema = openaiCompatibleRun then expectOpenai P receipt messageId assistant route
  else if schema = acpxInferenceReceipt then
    expectBackend P receipt "native-acp" content (acpxFields messageId route)
  else if schema = ccswitchInferenceReceipt then
    expectBackend P receipt "cc-switch" content (ccswitchFields messageId route)
  else expectBackend P receipt "windows-credential-manager" content
    (claudeNativeFields messageId route)

def validateInferenceReceipt (F : TextForms) (P : Platform) (receipt : Json) (messageId : String)
    (assistant : Json) (replyBody : String) (route : Json) : Except String ValidatedReceipt := do
  require (receipt.isObject = true) "receipt must be an object"
  require (assistant.isObject = true) "assistant_message must be an object"
  let schema := (receipt.get "schema").orText F
  require (schema ∈ supportedReceiptSchemas) "unsupported provider receipt schema"
  let claimed ← requireReceiptSha F (receipt.get "receipt_sha256") "receipt_sha256"
  require (P.stableSha256 receipt.unsigned = claimed) "provider receipt self-hash does not match"
  require ((assistant.get "role").text? = some "assistant")
    "provider output is not an assistant message"
  let content ← demand ((assistant.get "content").text?.filter (fun t => strip t ≠ ""))
    "provider output content is empty or unsupported"
  require (replyBody = strip content) "reply body does not match provider output"
  expectSchema P schema receipt messageId content assistant route
  pure { receiptSchema := schema, inferenceReceiptSha256 := claimed,
         assistantMessageSha256 := P.stableSha256 assistant,
         assistantContentSha256 := P.sha256Bytes content,
         replyBodySha256 := P.sha256Bytes replyBody }

def usageSchema : String := "peerbridge.inference-usage.v1"

def tokenFields : List String :=
  ["input_tokens", "output_tokens", "total_tokens", "cached_input_tokens", "reasoning_tokens"]

def isUsageChar (c : Char) : Bool :=
  c.isLower || c.isDigit || c = '.' || c = '_' || c = '/' || c = '-'

def isUsageSourceText (t : String) : Bool :=
  let head := t.toList.takeWhile (· ≠ ':')
  let tail := t.toList.dropWhile (· ≠ ':')
  head.head?.any (fun c => c.isLower || c.isDigit) && head.all isUsageChar &&
    (tail = [] || (1 < tail.length && tail.tail.all isUsageChar))

def nonnegativeInt : Json → Except String (Option Nat)
  | .null => pure none
  | .int n => if 0 ≤ n then pure (some n.toNat)
    else throw "token counts must be non-negative integers"
  | _ => throw "token counts must be non-negative integers"

def unavailableUsage (source : String) : Usage :=
  { status := "unavailable", source, inputTokens := none, outputTokens := none,
    totalTokens := none, cachedInputTokens := none, reasoningTokens := none,
    fieldReportedCalls := tokenFields.map (fun f => (f, 0)), reportedCalls := 0, totalCalls := 1,
    totalTokensDerived := false }

def Usage.counts (u : Usage) : List (String × Option Nat) :=
  [("input_tokens", u.inputTokens), ("output_tokens", u.outputTokens),
    ("total_tokens", u.totalTokens), ("cached_input_tokens", u.cachedInputTokens),
    ("reasoning_tokens", u.reasoningTokens)]

def fieldCoverage (v : Json) (reported : Nat) (field : String) : Except String (String × Nat) := do
  let count ← nonnegativeInt (v.get field)
  let n ← demand (count.filter (· ≤ reported)) "field usage coverage exceeds reported calls"
  pure (field, n)

def usageCoverage (v : Json) (reported : Nat) (counts : List (String × Option Nat)) :
    Except String (List (String × Nat)) :=
  if v.isNull then
    pure (counts.map (fun f => (f.1, if f.2.isSome then reported else 0)))
  else match v with
  | .obj fields => do
    require (fields.all (fun f => f.1 ∈ tokenFields) = true ∧
        tokenFields.all (fun t => fields.any (fun f => f.1 = t)) = true)
      "field_reported_calls must contain every token field"
    tokenFields.mapM (fieldCoverage v reported)
  | _ => throw "field_reported_calls must contain every token field"

def totalTokensDerived (v : Json) : Except String Bool :=
  match v.field? "total_tokens_derived" with
  | none => pure false
  | some (.bool b) => pure b
  | some _ => throw "total_tokens_derived must be a boolean"

def requireUsageEvidence (u : Usage) : Except String Unit :=
  if u.status = "unavailable" then
    require (u.reportedCalls = 0 ∧ u.counts.all (fun f => f.2.isNone) = true ∧
        u.fieldReportedCalls.all (fun f => f.2 = 0) = true)
      "unavailable usage cannot claim token counts"
  else require (1 ≤ u.reportedCalls ∧
      (u.inputTokens.isSome || u.outputTokens.isSome || u.totalTokens.isSome) = true)
    "reported usage requires provider token evidence"

def requireDerivedTotal (u : Usage) : Except String Unit :=
  if u.totalTokensDerived then
    match u.inputTokens, u.outputTokens, u.totalTokens with
    | some input, some output, some total =>
      require (total = input + output) "derived total does not equal input plus output tokens"
    | _, _, _ => throw "derived total requires input, output, and total tokens"
  else pure ()

def requireUsage (u : Usage) : Except String Unit := do
  require (u.counts.map (fun f => f.2.isNone) = u.fieldReportedCalls.map (fun f => decide (f.2 = 0)))
    "token value and field usage coverage disagree"
  requireUsageEvidence u
  require (u.status = "reported" → u.reportedCalls = u.totalCalls)
    "fully reported usage must cover every call"
  require (u.status = "partial" → 0 < u.reportedCalls ∧ u.reportedCalls < u.totalCalls)
    "partial usage requires incomplete call coverage"

def validateUsage (F : TextForms) (P : Platform) (v : Json) : Except String Usage := do
  require ((v.get "schema").text? = some usageSchema) "unsupported inference usage schema"
  let status := (v.get "status").orText F
  require (status ∈ ["reported", "partial", "unavailable"]) "unsupported inference usage status"
  let source := strip ((v.get "source").orText F)
  require (source ≠ "" ∧ source.length ≤ 160 ∧ isUsageSourceText source = true ∧
    P.containsSecret source = false) "inference usage source is invalid"
  let inputTokens ← nonnegativeInt (v.get "input_tokens")
  let outputTokens ← nonnegativeInt (v.get "output_tokens")
  let totalTokens ← nonnegativeInt (v.get "total_tokens")
  let cachedInputTokens ← nonnegativeInt (v.get "cached_input_tokens")
  let reasoningTokens ← nonnegativeInt (v.get "reasoning_tokens")
  let reported ← nonnegativeInt (v.get "reported_calls")
  let total ← nonnegativeInt (v.get "total_calls")
  let invalid := "inference usage call counts are invalid"
  let reportedCalls ← demand reported invalid
  let totalCalls ← demand (total.filter (1 ≤ ·)) invalid
  require (reportedCalls ≤ totalCalls) "reported usage calls exceed total calls"
  let usage : Usage :=
    { status, source, inputTokens, outputTokens, totalTokens, cachedInputTokens, reasoningTokens,
      fieldReportedCalls := [], reportedCalls, totalCalls, totalTokensDerived := false }
  let fieldReportedCalls ← usageCoverage (v.get "field_reported_calls") reportedCalls usage.counts
  let usage := { usage with fieldReportedCalls }
  requireUsage usage
  let derived ← totalTokensDerived v
  let usage := { usage with totalTokensDerived := derived }
  requireDerivedTotal usage
  pure usage

def usageFromReceipt (F : TextForms) (P : Platform) (receipt : Json) : Except String Usage := do
  require (receipt.isObject = true) "receipt must be an object"
  let raw := receipt.get "usage"
  if raw.isObject then
    match validateUsage F P raw with
    | .ok usage => pure usage
    | .error _ => pure (unavailableUsage "runner-receipt-usage-invalid")
  else pure (unavailableUsage "runner-receipt-not-reported")

-- stable_sha256: SHA-256 over the canonical text
def Platform.Hashes (F : TextForms) (P : Platform) : Prop :=
  ∀ v, P.stableSha256 v = P.sha256Bytes (dumps F v)

def Platform.inference (F : TextForms) (P : Platform) : Platform :=
  { P with usageFromReceipt := PeerBridge.usageFromReceipt F P
           validateUsage := PeerBridge.validateUsage F P
           unavailableUsage := (PeerBridge.unavailableUsage "runner-receipt-not-reported").json
           validateInferenceReceipt := PeerBridge.validateInferenceReceipt F P }

theorem liftText_eq_ok {α : Type} {x : Except String α} {a : α} :
    liftText x = .ok a ↔ x = .ok a := by
  cases x <;> simp [liftText]

-- where a receipt names the message it answers
def messageField (schema : String) : String :=
  if schema = openaiCompatibleRun then "message_id_sha256" else "message_id"

def messageBinding (P : Platform) (schema messageId : String) : Json :=
  if schema = openaiCompatibleRun then .sha (P.stableSha256 (.str messageId)) else .str messageId

structure Validated (F : TextForms) (P : Platform) (receipt : Json) (messageId : String)
    (assistant : Json) (replyBody : String) (route : Json) (v : ValidatedReceipt) : Prop where
  object : receipt.isObject = true
  supported : v.receiptSchema ∈ supportedReceiptSchemas
  schema_eq : (receipt.get "schema").orText F = v.receiptSchema
  signed : P.stableSha256 receipt.unsigned = v.inferenceReceiptSha256
  body_eq : v.replyBodySha256 = P.sha256Bytes replyBody
  expected : ∃ content, strip content = replyBody ∧
    expectSchema P v.receiptSchema receipt messageId content assistant route = .ok ()

section Fields
variable {F : TextForms} {P : Platform} {v e : Json} {t u field label : String}

theorem Json.agrees_text (h : v.agrees e = true) (he : e.text? = some t) : v.text? = some t := by
  unfold Json.agrees at h
  split at h
  · rename_i hn
    cases e <;> simp [Json.isNull] at hn
    cases he
  · simp only [Bool.and_eq_true, decide_eq_true_eq] at h
    rw [h.2, he]

theorem Json.text?_chars (h : v.text? = some t) : jsonChars F v = JsonText.quote t.toList := by
  cases v with
  | str u =>
    obtain rfl : u = t := Option.some.inj h
    exact jsonChars.eq_5 ..
  | sha d =>
    obtain rfl : d.hex = t := Option.some.inj h
    exact jsonChars.eq_6 ..
  | _ => cases h

theorem Json.get_text {key : String} (h : (v.get key).text? = some t) :
    (v.field? key).map (jsonChars F) = some (JsonText.quote t.toList) := by
  unfold Json.get at h
  cases hv : v.field? key with
  | none =>
    rw [hv] at h
    cases h
  | some w =>
    rw [hv] at h
    exact congrArg some (Json.text?_chars h)

theorem expect_ok (h : expect v e field = .ok ()) : v.agrees e = true := require_eq_ok.mp h

theorem expectAll_ok {fields : List (String × Json)} (h : expectAll v label fields = .ok ()) :
    ∀ f ∈ fields, (v.get f.1).agrees f.2 = true := by
  induction fields with
  | nil => simp
  | cons f fields ih =>
    simp only [expectAll, bind_eq_ok] at h
    obtain ⟨_, hf, hrest⟩ := h
    intro g hg
    rcases List.mem_cons.mp hg with rfl | hg
    · exact expect_ok hf
    · exact ih hrest g hg

theorem validateInferenceReceipt_ok {receipt assistant route : Json} {messageId replyBody : String}
    {x : ValidatedReceipt}
    (h : validateInferenceReceipt F P receipt messageId assistant replyBody route = .ok x) :
    Validated F P receipt messageId assistant replyBody route x := by
  simp only [validateInferenceReceipt, bind_eq_ok, require_eq_ok, demand_eq_ok, pure_eq_ok] at h
  obtain ⟨-, hobj, -, -, -, hsup, claimed, -, -, hsig, -, -, content, -, -, hbody, _, hexp, rfl⟩ := h
  exact ⟨hobj, hsup, rfl, hsig, rfl, content, hbody.symm, hexp⟩

theorem Validated.message {receipt assistant route : Json} {messageId replyBody : String}
    {x : ValidatedReceipt}
    (h : Validated F P receipt messageId assistant replyBody route x) :
    (receipt.get (messageField x.receiptSchema)).agrees
      (messageBinding P x.receiptSchema messageId) = true := by
  obtain ⟨content, -, hexp⟩ := h.expected
  have hbackend {backend : String} {fields : List (String × Json)}
      (hb : expectBackend P receipt backend content fields = .ok ())
      (hmem : ("message_id", Json.str messageId) ∈ fields) :
      (receipt.get "message_id").agrees (.str messageId) = true := by
    simp only [expectBackend, bind_eq_ok] at hb
    obtain ⟨-, -, _, hall, -⟩ := hb
    exact expectAll_ok hall _ hmem
  unfold expectSchema at hexp
  unfold messageField messageBinding
  split at hexp
  · rename_i hs
    rw [if_pos hs, if_pos hs]
    simp only [expectOpenai, bind_eq_ok] at hexp
    obtain ⟨-, -, -, -, hall⟩ := hexp
    exact expectAll_ok hall ("message_id_sha256", _) (by simp)
  · rename_i hs
    rw [if_neg hs, if_neg hs]
    split at hexp
    · exact hbackend hexp (by simp [acpxFields])
    · split at hexp
      · exact hbackend hexp (by simp [ccswitchFields])
      · exact hbackend hexp (by simp [claudeNativeFields])

theorem Json.unsigned_field? {key : String} (hk : key ≠ "receipt_sha256") :
    v.unsigned.field? key = v.field? key := by
  cases v with
  | obj fields =>
    simp only [Json.unsigned, Json.field?, List.find?_filter]
    congr 2
    funext f
    by_cases hf : f.1 = key
    · simp [hf, hk]
    · simp [hf]
  | _ => rfl

theorem Json.unsigned_object (h : v.isObject = true) :
    ∃ fs, v.unsigned = .obj fs := by
  cases v with
  | obj fields => exact ⟨_, rfl⟩
  | _ => cases h

theorem supported_head (h : t ∈ supportedReceiptSchemas) : 'p' ∈ t.toList := by
  simp only [supportedReceiptSchemas, List.mem_cons, List.not_mem_nil, or_false] at h
  rcases h with rfl | rfl | rfl | rfl <;> decide

theorem orText_supported (hF : F.Plain) (h : v.orText F ∈ supportedReceiptSchemas) :
    jsonChars F v = JsonText.quote (v.orText F).toList := by
  have hempty : "" ∉ supportedReceiptSchemas := by decide
  have hnumber {w : String} (hw : ∀ c ∈ w.toList, isNumberChar c = true) :
      w ∉ supportedReceiptSchemas := by
    intro hm
    exact absurd (hw 'p' (supported_head hm)) (by decide)
  cases v with
  | str t => exact jsonChars.eq_5 ..
  | sha d => exact jsonChars.eq_6 ..
  | utc t => exact jsonChars.eq_7 ..
  | int n =>
    simp only [Json.orText] at h
    split at h
    · exact absurd h hempty
    · exact absurd h (hnumber (intText_chars n).2)
  | real q =>
    simp only [Json.orText] at h
    split at h
    · exact absurd h hempty
    · exact absurd h (hnumber (hF.real_chars q))
  | bool b =>
    cases b with
    | false => exact absurd h hempty
    | true => exact absurd h (show "True" ∉ supportedReceiptSchemas by decide)
  | null | arr items | obj fields => exact absurd h hempty

theorem Sha256.hex_inj {d d' : Sha256} (h : d.hex = d'.hex) : d = d' := by
  have hp := Sha256.parse?_hex d
  rw [h, Sha256.parse?_hex] at hp
  exact (Option.some.inj hp).symm

theorem quote_inj (h : JsonText.quote t.toList = JsonText.quote u.toList) : t = u :=
  String.toList_inj.mp (JsonText.quote_cancel (r := []) (s := []) (by rw [h])).1

/-- A receipt digest determines the message that the receipt answers. -/
theorem Validated.message_eq (hF : F.Plain) (hP : P.Hashes F) {r r' assistant assistant' route route' : Json}
    {id id' body body' : String} {x x' : ValidatedReceipt}
    (h : Validated F P r id assistant body route x)
    (h' : Validated F P r' id' assistant' body' route' x')
    (hsha : x.inferenceReceiptSha256 = x'.inferenceReceiptSha256)
    (hreceipt : P.sha256Bytes (dumps F r.unsigned) = P.sha256Bytes (dumps F r'.unsigned) →
      dumps F r.unsigned = dumps F r'.unsigned)
    (hid : P.sha256Bytes (dumps F (.str id)) = P.sha256Bytes (dumps F (.str id')) →
      dumps F (.str id) = dumps F (.str id')) : id = id' := by
  have htext : dumps F r.unsigned = dumps F r'.unsigned := by
    have hs := h.signed.trans (hsha.trans h'.signed.symm)
    rw [hP, hP] at hs
    exact hreceipt hs
  obtain ⟨fs, hfs⟩ := Json.unsigned_object h.object
  obtain ⟨gs, hgs⟩ := Json.unsigned_object h'.object
  have hfield {key : String} (hk : key ≠ "receipt_sha256") :
      (r.field? key).map (jsonChars F) = (r'.field? key).map (jsonChars F) := by
    rw [← Json.unsigned_field? hk, ← Json.unsigned_field? (v := r') hk, hfs, hgs]
    exact dumps_field? hF (hfs ▸ hgs ▸ htext) key
  have hschema {w : Json} {y : ValidatedReceipt} (hw : (w.get "schema").orText F = y.receiptSchema)
      (hy : y.receiptSchema ∈ supportedReceiptSchemas) :
      (w.field? "schema").map (jsonChars F) = some (JsonText.quote y.receiptSchema.toList) := by
    rw [← hw] at hy ⊢
    have hc := orText_supported hF hy
    unfold Json.get at hc hy ⊢
    cases hs : w.field? "schema" with
    | none => rw [hs] at hy; exact absurd hy (show "" ∉ supportedReceiptSchemas by decide)
    | some z => rw [hs] at hc; exact congrArg some hc
  have hsame : x.receiptSchema = x'.receiptSchema := by
    have hs := @hfield "schema" (by decide)
    rw [hschema h.schema_eq h.supported, hschema h'.schema_eq h'.supported] at hs
    exact quote_inj (Option.some.inj hs)
  have hm := h.message
  have hm' := h'.message
  rw [← hsame] at hm'
  have hkey : messageField x.receiptSchema ≠ "receipt_sha256" := by
    unfold messageField
    split <;> decide
  have hbound {t t' : String} (ht : (messageBinding P x.receiptSchema id).text? = some t)
      (ht' : (messageBinding P x.receiptSchema id').text? = some t') : t = t' := by
    have hf := hfield hkey
    rw [Json.get_text (Json.agrees_text hm ht), Json.get_text (Json.agrees_text hm' ht')] at hf
    exact quote_inj (Option.some.inj hf)
  unfold messageBinding at hbound
  split at hbound
  · have hd := Sha256.hex_inj (hbound rfl rfl)
    rw [hP, hP] at hd
    have he := dumps_inj (hid hd)
    rw [jsonChars, jsonChars] at he
    exact quote_inj he
  · exact hbound rfl rfl

end Fields

end PeerBridge
