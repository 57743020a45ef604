import PeerBridge.CanonicalCode

namespace PeerBridge.Runner
open Checked

inductive RunnerError where
  | configuration (text : String)
  | credential (text : String)
  | routeMismatch (text : String)
  | provider (text : String)
  | transport (text : String)
  | toolCall (text : String)
  | maxToolRounds (text : String)
  | cancelled (text : String)
  | other (text : String)
  deriving DecidableEq

-- the errors that the response-only fallback answers
def RunnerError.recoverable : RunnerError → Bool
  | .toolCall _ | .maxToolRounds _ | .transport _ => true
  | _ => false

def fallbackReason : RunnerError → Option String
  | .maxToolRounds _ => some "max_tool_rounds_exceeded"
  | .toolCall _ => some "tool_call_validation_failed"
  | .transport _ => some "mcp_tool_execution_failed"
  | _ => none

def maxToolArgumentChars : Nat := 1000000
def maxToolResultChars : Nat := 4000000
def registryTool : String := "list_provider_connections"

structure RunnerConfig where
  model : String
  responseModel : Option String
  allowedTools : List String
  maxToolRounds : Nat
  maxToolCalls : Nat
  maxCumulativeToolArgumentChars : Nat
  maxCumulativeToolResultChars : Nat
  responseOnlyFallbackOnToolError : Bool
  toolCalls_pos : 1 ≤ maxToolCalls
  argumentChars_pos : 1 ≤ maxCumulativeToolArgumentChars
  resultChars_pos : 1 ≤ maxCumulativeToolResultChars

-- json.loads of strict object text
structure Decoder where
  object : String → Option (List (String × Json))
  usage : Option Json → Json

structure ToolRequest where
  id : String
  name : String
  arguments : Json
  argumentChars : Nat
  argumentsFormat : String

def typeName : Json → String
  | .null => "NoneType"
  | .bool _ => "bool"
  | .int _ => "int"
  | .real _ => "float"
  | .str _ | .sha _ | .utc _ => "str"
  | .arr _ => "list"
  | .obj _ => "dict"

def acceptsEmptyObjectSchema (schema : Option Json) : Bool :=
  match schema with
  | some (.obj fields) =>
    let get (key : String) := (Json.obj fields).field? key
    (match get "type" with | some (.str "object") => true | _ => false) &&
    (match get "properties" with | some (.obj _) => true | _ => false) &&
    (match get "required" with | none | some (.arr []) => true | _ => false) &&
    (match get "additionalProperties" with | some (.bool false) => true | _ => false)
  | _ => false

def gatewayFormat (text : String) : Option String :=
  if text = "\x7b\x7b\x7d\x7d" then some "gateway-double-brace-empty-object"
  else if text = "\x7b\x7d\x7b\x7d" then some "gateway-concatenated-empty-objects"
  else none

def malformedArguments : RunnerError := .toolCall "assistant returned malformed tool arguments"

-- the arguments, their length and the format they came in
def readArguments (F : TextForms) (D : Decoder) (schema : Option Json) :
    Option Json → Except RunnerError (Json × Nat × String)
  | some (.str text) => do
    Checked.require (strip text ≠ "") (.toolCall "assistant returned empty tool arguments")
    match gatewayFormat text, acceptsEmptyObjectSchema schema with
    | some format, true => pure (.obj [], text.length, format)
    | _, _ =>
      Checked.require (text.length ≤ maxToolArgumentChars) malformedArguments
      match D.object text with
      | some fields => pure (.obj fields, text.length, "json-string")
      | none => throw (.toolCall "assistant returned non-object JSON tool arguments")
  | some (.obj fields) => pure (.obj fields, (dumps F (.obj fields)).length, "json-object")
  | raw => throw (.toolCall ("assistant returned unsupported tool argument type: " ++
      typeName (raw.getD .null)))

def malformedCall : RunnerError := .toolCall "assistant returned a malformed tool call"

def toolCall (F : TextForms) (D : Decoder) (allowed : List String)
    (schemas : List (String × Json)) (ids : List String) (raw : Json) :
    Except RunnerError ToolRequest := do
  match raw.field? "id", raw.field? "type", raw.field? "function" with
  | some (.str id), some (.str "function"), some (.obj function) =>
    Checked.require (id ≠ "" ∧ id.length ≤ 500 ∧ id ∉ ids) malformedCall
    match (Json.obj function).field? "name" with
    | some (.str name) =>
      Checked.require (name ∈ allowed)
        (.toolCall "assistant requested an unknown or disallowed tool")
      let (arguments, argumentChars, argumentsFormat) ←
        readArguments F D ((Json.obj schemas).field? name) ((Json.obj function).field? "arguments")
      Checked.require (argumentChars ≤ maxToolArgumentChars) malformedArguments
      pure { id, name, arguments, argumentChars, argumentsFormat }
    | _ => throw (.toolCall "assistant requested an unknown or disallowed tool")
  | _, _, _ => throw malformedCall

def collectCalls (F : TextForms) (D : Decoder) (allowed : List String)
    (schemas : List (String × Json)) : List ToolRequest → List Json → Except RunnerError (List ToolRequest)
  | calls, [] => pure calls
  | calls, raw :: raws => do
    let call ← toolCall F D allowed schemas (calls.map ToolRequest.id) raw
    collectCalls F D allowed schemas (calls ++ [call]) raws

def toolCalls (F : TextForms) (D : Decoder) (allowed : List String)
    (schemas : List (String × Json)) (message : Json) : Except RunnerError (List ToolRequest) :=
  match message.field? "tool_calls" with
  | none | some .null => pure []
  | some (.arr (raw :: raws)) => collectCalls F D allowed schemas [] (raw :: raws)
  | some _ => throw (.toolCall "assistant tool_calls must be a non-empty array")

section Collecting
variable {F : TextForms} {D : Decoder} {allowed : List String} {schemas : List (String × Json)}

theorem toolCall_ok {ids : List String} {raw : Json} {call : ToolRequest}
    (h : toolCall F D allowed schemas ids raw = .ok call) :
    call.name ∈ allowed ∧ call.id ∉ ids := by
  simp only [toolCall] at h
  split at h
  · simp only [bind_eq_ok, require_eq_ok] at h
    obtain ⟨_, hid, h⟩ := h
    split at h
    · simp only [bind_eq_ok, require_eq_ok] at h
      obtain ⟨_, hname, _, _, _, _, h⟩ := h
      cases h
      exact ⟨hname, hid.2.2⟩
    · cases h
  · cases h

-- the calls of one round
def Batchable (allowed : List String) (calls : List ToolRequest) : Prop :=
  (∀ c ∈ calls, c.name ∈ allowed) ∧ (calls.map ToolRequest.id).Nodup

theorem Batchable.push {calls : List ToolRequest} {call : ToolRequest}
    (h : Batchable allowed calls) (hn : call.name ∈ allowed)
    (hi : call.id ∉ calls.map ToolRequest.id) : Batchable allowed (calls ++ [call]) := by
  constructor
  · intro c hc
    rcases List.mem_append.mp hc with hc | hc
    · exact h.1 c hc
    · exact List.mem_singleton.mp hc ▸ hn
  · rw [List.map_append]
    refine h.2.append (List.nodup_singleton _) ?_
    rintro id hid hl
    obtain rfl := List.mem_singleton.mp hl
    exact hi hid

theorem collectCalls_batchable {raws : List Json} {calls result : List ToolRequest}
    (hc : Batchable allowed calls) (h : collectCalls F D allowed schemas calls raws = .ok result) :
    Batchable allowed result := by
  induction raws generalizing calls with
  | nil =>
    cases h
    exact hc
  | cons raw raws ih =>
    simp only [collectCalls, bind_eq_ok] at h
    obtain ⟨call, hcall, h⟩ := h
    obtain ⟨hname, hid⟩ := toolCall_ok hcall
    exact ih (hc.push hname hid) h

theorem toolCalls_batchable {message : Json} {calls : List ToolRequest}
    (h : toolCalls F D allowed schemas message = .ok calls) : Batchable allowed calls := by
  have hnil : Batchable allowed [] := ⟨nofun, List.nodup_nil⟩
  simp only [toolCalls] at h
  split at h
  · cases h
    exact hnil
  · cases h
    exact hnil
  · exact collectCalls_batchable hnil h
  · cases h

end Collecting

def contentText : Json → Option String
  | .obj fields =>
    match (Json.obj fields).field? "type", (Json.obj fields).field? "text" with
    | some (.str "text"), some (.str text) => some text
    | _, _ => none
  | _ => none

def joinTexts (F : TextForms) (result : Json) : Except RunnerError String :=
  match result.field? "structuredContent" with
  | some .null | none =>
    match result.field? "content" with
    | some (.arr (item :: items)) =>
      match (item :: items).mapM contentText with
      | some texts => pure ("\n".intercalate texts)
      | none => throw (.transport "MCP tool result contains unsupported content")
    | _ => throw (.transport "MCP tool result is malformed")
  | some structured => pure (dumps F structured)

def toolResultText (F : TextForms) (result : Json) : Except RunnerError String := do
  match result.field? "isError" with
  | some (.bool true) => throw (.transport "MCP tool returned an error")
  | _ =>
    let text ← joinTexts F result
    Checked.require (text.length ≤ maxToolResultChars)
      (.transport "MCP tool result exceeded the size limit")
    pure text

structure Completion where
  assistant : Json
  completionSha256 : Sha256
  finishReason : Option String
  responseModel : String
  usage : Json

def normalizeMessage (fields : List (String × Json)) : Json :=
  .obj ((["role", "content", "tool_calls"] : List String).filterMap
    (fun key => ((Json.obj fields).field? key).map (fun v => (key, v))))

def finishReason? : Option Json → Except RunnerError (Option String)
  | none | some .null => pure none
  | some (.str reason) => pure (some reason)
  | some _ => throw (.provider "provider returned an invalid finish reason")

-- what _chat makes of the payload of one response
def readCompletion (P : Platform) (D : Decoder) (cfg : RunnerConfig) (payload : Json) :
    Except RunnerError Completion := do
  match payload.field? "model" with
  | some (.str observed) =>
    Checked.require (observed = cfg.model ∨ some observed = cfg.responseModel)
      (.routeMismatch "chat completion model identity mismatch")
    match payload.field? "choices" with
    | some (.arr [choice]) =>
      match choice.field? "message" with
      | some (.obj message) =>
        match (Json.obj message).field? "role" with
        | some (.str "assistant") =>
          let finishReason ← finishReason? (choice.field? "finish_reason")
          pure { assistant := normalizeMessage message, completionSha256 := P.stableSha256 payload,
                 finishReason, responseModel := observed,
                 usage := D.usage (payload.field? "usage") }
        | _ => throw (.provider "provider returned a non-assistant message")
      | _ => throw (.provider "provider returned an invalid assistant message")
    | _ => throw (.provider "provider returned an invalid choices array")
  | _ => throw (.routeMismatch "chat completion model identity mismatch")

end PeerBridge.Runner
