import PeerBridge.Lib.Attempt
import PeerBridge.Runner.Tools

namespace PeerBridge.Runner
open Attempt

inductive Turn where
  | input (message : Json)
  | assistant (message : Json)
  | tool (callId name content : String)

structure TraceEntry where
  toolName : String
  paramsSha256 : Sha256
  argumentsSha256 : Sha256
  resultSha256 : Sha256

structure ToolReceipt where
  round : Nat
  name : String
  argumentsFormat : String
  callIdSha256 : Sha256
  argumentsSha256 : Sha256
  resultSha256 : Sha256
  deriving DecidableEq

-- a tools/call request as the MCP server got it, and what came back
structure SentCall where
  round : Nat
  call : ToolRequest
  answer : Except RunnerError Json

-- a request to the provider
structure ChatRequest where
  conversation : List Turn
  offersTools : Bool

structure Tally where
  toolRounds : Nat
  toolCallCount : Nat
  toolArgumentChars : Nat
  toolResultChars : Nat
  toolReceipts : List ToolReceipt
  conversation : List Turn
  trace : List TraceEntry
  completions : List Completion
  sent : List SentCall
  chats : List ChatRequest
  checks : Nat

-- what the run is answered with, in the order it asks
structure Surroundings where
  opening : Except RunnerError (List (String × Json))
  registry : Except RunnerError Json
  access : Json → Except RunnerError Json
  provider : Nat → Except RunnerError Json
  mcp : Nat → Except RunnerError Json
  cancelled : Nat → Bool

abbrev Step (α : Type) : Type := Program Tally RunnerError α

def registryArguments : Json := .obj [("enabled_only", .bool false)]

def callParams (name : String) (arguments : Json) : Json :=
  .obj [("name", .str name), ("arguments", arguments)]

def isObject : Json → Bool
  | .obj _ => true
  | _ => false

section Steps
variable (P : Platform) (F : TextForms) (D : Decoder) (cfg : RunnerConfig) (env : Surroundings)

def checkCancelled : Step Unit := do
  let stop ← read (fun k => env.cancelled k.checks)
  change (fun k => { k with checks := k.checks + 1 })
  require (stop = false) (.cancelled "provider run was cancelled")

def readAnswer (answer : Except RunnerError Json) : Except RunnerError Json := do
  let result ← answer
  Checked.require (isObject result = true)
    (.transport "local MCP transport returned a non-object result")
  pure result

def traceEntry (name : String) (arguments result : Json) : TraceEntry :=
  { toolName := name, paramsSha256 := P.stableSha256 (callParams name arguments),
    argumentsSha256 := P.stableSha256 arguments, resultSha256 := P.stableSha256 result }

def mcpRequest (name : String) (arguments : Json) (answer : Except RunnerError Json) :
    Step Json := do
  let result ← lift (readAnswer answer)
  change (fun k => { k with trace := k.trace ++ [traceEntry P name arguments result] })
  pure result

def chat (conversation : List Turn) (offersTools : Bool) : Step Completion := do
  let payload ← read (fun k => env.provider k.chats.length)
  change (fun k => { k with chats := k.chats ++ [{ conversation, offersTools }] })
  let completion ← lift (payload.bind (readCompletion P D cfg))
  change (fun k => { k with completions := k.completions ++ [completion] })
  pure completion

def toolReceipt (round : Nat) (call : ToolRequest) (result : Json) : ToolReceipt :=
  { round, name := call.name, argumentsFormat := call.argumentsFormat,
    callIdSha256 := P.stableSha256 (.str call.id), argumentsSha256 := P.stableSha256 call.arguments,
    resultSha256 := P.stableSha256 result }

def account (call : ToolRequest) (result : Json) (text : String) (k : Tally) : Tally :=
  { k with
    toolCallCount := k.toolCallCount + 1
    toolArgumentChars := k.toolArgumentChars + call.argumentChars
    toolResultChars := k.toolResultChars + text.length
    toolReceipts := k.toolReceipts ++ [toolReceipt P k.toolRounds call result]
    conversation := k.conversation ++ [.tool call.id call.name text] }

def executeCall (call : ToolRequest) : Step Unit := do
  checkCancelled env
  let answer ← read (fun k => env.mcp k.sent.length)
  change (fun k => { k with sent := k.sent ++ [{ round := k.toolRounds, call, answer }] })
  let result ← mcpRequest P call.name call.arguments answer
  let text ← lift (toolResultText F result)
  let resultChars ← read Tally.toolResultChars
  require (resultChars + text.length ≤ cfg.maxCumulativeToolResultChars)
    (.toolCall "cumulative MCP tool result budget exceeded")
  change (account P call result text)

def requestedChars (calls : List ToolRequest) : Nat := (calls.map ToolRequest.argumentChars).sum

def admitBatch (calls : List ToolRequest) : Step Unit := do
  let k ← read id
  require (k.toolRounds < cfg.maxToolRounds)
    (.maxToolRounds "maximum MCP tool rounds exceeded")
  require (k.toolCallCount + calls.length ≤ cfg.maxToolCalls)
    (.toolCall "maximum total MCP tool calls exceeded")
  require (k.toolArgumentChars + requestedChars calls ≤ cfg.maxCumulativeToolArgumentChars)
    (.toolCall "cumulative MCP tool argument budget exceeded")
  require (k.toolResultChars < cfg.maxCumulativeToolResultChars)
    (.toolCall "cumulative MCP tool result budget exhausted")

-- one pass of the loop, which returns the final completion or goes on
def pass (schemas : List (String × Json)) : Step (Option Completion) := do
  let k ← read id
  let completion ← chat P D cfg env k.conversation (decide (k.toolRounds < cfg.maxToolRounds))
  let calls ← lift (toolCalls F D cfg.allowedTools schemas completion.assistant)
  match calls with
  | [] => pure (some completion)
  | calls => do
    admitBatch cfg calls
    change (fun k => { k with toolRounds := k.toolRounds + 1
                              conversation := k.conversation ++ [.assistant completion.assistant] })
    each (executeCall P F cfg env) calls
    pure none

-- none is a loop that is still running when the passes are used up
def toolLoop (schemas : List (String × Json)) : Nat → Step (Option Completion)
  | 0 => pure none
  | passes + 1 => do
    let final ← pass P F D cfg env schemas
    match final with
    | some completion => pure (some completion)
    | none => toolLoop schemas passes

def fallbackInstruction : String :=
  "PeerBridge has disabled model-visible tools for this safety fallback. " ++
  "Answer the addressed request directly using only the supplied conversation. " ++
  "If live PeerBridge evidence would be required, state that limitation instead " ++
  "of inventing facts. Do not request or simulate any tool call."

def instructionMessage : Json :=
  .obj [("role", .str "system"), ("content", .str fallbackInstruction)]

structure ResponseOnlyFallback where
  used : Bool
  reasonCode : Option String
  modelVisibleTools : Bool
  instructionSha256 : Option Sha256

def noFallback : ResponseOnlyFallback :=
  { used := false, reasonCode := none, modelVisibleTools := true, instructionSha256 := none }

def respondOnly (schemas : List (String × Json)) (initial : List Json) (e : RunnerError) :
    Step (Option (Completion × ResponseOnlyFallback)) := do
  checkCancelled env
  let completion ← chat P D cfg env (.input instructionMessage :: initial.map .input) false
  let calls ← lift (toolCalls F D cfg.allowedTools schemas completion.assistant)
  require (calls.length = 0) (.toolCall "assistant requested tools during response-only fallback")
  pure (some (completion,
    { used := true, reasonCode := fallbackReason e, modelVisibleTools := false,
      instructionSha256 := some (P.stableSha256 (.str fallbackInstruction)) }))

def converse (schemas : List (String × Json)) (initial : List Json) (passes : Nat) :
    Step (Option (Completion × ResponseOnlyFallback)) :=
  rescue (fun e => cfg.responseOnlyFallbackOnToolError && e.recoverable)
    (do
      let final ← toolLoop P F D cfg env schemas passes
      pure (final.map (fun completion => (completion, noFallback))))
    (respondOnly P F D cfg env schemas initial)

structure ToolBudget where
  toolCallsUsed : Nat
  cumulativeArgumentCharsUsed : Nat
  cumulativeResultCharsUsed : Nat

structure InferenceReceipt where
  connection : Json
  inputMessagesSha256 : Sha256
  outputMessageSha256 : Sha256
  completionResponseSha256 : List Sha256
  observedResponseModelIds : List String
  finishReason : Option String
  toolRounds : Nat
  toolBudget : ToolBudget
  toolCalls : List ToolReceipt
  responseOnlyFallback : ResponseOnlyFallback
  mcpCalls : List TraceEntry
  usages : List Json

structure InferenceResult where
  assistantMessage : Json
  receipt : InferenceReceipt

def settle (connection : Json) (messages : List Json) (final : Completion)
    (fallback : ResponseOnlyFallback) (k : Tally) : InferenceResult :=
  { assistantMessage := final.assistant
    receipt :=
      { connection, inputMessagesSha256 := P.stableSha256 (.arr messages),
        outputMessageSha256 := P.stableSha256 final.assistant,
        completionResponseSha256 := k.completions.map Completion.completionSha256,
        observedResponseModelIds := k.completions.map Completion.responseModel,
        finishReason := final.finishReason, toolRounds := k.toolRounds,
        toolBudget :=
          { toolCallsUsed := k.toolCallCount, cumulativeArgumentCharsUsed := k.toolArgumentChars,
            cumulativeResultCharsUsed := k.toolResultChars },
        toolCalls := k.toolReceipts, responseOnlyFallback := fallback, mcpCalls := k.trace,
        usages := k.completions.map Completion.usage } }

def startTally (messages : List Json) : Tally :=
  { toolRounds := 0, toolCallCount := 0, toolArgumentChars := 0, toolResultChars := 0,
    toolReceipts := [], conversation := messages.map .input, trace := [], completions := [],
    sent := [], chats := [], checks := 0 }

-- the registry call, by which the run opens
structure Registry where
  result : Json
  argumentChars : Nat
  resultChars : Nat

def registryCharge (result : Json) : Registry :=
  { result, argumentChars := (dumps F registryArguments).length,
    resultChars := (dumps F result).length }

def openRun : Step (List (String × Json) × Registry × Json) := do
  checkCancelled env
  let schemas ← lift env.opening
  -- the provider registry is a real tools/call
  change (fun k => { k with toolCallCount := 1 })
  let result ← mcpRequest P registryTool registryArguments env.registry
  let connection ← lift (env.access result)
  let registry := registryCharge F result
  change (fun k => { k with toolArgumentChars := registry.argumentChars
                            toolResultChars := registry.resultChars })
  require (registry.argumentChars ≤ cfg.maxCumulativeToolArgumentChars)
    (.toolCall "cumulative MCP tool argument budget exceeded")
  require (registry.resultChars ≤ cfg.maxCumulativeToolResultChars)
    (.toolCall "cumulative MCP tool result budget exceeded")
  pure (schemas, registry, connection)

def runUnchecked (messages : List Json) (passes : Nat) : Step (Option InferenceResult) := do
  require (messages ≠ []) (.configuration "at least one input message is required")
  let (schemas, _, connection) ← openRun P F cfg env
  let final ← converse P F D cfg env schemas messages passes
  match final with
  | some (completion, fallback) =>
    read (fun k => some (settle P connection messages completion fallback k))
  | none => pure none

end Steps

end PeerBridge.Runner
