import PeerBridge.Operations

namespace PeerBridge
open Checked Rows

def Json.item (key : String) (v : Json) : Json := (v.get? key).getD .null

def Json.orElse (a b : Json) : Json := if a.truthy then a else b

-- the member when it is an object, else the other value
def Json.innerOr (key : String) (v other : Json) : Json :=
  if (v.item key).isObj then v.item key else other

def Json.items? : Json → Option (List Json)
  | .arr items => some items
  | _ => none

def Json.values : Json → List Json
  | .obj fields => fields.map Prod.snd
  | _ => []

namespace ConversationImport

inductive ImportError where
  | conversation (text : String)
  | uncaught
  deriving DecidableEq, Repr

abbrev Bytes := List UInt8

structure Toolkit extends JsonReader where
  platform : Platform
  forms : TextForms
  -- json.loads raises something other than JSONDecodeError
  chokes : String → Bool
  lower : String → String
  redactSecrets : String → String
  fromTimestamp : ℚ → Option String
  fromIsoFormat : String → Option String
  pathName : String → String
  b64decode : String → Option Bytes
  decodeUtf8 : Bytes → Option String
  sha256 : Bytes → Sha256

def maxImportBytes : Nat := 16 * 1024 * 1024
def maxConversations : Nat := 128
def maxMessagesPerConversation : Nat := 2000
def maxTotalMessages : Nat := 5000
def maxTextChars : Nat := 20000

inductive Provider where
  | codex | claude | grok | kimi | generic
  deriving DecidableEq, Repr

def Provider.text : Provider → String
  | .codex => "codex"
  | .claude => "claude"
  | .grok => "grok"
  | .kimi => "kimi"
  | .generic => "generic"

def Provider.title : Provider → String
  | .codex => "Codex"
  | .claude => "Claude"
  | .grok => "Grok"
  | .kimi => "Kimi"
  | .generic => "Generic"

def Provider.all : List Provider := [.codex, .claude, .grok, .kimi, .generic]

inductive Role where
  | user | assistant | system | tool
  deriving DecidableEq, Repr

def Role.text : Role → String
  | .user => "user"
  | .assistant => "assistant"
  | .system => "system"
  | .tool => "tool"

def Role.all : List Role := [.user, .assistant, .system, .tool]

def clip (n : Nat) (t : String) : String := String.ofList (t.toList.take n)

theorem clip_short {n : Nat} {t : String} (h : t.toList.length ≤ n) : clip n t = t := by
  rw [clip, List.take_of_length_le h, String.ofList_toList]

def splitWords (t : String) : List String :=
  ((t.toList.splitOnP isSpace).filter (· ≠ [])).map String.ofList

def isLineEnd (c : Char) : Bool :=
  c = '\n' || c = '\r' || c.toNat = 11 || c.toNat = 12 || (28 ≤ c.toNat && c.toNat ≤ 30) ||
  c.toNat = 0x85 || c.toNat = 0x2028 || c.toNat = 0x2029

-- str.splitlines(): "\r\n" ends one line, and a last line end opens no further line
def splitLines : List Char → List Char → List String
  | [], [] => []
  | line, [] => [String.ofList line.reverse]
  | line, '\r' :: '\n' :: cs => String.ofList line.reverse :: splitLines [] cs
  | line, c :: cs =>
    if isLineEnd c then String.ofList line.reverse :: splitLines [] cs
    else splitLines (c :: line) cs

namespace Toolkit
variable (T : Toolkit)

def stableSha256 (v : Json) : Sha256 := T.platform.stableSha256 v

-- the first digits of the SHA-256 of a value
def digest (n : Nat) (v : Json) : String := clip n (T.stableSha256 v).hex

-- str(value or "")
def textOf (v : Json) : String := if v.truthy then T.str v else ""

def kindOf (v : Json) : String := T.lower (strip (T.field "type" v))

def read (t : String) : Except ImportError (Option Json) :=
  if T.chokes t then .error .uncaught else .ok (T.loads t)

end Toolkit

section Payload
variable (T : Toolkit)

def safeProvider (value : String) : Except ImportError Provider :=
  demand (Provider.all.find? (fun p => p.text = T.lower (strip value)))
    (.conversation "conversation provider is unsupported")

def safeSourceName (value : String) : String :=
  let name := strip (T.pathName (if value = "" then "conversation-export" else value))
  clip 240 (T.redactSecrets (if name = "" then "conversation-export" else name))

def safeSourceIdentifier (value kind : String) : String :=
  let identifier := strip value
  if identifier = "" then ""
  else if T.platform.containsSecret identifier then
    kind ++ "-redacted-" ++ T.digest 24 (.str identifier)
  else clip 500 (T.redactSecrets identifier)

def decodePayload (value : String) : Except ImportError Bytes := do
  let encoded := strip value
  require (encoded ≠ "") (.conversation "conversation export is empty")
  require (encoded.length ≤ maxImportBytes * 4 / 3 + 64)
    (.conversation "conversation export exceeds the import limit")
  let decoded ← demand (T.b64decode encoded)
    (.conversation "conversation export is not canonical base64")
  require (decoded ≠ [] ∧ decoded.length ≤ maxImportBytes)
    (.conversation "conversation export exceeds the import limit")
  pure decoded

def decodeText (value : Bytes) : Except ImportError String :=
  demand (T.decodeUtf8 value) (.conversation "conversation export must be UTF-8")

def timestamp : Json → Option String
  | .null => none
  | .bool b => T.fromTimestamp (if b then 1 else 0)
  | .int n => T.fromTimestamp n
  | .real q => T.fromTimestamp q
  | v =>
    if strip (T.str v) = "" then none
    else T.fromIsoFormat ((strip (T.str v)).replace "Z" "+00:00")

end Payload

section Messages
variable (T : Toolkit)

def hiddenKinds : List String :=
  ["thinking", "reasoning", "analysis", "tool_use", "tool_result", "function_call",
    "function_result", "command_execution", "command_result", "computer_initialize_state"]

def textKeys : List String := ["text", "message", "content", "parts"]

mutual
def visibleText : Json → String
  | .str t => t
  | .arr items => "\n".intercalate ((visibleTexts items).filter (· ≠ ""))
  | .obj fields =>
    if T.kindOf (.obj fields) ∈ hiddenKinds then ""
    else ((textKeys.filterMap (fun key =>
      (lookup Prod.fst key (fieldTexts fields)).map Prod.snd)).find? (· ≠ "")).getD ""
  | _ => ""
def visibleTexts : List Json → List String
  | [] => []
  | v :: vs => visibleText v :: visibleTexts vs
def fieldTexts : List (String × Json) → List (String × String)
  | [] => []
  | (k, v) :: fs => (k, visibleText v) :: fieldTexts fs
end

def roleAliases : List (String × Role) :=
  [("human", .user), ("agent", .assistant), ("model", .assistant), ("developer", .system),
    ("function", .tool)] ++ Role.all.map (fun r => (r.text, r))

def roleOf (value : Json) : Option Role :=
  (lookup Prod.fst (T.lower (strip (T.textOf value))) roleAliases).map Prod.snd

structure VisibleMessage where
  sourceMessageId : String
  role : Role
  createdUtc : Option String
  text : String
  secretRedacted : Bool
  deriving DecidableEq, Repr

def VisibleMessage.fields (m : VisibleMessage) : Json :=
  .obj [("created_utc", .opt m.createdUtc), ("role", .str m.role.text),
    ("secret_redacted", .bool m.secretRedacted), ("source_message_id", .str m.sourceMessageId),
    ("text", .str m.text)]

def VisibleMessage.fingerprint (m : VisibleMessage) : Sha256 := T.stableSha256 m.fields

def VisibleMessage.json (m : VisibleMessage) : Json :=
  .obj [("created_utc", .opt m.createdUtc), ("message_sha256", .str (m.fingerprint T).hex),
    ("role", .str m.role.text), ("secret_redacted", .bool m.secretRedacted),
    ("source_message_id", .str m.sourceMessageId), ("text", .str m.text)]

def plainText (content : Json) : String :=
  let visible := (visibleText T content).toList.map (fun c => if c.toNat = 0 then ' ' else c)
  " ".intercalate (splitWords (String.ofList visible))

def message (role content messageId createdUtc : Json) : Option VisibleMessage :=
  let text := clip maxTextChars (plainText T content)
  let redacted := T.redactSecrets text
  match roleOf T role with
  | none => none
  | some r =>
    if (r ≠ .user ∧ r ≠ .assistant) ∨ plainText T content = "" then none
    else
      let given := strip (T.textOf messageId)
      let sourceId := if given ≠ "" then given else T.digest 32 (.obj
        [("created_utc", .opt (timestamp T createdUtc)), ("role", .str r.text),
          ("text", .str redacted)])
      some { sourceMessageId := safeSourceIdentifier T sourceId "message"
             role := r
             createdUtc := timestamp T createdUtc
             text := redacted
             secretRedacted := redacted ≠ text }

structure HistoryMessage extends VisibleMessage where
  sequence : Nat
  deriving DecidableEq, Repr

def HistoryMessage.sha (m : HistoryMessage) : Sha256 :=
  T.stableSha256 (.obj [("created_utc", .opt m.createdUtc), ("role", .str m.role.text),
    ("secret_redacted", .bool m.secretRedacted), ("sequence", .int m.sequence),
    ("source_message_id", .str m.sourceMessageId), ("text", .str m.text)])

def HistoryMessage.json (m : HistoryMessage) : Json :=
  .obj [("created_utc", .opt m.createdUtc), ("message_sha256", .str (m.sha T).hex),
    ("role", .str m.role.text), ("secret_redacted", .bool m.secretRedacted),
    ("sequence", .int m.sequence), ("source_message_id", .str m.sourceMessageId),
    ("text", .str m.text)]

def deduplicateFrom (seen : List Sha256) (count : Nat) : List VisibleMessage → List HistoryMessage
  | [] => []
  | m :: ms =>
    if m.fingerprint T ∈ seen then deduplicateFrom seen count ms
    else if maxMessagesPerConversation ≤ count + 1 then [⟨m, count + 1⟩]
    else ⟨m, count + 1⟩ :: deduplicateFrom (m.fingerprint T :: seen) (count + 1) ms

def deduplicateMessages (ms : List VisibleMessage) : List HistoryMessage :=
  deduplicateFrom T [] 0 ms

end Messages

section Conversations
variable (T : Toolkit)

structure RawConversation where
  sourceConversationId : String
  title : Json
  messages : List VisibleMessage

def explicitKeys : List String :=
  ["source_conversation_id", "conversation_id", "conversationId", "session_id", "sessionId",
    "thread_id", "threadId"]

def conversationKeys : List String := explicitKeys ++ ["id"]

def identifierText : Json → Option String
  | .str t => if strip t = "" then none else some (strip t)
  | _ => none

def explicitId (keys : List String) (v : Json) : Option String :=
  keys.findSome? (fun key => identifierText (v.item key))

def conversationId (row : Json) (p : Provider) : String :=
  match [row, row.innerOr "payload" row].findSome? (explicitId conversationKeys) with
  | some identifier => identifier
  | none => p.text ++ "-" ++ T.digest 24 row

def titleText? : Json → Option String := identifierText

structure CodexScan where
  sessionId : Option String := none
  title : Option String := none
  messages : List VisibleMessage := []

def CodexScan.step (k : CodexScan) (raw : Json) : CodexScan :=
  if raw.isObj = false then k
  else
    let payload := raw.innerOr "payload" raw
    let outerType := T.kindOf raw
    let innerType := T.kindOf payload
    if outerType = "session_meta" ∨ innerType = "session_meta" then
      { k with
        sessionId := some (conversationId T payload .codex)
        title := (titleText? ((payload.item "title").orElse (payload.item "name"))).or k.title }
    else
      let spoken : Option (Json × Json) :=
        if innerType = "user_message" then some (.str "user", payload.item "message")
        else if innerType = "agent_message" ∨ innerType = "assistant_message" then
          some (.str "assistant", payload.item "message")
        else if outerType = "response_item" ∧ innerType ≠ "message" then none
        else some (payload.item "role", payload.item "content")
      match spoken with
      | none => k
      | some (role, content) =>
        let item := message T role content ((payload.item "id").orElse (raw.item "id"))
          ((raw.item "timestamp").orElse (payload.item "timestamp"))
        { k with messages := k.messages ++ item.toList }

def codexRows (rows : List Json) : List RawConversation :=
  let k := rows.foldl (CodexScan.step T) {}
  if k.messages = [] then []
  else
    let derived := "codex-" ++ T.digest 24 (.arr (k.messages.map (·.json T)))
    -- an empty session id never reaches here: identifiers are stripped and not blank
    [{ sourceConversationId := k.sessionId.getD derived
       title := .opt k.title
       messages := k.messages }]

structure ClaudeScan where
  grouped : List (String × List VisibleMessage) := []
  titles : List (String × String) := []

def addTo {α : Type} (identifier : String) (x : α) (groups : List (String × List α)) :
    List (String × List α) :=
  let held := ((lookup Prod.fst identifier groups).map Prod.snd).getD []
  upsert Prod.fst (identifier, held ++ [x]) groups

def ClaudeScan.step (k : ClaudeScan) (raw : Json) : ClaudeScan :=
  if raw.isObj = false then k
  else
    let identifier := conversationId T raw .claude
    let inner := raw.innerOr "message" raw
    let rawType := T.kindOf raw
    if rawType ∈ ["summary", "file-history-snapshot", "progress"] then k
    else
      let item := message T ((inner.item "role").orElse (.str rawType))
        ((inner.item "content").orElse (raw.item "content"))
        ((raw.item "uuid").orElse (inner.item "id"))
        ((raw.item "timestamp").orElse (inner.item "timestamp"))
      { grouped := match item with
          | some m => addTo identifier m k.grouped
          | none => k.grouped
        titles := match titleText? ((raw.item "title").orElse (raw.item "summary")) with
          | some t => if identifier ∈ k.titles.map Prod.fst then k.titles
            else k.titles ++ [(identifier, t)]
          | none => k.titles }

def claudeRows (rows : List Json) : List RawConversation :=
  let k := rows.foldl (ClaudeScan.step T) {}
  k.grouped.map (fun g =>
    { sourceConversationId := g.1
      title := .opt ((lookup Prod.fst g.1 k.titles).map Prod.snd)
      messages := g.2 })

def chatgptNode (node : Json) : Option VisibleMessage :=
  let raw := node.item "message"
  if raw.isObj then
    message T ((raw.innerOr "author" (.obj [])).item "role") (raw.item "content") (raw.item "id")
      (raw.item "create_time")
  else none

def chatgptMapping (value : Json) (p : Provider) : Option RawConversation :=
  if (value.item "mapping").isObj = false then none
  else
    let messages := (value.item "mapping").values.filterMap (chatgptNode T)
    if messages = [] then none
    else some { sourceConversationId := conversationId T value p
                title := value.item "title"
                messages }

def genericMessage (raw : Json) : Option VisibleMessage :=
  if raw.isObj = false then none
  else
    let author := raw.innerOr "author" (.obj [])
    let nested := raw.innerOr "message" (.obj [])
    message T
      ((((raw.item "role").orElse (author.item "role")).orElse (nested.item "role")).orElse
        (raw.item "type"))
      ((((raw.item "content").orElse (nested.item "content")).orElse (raw.item "message")).orElse
        (raw.item "text"))
      (((raw.item "id").orElse (raw.item "uuid")).orElse (nested.item "id"))
      (((raw.item "created_utc").orElse (raw.item "timestamp")).orElse (raw.item "create_time"))

def genericConversation (value : Json) (p : Provider) : Option RawConversation :=
  match chatgptMapping T value p with
  | some mapped => some mapped
  | none =>
    match (value.item "messages").items? with
    | none => none
    | some raws =>
      let messages := raws.filterMap (genericMessage T)
      if messages = [] then none
      else some { sourceConversationId := conversationId T value p
                  title := (value.item "title").orElse (value.item "name")
                  messages }

def groupRows (p : Provider) (values : List Json) : List Json :=
  let rows := values.filter (·.isObj)
  let explicit (v : Json) : Bool := (explicitId explicitKeys v).isSome
  let grouped := (rows.filter explicit).foldl (fun groups v =>
    addTo (conversationId T v p) v groups) []
  let missing := rows.filter (fun v => explicit v = false)
  let candidate (identifier : String) (members : List Json) : Json :=
    .obj [("source_conversation_id", .str identifier), ("messages", .arr members)]
  grouped.map (fun g => candidate g.1 g.2) ++
    if missing.isEmpty then []
    else [candidate (p.text ++ "-" ++ T.digest 24 (.arr missing)) missing]

def genericCandidates (values : List Json) (p : Provider) : List Json :=
  match values with
  | [.obj fields] => ((Json.obj fields).item "conversations").items?.getD [.obj fields]
  | [.arr items] => items
  | _ => groupRows T p values

def duplicateIdentities : ImportError :=
  .conversation "conversation export contains duplicate conversation identities"

def genericRows (values : List Json) (p : Provider) : Except ImportError (List RawConversation) := do
  let candidates := (genericCandidates T values p).filter (·.isObj)
  require ((candidates.map (fun v => clip 500 (conversationId T v p))).Nodup) duplicateIdentities
  pure (candidates.filterMap (fun v => genericConversation T v p))

end Conversations

section Parsing
variable (T : Toolkit)

-- one line of a JSONL export, with its number
def lineValue (x : String × Nat) : Except ImportError (Option Json) := do
  if strip x.1 = "" then pure none
  else
    let v ← T.read x.1
    some <$> demand v
      (.conversation ("conversation JSONL line " ++ toString x.2 ++ " is invalid"))

def jsonValues (text : String) : Except ImportError (List Json) := do
  require (strip text ≠ "") (.conversation "conversation export is empty")
  let whole ← T.read (strip text)
  match whole with
  | some v => pure [v]
  | none =>
    let rows ← ((splitLines [] text.toList).zipIdx 1).mapM (lineValue T)
    require (rows.reduceOption ≠ [])
      (.conversation "conversation export has no JSON records")
    pure rows.reduceOption

structure Conversation where
  sourceConversationId : String
  title : String
  startedUtc : Option String
  endedUtc : Option String
  timestampStatus : String
  messages : List HistoryMessage
  deriving DecidableEq

def messagesId (p : Provider) (ms : List HistoryMessage) : String :=
  p.text ++ "-" ++ T.digest 24 (.arr (ms.map (·.json T)))

def earliest : List String → Option String
  | [] => none
  | t :: ts => some (ts.foldl (fun a b => if b < a then b else a) t)

def latest : List String → Option String
  | [] => none
  | t :: ts => some (ts.foldl (fun a b => if a < b then b else a) t)

def titleOf (p : Provider) (title : Json) (ms : List HistoryMessage) : String :=
  let given := strip (T.textOf title)
  let firstUser := ((ms.find? (fun m => m.role = .user)).map (·.text)).getD ""
  let chosen := if given ≠ "" then given
    else if clip 120 firstUser ≠ "" then clip 120 firstUser else p.title ++ " conversation"
  clip 160 (T.redactSecrets chosen)

def normalize (p : Provider) (raw : RawConversation) (ms : List HistoryMessage) : Conversation :=
  let given := strip raw.sourceConversationId
  let timestamps := (ms.filterMap (·.createdUtc)).filter (· ≠ "")
  { sourceConversationId := clip 500 (if given = "" then messagesId T p ms else given)
    title := titleOf T p raw.title ms
    startedUtc := earliest timestamps
    endedUtc := latest timestamps
    timestampStatus := if timestamps = [] then "unavailable" else "source"
    messages := ms }

-- the conversations still to come share what is left of the message limit
def normalizeAll (p : Provider) (total : Nat) : List RawConversation → List Conversation
  | [] => []
  | raw :: raws =>
    let ms := deduplicateMessages T raw.messages
    if ms = [] then normalizeAll p total raws
    else if maxTotalMessages ≤ total then []
    else
      let kept := ms.take (maxTotalMessages - total)
      normalize T p raw kept :: normalizeAll p (total + kept.length) raws

def rawConversations (p : Provider) (values : List Json) :
    Except ImportError (List RawConversation) := do
  if p = .codex ∧ 1 < values.length then pure (codexRows T values)
  else if p = .claude ∧ 1 < values.length then pure (claudeRows T values)
  else
    let generic ← genericRows T values p
    if generic.isEmpty = false then pure generic
    else if p = .codex then pure (codexRows T values)
    else if p = .claude then pure (claudeRows T values)
    else pure []

def rawIdentity (p : Provider) (raw : RawConversation) : String :=
  let given := strip raw.sourceConversationId
  clip 500 (if given = "" then messagesId T p (deduplicateMessages T raw.messages) else given)

def parseConversationExport (p : Provider) (sourceBytes : Bytes) :
    Except ImportError (List Conversation) := do
  require (sourceBytes ≠ [] ∧ sourceBytes.length ≤ maxImportBytes)
    (.conversation "conversation export exceeds the import limit")
  let text ← decodeText T sourceBytes
  let values ← jsonValues T text
  let raws ← rawConversations T p values
  require ((raws.map (rawIdentity T p)).Nodup) duplicateIdentities
  let normalized := normalizeAll T p 0 (raws.take maxConversations)
  require (normalized ≠ [])
    (.conversation "conversation export contains no visible messages")
  pure normalized

end Parsing

end ConversationImport

end PeerBridge
