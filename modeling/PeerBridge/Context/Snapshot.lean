import PeerBridge.Memories.Queries

namespace PeerBridge.Context
open Checked Rows Memories

def defaultRoomContextMessages : Int := 24
def maxRoomContextMessages : Int := 100
def defaultRoomContextChars : Int := 24000
def maxRoomContextChars : Int := 100000
def maxRoomContextMessageChars : Nat := 8000
def maxMemoryContextChars : Nat := 8000

def artifactPathsJson (paths : List String) : String :=
  "[" ++ ", ".intercalate (paths.map (fun p => String.ofList (JsonText.quote p.toList))) ++ "]"

def discussionFields (F : TextForms) (m : MessageRow) : List (String × Json) :=
  [("created_utc", .str (F.utc m.createdUtc)), ("discussion_id", .opt m.discussionId),
    ("discussion_round", (m.discussionRound.map (fun n => Json.int n)).getD .null),
    ("discussion_role", .opt (m.discussionRole.map DiscussionRole.text))]

-- route-specific copies of a root message collapse, replies are told apart by recipient
def roomContextDedupKey (P : Platform) (F : TextForms) (m : MessageRow) : Sha256 :=
  P.stableSha256 <| .obj <|
    match m.replyTo with
    | none =>
      [("sender", .str m.sender), ("task_id", .str m.taskId), ("subject", .str m.subject),
        ("body", .str m.body), ("artifact_paths_json", .str (artifactPathsJson m.artifactPaths))] ++
      discussionFields F m
    | some replyTo =>
      [("sender", .str m.sender), ("recipient", .str m.recipient), ("subject", .str m.subject),
        ("body", .str m.body), ("reply_to", .str replyTo)] ++ discussionFields F m

structure ContextMessage where
  role : String
  content : String
  deriving DecidableEq

def ContextMessage.json (m : ContextMessage) : Json :=
  .obj [("role", .str m.role), ("content", .str m.content)]

-- the body as it follows its heading within the limit, and whether it was cut
def clip (marker heading body : String) (limit : Nat) : String × Bool :=
  let available := limit - heading.length
  if available < body.length then
    (heading ++ (String.ofList (body.toList.take (available - marker.length)) ++ marker), true)
  else (heading ++ body, false)

def historyMarker : String := "\n[history message truncated]"

def historyHeading (m : MessageRow) : String :=
  let sender := if m.sender = "" then "unknown" else m.sender
  let subject := strip m.subject
  "[Same-room history | sender=" ++ sender ++
    (if subject = "" then "" else " | subject=" ++ subject) ++ "]\n"

def historyBody (m : MessageRow) : String := strip m.body

def roomContextMessage (m : MessageRow) (charLimit : Nat) : ContextMessage × Bool :=
  let cut := clip historyMarker (historyHeading m) (historyBody m) charLimit
  ({ role := if m.sender = humanOperatorId then "user" else "assistant", content := cut.1 }, cut.2)

def memoryMarker : String := "\n[memory truncated]"

def memoryHeading (m : MemoryRow) : String :=
  "[Durable same-room memory | type=" ++ (if m.recordType = "" then "FACT" else m.recordType) ++
    " | title=" ++ strip m.title ++ "]\n"

def memoryBody (m : MemoryRow) : String := strip m.body

structure MemoryPart where
  messages : List ContextMessage
  bindings : List (String × String)
  usedChars : Nat
  truncated : Bool

def MemoryPart.empty : MemoryPart :=
  { messages := [], bindings := [], usedChars := 0, truncated := false }

def MemoryPart.add (budget : Nat) (k : MemoryPart) (m : MemoryRow) : MemoryPart :=
  let heading := memoryHeading m
  if budget ≤ k.usedChars + heading.length then { k with truncated := true }
  else
    let cut := clip memoryMarker heading (memoryBody m) (budget - k.usedChars)
    { messages := k.messages ++ [{ role := "system", content := cut.1 }],
      bindings := k.bindings ++ [(m.memoryId, m.memorySha256)],
      usedChars := k.usedChars + cut.1.length, truncated := k.truncated || cut.2 }

def bindingJson (x : String × String) : Json :=
  .obj [("memory_id", .str x.1), ("memory_sha256", .str x.2)]

structure HistoryPart where
  seen : List Sha256
  -- newest first
  selected : List (Nat × ContextMessage)
  duplicates : Nat
  omitted : Nat
  truncated : Bool
  usedChars : Nat

def HistoryPart.start (key : Sha256) : HistoryPart :=
  { seen := [key], selected := [], duplicates := 0, omitted := 0, truncated := false, usedChars := 0 }

def HistoryPart.add (P : Platform) (F : TextForms) (maxMessages budget : Nat) (k : HistoryPart)
    (m : MessageRow) : HistoryPart :=
  let key := roomContextDedupKey P F m
  if key ∈ k.seen then { k with duplicates := k.duplicates + 1 }
  else
    let k := { k with seen := key :: k.seen }
    if maxMessages ≤ k.selected.length ∨ budget ≤ k.usedChars then
      { k with omitted := k.omitted + 1 }
    else
      -- the limit is never zero here
      let perMessageLimit := min maxRoomContextMessageChars (budget - k.usedChars)
      let rendered := roomContextMessage m perMessageLimit
      { k with selected := k.selected ++ [(m.sequence, rendered.1)],
               truncated := k.truncated || rendered.2,
               usedChars := k.usedChars + rendered.1.content.length }

structure ContextReceipt where
  scope : String
  roomId : String
  agentId : String
  sourceMessageId : String
  historyMessageCount : Nat
  historyChars : Nat
  memoryRecordCount : Nat
  memoryChars : Nat
  memorySha256 : Sha256
  memoryInjected : Bool
  memoryTruncated : Bool
  contextMessageCount : Nat
  contextChars : Nat
  historySha256 : Sha256
  contextSha256 : Sha256
  duplicateRowsOmitted : Nat
  historyTruncated : Bool
  oldestSequence : Option Nat
  newestSequence : Option Nat

def optNat (o : Option Nat) : Json := (o.map (fun n => Json.int n)).getD .null

def ContextReceipt.json (r : ContextReceipt) : Json :=
  .obj [("schema", .str "peerbridge.room-prompt-context.v2"), ("scope", .str r.scope),
    ("room_id", .str r.roomId), ("agent_id", .str r.agentId),
    ("source_message_id", .str r.sourceMessageId),
    ("history_message_count", .int r.historyMessageCount), ("history_chars", .int r.historyChars),
    ("memory_record_count", .int r.memoryRecordCount), ("memory_chars", .int r.memoryChars),
    ("memory_sha256", .sha r.memorySha256), ("memory_injected", .bool r.memoryInjected),
    ("memory_truncated", .bool r.memoryTruncated),
    ("context_message_count", .int r.contextMessageCount), ("context_chars", .int r.contextChars),
    ("history_sha256", .sha r.historySha256), ("context_sha256", .sha r.contextSha256),
    ("duplicate_rows_omitted", .int r.duplicateRowsOmitted),
    ("visibility_filter", .str "recipient_self_or_broadcast_or_explicit_room_visibility"),
    ("history_truncated", .bool r.historyTruncated), ("oldest_sequence", optNat r.oldestSequence),
    ("newest_sequence", optNat r.newestSequence)]

structure RoomContext where
  messages : List ContextMessage
  receipt : ContextReceipt
  receiptSha256 : Sha256

structure ContextArgs where
  messageId : String
  maxMessages : Int := defaultRoomContextMessages
  maxChars : Int := defaultRoomContextChars

def ContextArgs.messageLimit (a : ContextArgs) : Nat :=
  (max 0 (min a.maxMessages maxRoomContextMessages)).toNat

def ContextArgs.charLimit (a : ContextArgs) : Nat :=
  (max 0 (min a.maxChars maxRoomContextChars)).toNat

def ContextArgs.scanLimit (a : ContextArgs) : Nat :=
  max 256 (min 2000 (max 1 a.messageLimit * 16))

def ContextArgs.memoryBudget (a : ContextArgs) : Nat :=
  min maxMemoryContextChars (a.charLimit / 3)

def visibleTo (b : Bridge) (roomId : String) (m : MessageRow) : Prop :=
  m.scope = b.scope ∧ m.roomId = roomId ∧
    (m.recipient = b.agentId ∨ m.recipient = "*" ∨ m.visibility = .room)

instance (b : Bridge) (roomId : String) (m : MessageRow) : Decidable (visibleTo b roomId m) :=
  inferInstanceAs (Decidable (_ ∧ _ ∧ _))

def newerFirst (m n : MessageRow) : Prop := n.sequence ≤ m.sequence

instance : DecidableRel newerFirst := fun _ _ => inferInstanceAs (Decidable (_ ≤ _))

def historyRows (b : Bridge) (current : MessageRow) (v : Vault) : List MessageRow :=
  (v.store.mail.messages.filter
    (fun m => visibleTo b current.roomId m ∧ m.sequence < current.sequence)).insertionSort newerFirst

def sharedMemory (b : Bridge) (roomId : String) (m : MemoryRow) : Prop :=
  m.scope = b.scope ∧ m.roomId = some roomId ∧ m.visibility = "room"

instance (b : Bridge) (roomId : String) (m : MemoryRow) : Decidable (sharedMemory b roomId m) :=
  inferInstanceAs (Decidable (_ ∧ _ ∧ _))

def memoryRows (b : Bridge) (current : MessageRow) (v : Vault) : List MemoryRow :=
  ((v.memories.filter
    (fun m => sharedMemory b current.roomId m ∧ m.status = "active")).insertionSort later).take 8

def memoryPart (a : ContextArgs) (rows : List MemoryRow) : MemoryPart :=
  rows.reverse.foldl (MemoryPart.add a.memoryBudget) .empty

def historyPart (P : Platform) (F : TextForms) (a : ContextArgs) (memoryChars : Nat)
    (current : MessageRow) (rows : List MessageRow) : HistoryPart :=
  rows.foldl (HistoryPart.add P F a.messageLimit (a.charLimit - memoryChars))
    (.start (roomContextDedupKey P F current))

def digestMessages (P : Platform) (xs : List ContextMessage) : Sha256 :=
  P.stableSha256 (.arr (xs.map ContextMessage.json))

def assemble (P : Platform) (b : Bridge) (a : ContextArgs) (messageId : String)
    (current : MessageRow) (scanned : Nat) (memory : MemoryPart) (history : HistoryPart) :
    RoomContext :=
  let selected := history.selected.reverse
  let historyMessages := selected.map Prod.snd
  let messages := memory.messages ++ historyMessages
  let sequences := selected.map Prod.fst
  let receipt : ContextReceipt :=
    { scope := b.scope, roomId := current.roomId, agentId := b.agentId,
      sourceMessageId := messageId, historyMessageCount := historyMessages.length,
      historyChars := history.usedChars, memoryRecordCount := memory.messages.length,
      memoryChars := memory.usedChars,
      memorySha256 := P.stableSha256 (.arr (memory.bindings.map bindingJson)),
      memoryInjected := !memory.messages.isEmpty, memoryTruncated := memory.truncated,
      contextMessageCount := messages.length,
      contextChars := memory.usedChars + history.usedChars,
      historySha256 := digestMessages P historyMessages, contextSha256 := digestMessages P messages,
      duplicateRowsOmitted := history.duplicates,
      historyTruncated := history.truncated || decide (history.omitted ≠ 0) ||
        decide (scanned = a.scanLimit),
      oldestSequence := sequences.head?, newestSequence := sequences.getLast? }
  { messages, receipt, receiptSha256 := P.stableSha256 receipt.json }

def roomPromptContext (P : Platform) (F : TextForms) (b : Bridge) (a : ContextArgs) (v : Vault) :
    Except BridgeError RoomContext := do
  let messageId ← requireIdentifier a.messageId "message_id"
  let unaddressed := BridgeError.bridge "source message is not addressed to this agent"
  let current ← demand (v.store.mail.message? b.scope messageId) unaddressed
  require (current.recipient = b.agentId ∨ current.recipient = "*") unaddressed
  requireRoomMember b current.roomId b.agentId v.store.rooms
  let rows := (historyRows b current v).take a.scanLimit
  let memory := memoryPart a (memoryRows b current v)
  let history := historyPart P F a memory.usedChars current rows
  pure (assemble P b a messageId current rows.length memory history)

end PeerBridge.Context
