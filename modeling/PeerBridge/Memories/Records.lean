import PeerBridge.Canonical
import PeerBridge.Mailbox

namespace PeerBridge.Memories
open Checked Rows

def memoryVisibilities : List String := ["private", "room", "project"]
def memoryRecordTypes : List String :=
  ["FACT", "DECISION", "CONSTRAINT", "PREFERENCE", "DEPRECATED"]
def maxMemoryArtifacts : Nat := 20
def maxMemoryArtifactBytes : Nat := 16 * 1024 * 1024
def maxMemoryArtifactTotalBytes : Nat := 64 * 1024 * 1024

-- the two JSON columns hold what json.loads reads in them, none where that is an error
structure MemoryRow where
  scope : String
  memoryId : String
  visibility : String
  roomId : Option String
  ownerAgentId : String
  recordType : String
  authorityId : Option String
  title : String
  body : String
  sourceMessageId : Option String
  sourceMessageSha256 : Option String
  artifactBindings : Option Json
  parentMemoryId : Option String
  supersedesMemoryId : Option String
  applicability : Option Json
  status : String
  createdUtc : String
  revokedUtc : Option String
  revocationReason : Option String
  revocationSha256 : Option String
  memorySha256 : String

def MemoryRow.key (m : MemoryRow) : String × String := (m.scope, m.memoryId)

structure Vault where
  store : Store
  memories : List MemoryRow

namespace Vault

def memory? (v : Vault) (scope memoryId : String) : Option MemoryRow :=
  lookup MemoryRow.key (scope, memoryId) v.memories

def put (v : Vault) (m : MemoryRow) : Vault :=
  { v with memories := upsert MemoryRow.key m v.memories }

def withStore (v : Vault) (s : Store) : Vault := { v with store := s }

def event (P : Platform) (c : Ctx) (eventType : String) (payload : List (String × Json))
    (v : Vault) : Except BridgeError Vault := do
  let (s, _) ← v.store.event P c eventType payload none
  pure (v.withStore s)

end Vault

-- what a record binds besides its own columns
structure Binding where
  sourceMessageSha256 : Option String
  sourceRoomId : Option String
  parentMemorySha256 : Option String
  supersedesMemorySha256 : Option String

def legacyFields (m : MemoryRow) (artifacts : Json) (b : Binding) : List (String × Json) :=
  [("scope", .str m.scope), ("memory_id", .str m.memoryId), ("visibility", .str m.visibility),
    ("room_id", .opt m.roomId), ("owner_agent_id", .str m.ownerAgentId), ("title", .str m.title),
    ("body", .str m.body), ("source_message_id", .opt m.sourceMessageId),
    ("source_message_sha256", .opt b.sourceMessageSha256), ("source_room_id", .opt b.sourceRoomId),
    ("artifact_bindings", artifacts), ("parent_memory_id", .opt m.parentMemoryId),
    ("parent_memory_sha256", .opt b.parentMemorySha256), ("status", .str "active"),
    ("created_utc", .str m.createdUtc)]

def memoryFields (m : MemoryRow) (artifacts applicability : Json) (b : Binding) :
    List (String × Json) :=
  legacyFields m artifacts b ++
  [("record_type", .str m.recordType), ("authority_id", .opt m.authorityId),
    ("supersedes_memory_id", .opt m.supersedesMemoryId),
    ("supersedes_memory_sha256", .opt b.supersedesMemorySha256), ("applicability", applicability)]

def shaMismatch : BridgeError := .bridge "memory SHA-256 mismatch"

def sourceOf (scope : String) (v : Vault) (m : MemoryRow) :
    Except BridgeError (Option MessageRow) :=
  match m.sourceMessageId with
  | some id => do
    let source ← demand (v.store.mail.message? scope id)
      (.bridge "memory source message is unavailable")
    require (m.sourceMessageSha256 = some source.contentSha256.hex)
      (.bridge "memory source message SHA-256 mismatch")
    pure (some source)
  | none => do
    require (m.sourceMessageSha256 = none) (.bridge "memory source message SHA-256 mismatch")
    pure none

def linkedMemory (scope : String) (v : Vault) (id : Option String) (absent : String) :
    Except BridgeError (Option MemoryRow) :=
  match id with
  | some id => some <$> demand (v.memory? scope id) (.bridge absent)
  | none => pure none

def jsonList (column : Option Json) : Except BridgeError Json :=
  match column with
  | some (.arr items) => pure (.arr items)
  | _ => throw (.bridge "memory binding JSON is invalid")

def isEmptyList : Json → Bool
  | .arr [] => true
  | _ => false

def verifyMemoryRow (P : Platform) (scope : String) (v : Vault) (m : MemoryRow) :
    Except BridgeError Unit := do
  require (isSha256 m.memorySha256 = true) shaMismatch
  let source ← sourceOf scope v m
  let parent ← linkedMemory scope v m.parentMemoryId "memory parent is unavailable"
  let superseded ← linkedMemory scope v m.supersedesMemoryId "superseded memory is unavailable"
  let artifacts ← jsonList m.artifactBindings
  let applicability ← jsonList m.applicability
  let b : Binding :=
    { sourceMessageSha256 := source.map (fun s => s.contentSha256.hex),
      sourceRoomId := source.map MessageRow.roomId,
      parentMemorySha256 := parent.map MemoryRow.memorySha256,
      supersedesMemorySha256 := superseded.map MemoryRow.memorySha256 }
  require (m.memorySha256 = (P.stableSha256 (.obj (memoryFields m artifacts applicability b))).hex ∨
      (m.recordType = "FACT" ∧ m.authorityId = none ∧ m.supersedesMemoryId = none ∧
        isEmptyList applicability = true) ∧
      m.memorySha256 = (P.stableSha256 (.obj (legacyFields m artifacts b))).hex) shaMismatch

def memoryRow (P : Platform) (scope memoryId : String) (v : Vault) :
    Except BridgeError MemoryRow := do
  let row ← demand (v.memory? scope memoryId) (.bridge "memory not found")
  verifyMemoryRow P scope v row
  pure row

def requireMemoryReadAccess (b : Bridge) (r : Rooms) (m : MemoryRow) : Except BridgeError Unit :=
  if m.visibility = "project" then pure ()
  else if m.visibility = "private" then do
    require (m.ownerAgentId = b.agentId) (.bridge "private memory belongs to another agent")
    requireRoomMember b (m.roomId.getD "") b.agentId r
  else requireRoomMember b (m.roomId.getD "") b.agentId r

def sourceMessageBinding (b : Bridge) (messageId : String) (s : Store) :
    Except BridgeError MessageRow := do
  let row ← demand (s.mail.message? b.scope messageId) (.bridge "source message not found")
  requireRoomMember b row.roomId b.agentId s.rooms
  require (b.agentId = humanOperatorId ∨ b.agentId = row.sender ∨ b.agentId = row.recipient ∨
      row.recipient = "*")
    (.bridge "source message is not visible to this agent")
  pure row

-- a file as it was cleaned, sized and hashed
structure Artifact where
  path : String
  bytes : Nat
  sha256 : Sha256

def Artifact.json (a : Artifact) : Json :=
  .obj [("bytes", .int a.bytes), ("path", .str a.path), ("sha256", .str a.sha256.hex)]

def sizeArtifacts : Nat → List Artifact → Except BridgeError Unit
  | _, [] => pure ()
  | total, a :: rest => do
    require (a.bytes ≤ maxMemoryArtifactBytes)
      (.bridge "memory artifact exceeds the per-file limit")
    require (total + a.bytes ≤ maxMemoryArtifactTotalBytes)
      (.bridge "memory artifacts exceed the total byte limit")
    sizeArtifacts (total + a.bytes) rest

def requireArtifacts (found : List Artifact) : Except BridgeError Json := do
  require (found.length ≤ maxMemoryArtifacts) (.bridge "memory artifact count exceeds the limit")
  sizeArtifacts 0 found
  pure (.arr (found.map Artifact.json))

def requireApplicability (P : Platform) (items : List String) :
    Except BridgeError (List String) := do
  let values ← items.mapM (fun item => requireText P item "applicability item" 200)
  let kept := values.foldl (fun kept value => if value ∈ kept then kept else kept ++ [value]) []
  require (kept.length ≤ 50) (.bridge "applicability exceeds 50 entries")
  pure kept

def upper (t : String) : String := String.ofList (t.toList.map upperAscii)

structure RecordArgs where
  visibility : String := ""
  roomId : String := ""
  recordType : String := ""
  authorityId : String := ""
  applicability : List String := []
  title : String
  body : String
  sourceMessageId : String := ""
  parentMemoryId : String := ""
  supersedesMemoryId : String := ""
  artifacts : List Artifact := []

structure RecordRequest where
  visibility : String
  roomId : Option String
  recordType : String
  authorityId : Option String
  applicability : List String
  title : String
  body : String
  sourceMessageId : Option String
  parentMemoryId : Option String
  supersedesMemoryId : Option String
  artifacts : Json

def RecordRequest.roomed (q : RecordRequest) : Prop := q.visibility ≠ "project"

instance (q : RecordRequest) : Decidable q.roomed := inferInstanceAs (Decidable (_ ≠ _))

def requireRecord (P : Platform) (b : Bridge) (a : RecordArgs) :
    Except BridgeError RecordRequest := do
  let visibility := lower (strip (if a.visibility = "" then "private" else a.visibility))
  require (visibility ∈ memoryVisibilities)
    (.bridge "visibility must be private, room or project")
  let roomId ← optionalIdentifier a.roomId "room_id"
  require (visibility ≠ "project" → roomId.isSome = true)
    (.bridge "private and room memory require room_id")
  require (visibility = "project" → roomId = none)
    (.bridge "project memory must not bind one room_id")
  require (visibility = "project" → b.agentId = humanOperatorId)
    (.bridge "only human-operator may publish project memory")
  let recordType := upper (strip (if a.recordType = "" then "FACT" else a.recordType))
  require (recordType ∈ memoryRecordTypes)
    (.bridge "record_type must be FACT, DECISION, CONSTRAINT, PREFERENCE or DEPRECATED")
  let authorityId ← optionalIdentifier (if a.authorityId = "" then b.agentId else a.authorityId)
    "authority_id"
  require (visibility = "project" → authorityId = some humanOperatorId)
    (.bridge "project memory requires human-operator authority")
  let applicability ← requireApplicability P a.applicability
  let title ← requireText P a.title "title" 500
  let body ← requireText P a.body "body" maxTextChars
  let sourceMessageId ← optionalIdentifier a.sourceMessageId "source_message_id"
  let parentMemoryId ← optionalIdentifier a.parentMemoryId "parent_memory_id"
  let supersedesMemoryId ← optionalIdentifier a.supersedesMemoryId "supersedes_memory_id"
  require (recordType = "DEPRECATED" → supersedesMemoryId.isSome = true)
    (.bridge "DEPRECATED memory must supersede an existing memory")
  let artifacts ← requireArtifacts a.artifacts
  pure { visibility, roomId, recordType, authorityId, applicability, title, body, sourceMessageId,
         parentMemoryId, supersedesMemoryId, artifacts }

def bindSource (c : Ctx) (q : RecordRequest) (v : Vault) :
    Except BridgeError (Option MessageRow) :=
  match q.sourceMessageId with
  | some id => do
    let source ← sourceMessageBinding c.self id v.store
    require (q.roomed → some source.roomId = q.roomId)
      (.bridge "private or room memory source_message_id must be from the same room")
    pure (some source)
  | none => pure none

def bindParent (P : Platform) (c : Ctx) (q : RecordRequest) (v : Vault) :
    Except BridgeError (Option MemoryRow) :=
  match q.parentMemoryId with
  | some id => do
    let parent ← memoryRow P c.self.scope id v
    requireMemoryReadAccess c.self v.store.rooms parent
    require (parent.status = "active") (.bridge "parent memory is revoked")
    require (q.roomed → parent.visibility = q.visibility ∧ parent.roomId = q.roomId)
      (.bridge "private or room memory parent must have the same visibility and room")
    pure (some parent)
  | none => pure none

def requireSuperseder (c : Ctx) (q : RecordRequest) (r : Rooms) (m : MemoryRow) :
    Except BridgeError Unit :=
  if m.ownerAgentId ≠ c.self.agentId ∧ c.self.agentId ≠ humanOperatorId then do
    require (q.visibility = "room" ∧ q.roomId.isSome = true)
      (.bridge "only the memory owner or human operator may supersede it")
    let _ ← requireRoomManager c.self (q.roomId.getD "") r
    pure ()
  else pure ()

def bindSuperseded (P : Platform) (c : Ctx) (q : RecordRequest) (v : Vault) :
    Except BridgeError (Option MemoryRow) :=
  match q.supersedesMemoryId with
  | some id => do
    let superseded ← memoryRow P c.self.scope id v
    requireMemoryReadAccess c.self v.store.rooms superseded
    require (superseded.status = "active") (.bridge "superseded memory is revoked")
    require (superseded.visibility = q.visibility ∧ superseded.roomId = q.roomId)
      (.bridge "superseded memory must have the same visibility and room")
    requireSuperseder c q v.store.rooms superseded
    pure (some superseded)
  | none => pure none

def requireSeat (c : Ctx) (q : RecordRequest) (r : Rooms) : Except BridgeError Unit :=
  if q.roomed then requireRoomMember c.self (q.roomId.getD "") c.self.agentId r else pure ()

def sealMemory (P : Platform) (m : MemoryRow) (artifacts applicability : Json) (b : Binding) :
    MemoryRow :=
  { m with memorySha256 := (P.stableSha256 (.obj (memoryFields m artifacts applicability b))).hex }

def recordedRow (P : Platform) (F : TextForms) (c : Ctx) (q : RecordRequest)
    (source : Option MessageRow) (parent superseded : Option MemoryRow) : MemoryRow :=
  let applicability := Json.arr (q.applicability.map Json.str)
  sealMemory P
    { scope := c.self.scope, memoryId := c.uuid.text, visibility := q.visibility,
      roomId := q.roomId, ownerAgentId := c.self.agentId, recordType := q.recordType,
      authorityId := q.authorityId, title := q.title, body := q.body,
      sourceMessageId := q.sourceMessageId,
      sourceMessageSha256 := source.map (fun s => s.contentSha256.hex),
      artifactBindings := some q.artifacts, parentMemoryId := q.parentMemoryId,
      supersedesMemoryId := q.supersedesMemoryId, applicability := some applicability,
      status := "active", createdUtc := F.utc (utcNow c.clock.entry), revokedUtc := none,
      revocationReason := none, revocationSha256 := none, memorySha256 := "" }
    q.artifacts applicability
    { sourceMessageSha256 := source.map (fun s => s.contentSha256.hex),
      sourceRoomId := source.map MessageRow.roomId,
      parentMemorySha256 := parent.map MemoryRow.memorySha256,
      supersedesMemorySha256 := superseded.map MemoryRow.memorySha256 }

def recordMemory (P : Platform) (F : TextForms) (c : Ctx) (a : RecordArgs) (v : Vault) :
    Except BridgeError (Vault × MemoryRow) := do
  let q ← requireRecord P c.self a
  requireSeat c q v.store.rooms
  let source ← bindSource c q v
  let parent ← bindParent P c q v
  let superseded ← bindSuperseded P c q v
  require (q.visibility = "project" → source.isSome = true ∨ parent.isSome = true ∨
      superseded.isSome = true ∨ isEmptyList q.artifacts = false)
    (.bridge "project memory requires a source message, parent memory or artifact")
  let row := recordedRow P F c q source parent superseded
  require ((v.memory? c.self.scope row.memoryId).isNone = true) (.integrity "memories")
  let v ← (v.put row).event P c "memory.recorded"
    [("memory_id", .str row.memoryId), ("visibility", .str q.visibility), ("room_id", .opt q.roomId),
      ("record_type", .str q.recordType), ("authority_id", .opt q.authorityId),
      ("supersedes_memory_id", .opt q.supersedesMemoryId), ("memory_sha256", .str row.memorySha256)]
  pure (v, row)

structure RevokeArgs where
  memoryId : String
  reason : String

def requireRevoker (b : Bridge) (r : Rooms) (m : MemoryRow) : Except BridgeError Unit :=
  if m.visibility = "project" then
    require (b.agentId = humanOperatorId)
      (.bridge "only human-operator may revoke project memory")
  else if m.visibility = "private" then
    require (m.ownerAgentId = b.agentId) (.bridge "private memory belongs to another agent")
  else if m.ownerAgentId ≠ b.agentId then do
    let _ ← requireRoomManager b (m.roomId.getD "None") r
    pure ()
  else pure ()

def revocationPayload (scope agentId revoked reason : String) (m : MemoryRow) : Json :=
  .obj [("scope", .str scope), ("memory_id", .str m.memoryId),
    ("memory_sha256", .str m.memorySha256), ("revoked_by", .str agentId),
    ("revoked_utc", .str revoked), ("reason", .str reason)]

def revokeMemory (P : Platform) (F : TextForms) (c : Ctx) (a : RevokeArgs) (v : Vault) :
    Except BridgeError (Vault × MemoryRow) := do
  let memoryId ← requireIdentifier a.memoryId "memory_id"
  let reason ← requireText P a.reason "reason" 2000
  let revoked := F.utc (utcNow c.clock.entry)
  let row ← memoryRow P c.self.scope memoryId v
  require (row.status = "active") (.bridge "memory is already revoked")
  requireRevoker c.self v.store.rooms row
  let sha := (P.stableSha256 (revocationPayload c.self.scope c.self.agentId revoked reason row)).hex
  let ended := { row with status := "revoked", revokedUtc := some revoked,
                          revocationReason := some reason, revocationSha256 := some sha }
  let v ← (v.put ended).event P c "memory.revoked"
    [("memory_id", .str memoryId), ("memory_sha256", .str row.memorySha256),
      ("revocation_sha256", .str sha)]
  pure (v, ended)

structure Archive where
  world : World
  memories : List MemoryRow

def Archive.vault (a : Archive) : Vault := { store := a.world.store, memories := a.memories }

def Archive.commit (a : Archive) (v : Vault) : Archive :=
  { world := { a.world with store := v.store }, memories := v.memories }

inductive ArchiveCall where
  | mail (call : Call)
  | record (a : RecordArgs)
  | revoke (a : RevokeArgs)

inductive ArchiveReply where
  | mail (r : Except BridgeError Reply)
  | memory (r : Except BridgeError MemoryRow)

def Archive.finish (a : Archive) (x : Except BridgeError (Vault × MemoryRow)) :
    Archive × ArchiveReply :=
  match x with
  | .ok (v, m) => (a.commit v, .memory (.ok m))
  | .error e => (a, .memory (.error e))

def attemptArchive (P : Platform) (F : TextForms) (a : Archive) (i : ArchiveCall × Ctx) :
    Archive × ArchiveReply :=
  match i.1 with
  | .mail call =>
    let (w, r) := attempt P a.world (call, i.2)
    ({ a with world := w }, .mail r)
  | .record x => a.finish <| recordMemory P F i.2 x a.vault
  | .revoke x => a.finish <| revokeMemory P F i.2 x a.vault

def Archive.admits (P : Platform) (a : Archive) (i : ArchiveCall × Ctx) : Prop :=
  match i.1 with
  | .mail call => (mailbox P).admits a.world (call, i.2)
  | .record _ | .revoke _ => True

instance (P : Platform) (a : Archive) (i : ArchiveCall × Ctx) : Decidable (a.admits P i) := by
  unfold Archive.admits
  split <;> infer_instance

def archive (P : Platform) (F : TextForms) : Machine Archive (ArchiveCall × Ctx) ArchiveReply where
  start a := (mailbox P).start a.world ∧ a.memories = []
  admits a i := a.admits P i
  exec := attemptArchive P F

instance (P : Platform) (F : TextForms) (a : Archive) (i : ArchiveCall × Ctx) :
    Decidable ((archive P F).admits a i) := inferInstanceAs (Decidable (a.admits P i))

end PeerBridge.Memories
