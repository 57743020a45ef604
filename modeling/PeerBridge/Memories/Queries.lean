import Mathlib.Data.List.Sort
import Mathlib.Data.String.Basic
import PeerBridge.Memories.Runs

namespace PeerBridge.Memories
open Checked Rows

def maxMemoryListing : Int := 500

-- ORDER BY created_utc DESC, memory_id
def newer (m n : MemoryRow) : Prop :=
  n.createdUtc < m.createdUtc ∨ (n.createdUtc = m.createdUtc ∧ m.memoryId ≤ n.memoryId)

-- ORDER BY created_utc DESC, memory_id DESC
def later (m n : MemoryRow) : Prop :=
  n.createdUtc < m.createdUtc ∨ (n.createdUtc = m.createdUtc ∧ n.memoryId ≤ m.memoryId)

instance : DecidableRel newer := fun _ _ => inferInstanceAs (Decidable (_ ∨ _))

instance : DecidableRel later := fun _ _ => inferInstanceAs (Decidable (_ ∨ _))

structure ListArgs where
  visibility : String := ""
  roomId : String := ""
  query : String := ""
  includeRevoked : Bool := false
  limit : Int := 100

structure ListRequest where
  visibility : Option String
  roomId : Option String
  query : String
  includeRevoked : Bool
  limit : Nat

def requireListedRoom (b : Bridge) (roomId : Option String) (v : Vault) :
    Except BridgeError Unit :=
  match roomId with
  | some id => requireRoomMember b id b.agentId v.store.rooms
  | none => pure ()

def requireListing (lowercase : String → String) (b : Bridge) (a : ListArgs) (v : Vault) :
    Except BridgeError ListRequest := do
  let text := lowercase (strip a.visibility)
  let visibility := if text = "" then none else some text
  require (∀ x ∈ visibility, x ∈ memoryVisibilities)
    (.bridge "visibility must be private, room or project")
  let roomId ← optionalIdentifier a.roomId "room_id"
  require ((visibility = some "private" ∨ visibility = some "room") → roomId.isSome = true)
    (.bridge "listing private or room memory requires room_id")
  requireListedRoom b roomId v
  let query := lowercase (strip a.query)
  require (query.length ≤ 500) (.bridge "query exceeds 500 characters")
  pure { visibility, roomId, query, includeRevoked := a.includeRevoked,
         limit := (max 1 (min a.limit maxMemoryListing)).toNat }

-- the WHERE clause
def ListRequest.selects (q : ListRequest) (scope : String) (m : MemoryRow) : Prop :=
  m.scope = scope ∧ (q.includeRevoked = true ∨ m.status = "active") ∧
    (∀ x ∈ q.visibility, m.visibility = x) ∧
    (m.visibility = "project" ∨ ∃ id ∈ q.roomId, m.roomId = some id)

instance (q : ListRequest) (scope : String) (m : MemoryRow) : Decidable (q.selects scope m) :=
  inferInstanceAs (Decidable (_ ∧ _ ∧ _ ∧ _))

def selected (q : ListRequest) (scope : String) (v : Vault) : List MemoryRow :=
  (v.memories.filter (fun m => q.selects scope m)).insertionSort newer

def superseding (scope : String) (v : Vault) : List MemoryRow :=
  (v.memories.filter (fun m => m.scope = scope ∧ m.supersedesMemoryId.isSome = true)).insertionSort
    later

def readable (b : Bridge) (v : Vault) (m : MemoryRow) : Bool :=
  isOk (requireMemoryReadAccess b v.store.rooms m)

-- one pass of the loop that fills the dictionary
def noteSuperseder (P : Platform) (b : Bridge) (v : Vault) (dict : List (String × String))
    (item : MemoryRow) : Except BridgeError (List (String × String)) := do
  if readable b v item = true then
    verifyMemoryRow P b.scope v item
    pure (upsert Prod.fst (item.supersedesMemoryId.getD "None", item.memoryId) dict)
  else pure dict

def supersededBy (P : Platform) (b : Bridge) (v : Vault) :
    Except BridgeError (List (String × String)) :=
  (superseding b.scope v).foldlM (noteSuperseder P b v) []

structure Listed where
  row : MemoryRow
  supersededByMemoryId : Option String

def ListRequest.mentions (q : ListRequest) (lowercase : String → String) (m : MemoryRow) : Prop :=
  q.query.toList <:+: (lowercase m.title).toList ∨ q.query.toList <:+: (lowercase m.body).toList

instance (q : ListRequest) (lowercase : String → String) (m : MemoryRow) :
    Decidable (q.mentions lowercase m) := inferInstanceAs (Decidable (_ ∨ _))

def gather (P : Platform) (lowercase : String → String) (b : Bridge) (v : Vault) (q : ListRequest)
    (dict : List (String × String)) : List MemoryRow → List Listed → Except BridgeError (List Listed)
  | [], found => pure found
  | row :: rows, found => do
    if readable b v row = true then
      verifyMemoryRow P b.scope v row
      if q.query ≠ "" ∧ ¬ q.mentions lowercase row then
        gather P lowercase b v q dict rows found
      else
        let found := found ++
          [{ row, supersededByMemoryId := (lookup Prod.fst row.memoryId dict).map Prod.snd }]
        if q.limit ≤ found.length then pure found else gather P lowercase b v q dict rows found
    else gather P lowercase b v q dict rows found

structure MemoryListing where
  memories : List Listed
  roomId : Option String
  visibility : Option String

def listMemories (P : Platform) (lowercase : String → String) (b : Bridge) (a : ListArgs)
    (v : Vault) : Except BridgeError MemoryListing := do
  let q ← requireListing lowercase b a v
  let rows := (selected q b.scope v).take (q.limit * 4)
  let dict ← supersededBy P b v
  let memories ← gather P lowercase b v q dict rows []
  pure { memories, roomId := q.roomId, visibility := q.visibility }

def readMemory (P : Platform) (b : Bridge) (memoryId : String) (v : Vault) :
    Except BridgeError Listed := do
  let memoryId ← requireIdentifier memoryId "memory_id"
  let row ← memoryRow P b.scope memoryId v
  requireMemoryReadAccess b v.store.rooms row
  let superseding := ((v.memories.filter
    (fun m => m.scope = b.scope ∧ m.supersedesMemoryId = some memoryId)).insertionSort later).head?
  pure { row, supersededByMemoryId := superseding.map MemoryRow.memoryId }

end PeerBridge.Memories
