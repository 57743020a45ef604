import PeerBridge.Text
import PeerBridge.Lib.Rows

namespace PeerBridge.Trust
open Checked Rows

inductive Failure where
  | trust (text : String)
  | bridge (e : BridgeError)
  deriving DecidableEq, Repr

inductive Stage where
  | claim | execution | test | proof | review | decision | disagreement | recheck | completion
  deriving DecidableEq, Repr

-- EVIDENCE_STAGES
def Stage.needsSource : Stage → Bool
  | .claim | .execution => false
  | _ => true

-- the stages a disagreement or a completion refers to
def Stage.isEvidence : Stage → Bool
  | .test | .proof | .review | .decision => true
  | _ => false

structure Binding where
  path : String
  bytes : Nat
  sha256 : Sha256
  deriving DecidableEq, Repr

structure Payload where
  scope : String
  recordId : String
  taskId : String
  actor : String
  stage : Stage
  statement : String
  sourceBindings : List Binding
  relatedRecordIds : List String
  createdUtc : Utc
  deriving DecidableEq, Repr

structure TrustRow where
  payload : Payload
  trustSha256 : Sha256
  deriving DecidableEq, Repr

def TrustRow.key (r : TrustRow) : String × String := (r.payload.scope, r.payload.recordId)

-- the trust_records table, in rowid order
structure Store where
  rows : List TrustRow
  keys : (rows.map TrustRow.key).Nodup
  safe : ∀ r ∈ rows, isSafeId r.payload.recordId = true

def Store.empty : Store := ⟨[], List.nodup_nil, fun _ h => absurd h List.not_mem_nil⟩

structure Site where
  scope : String
  agentId : String
  containsSecret : String → Bool
  stableSha256 : Payload → Sha256

structure Reading where
  bytes : Nat
  sha256 : Sha256
  deriving DecidableEq, Repr

-- what the project directory answers: `_normalize_path` follows its links
structure Disk where
  normalize : String → Except BridgeError String
  protection : String → Except BridgeError Unit
  file : String → Option Reading
  shape : String → Except BridgeError Unit

namespace Disk
variable (d : Disk)

def isFile (value : String) : Except BridgeError Bool := do
  let normalized ← d.normalize value
  return (d.file normalized).isSome

def existing (value : String) : Except BridgeError (String × Reading) := do
  let normalized ← d.normalize value
  let r ← demand (d.file normalized)
    (.bridge ("artifact does not exist as a file: " ++ normalized))
  return (normalized, r)

def cleanFrom : List String → List String → List String → Except BridgeError (List String)
  | [], _, clean => .ok clean
  | value :: rest, seen, clean => do
    let normalized ← d.normalize value
    if normalized ∈ seen then cleanFrom rest seen clean
    else do
      d.protection normalized
      let (resolved, _) ← d.existing normalized
      d.shape normalized
      cleanFrom rest (seen ++ [normalized]) (clean ++ [resolved])

def cleanArtifacts (values : List String) : Except BridgeError (List String) :=
  d.cleanFrom values [] []

end Disk

def maxProofFiles : Nat := 100
def maxProofTotalBytes : Nat := 256 * 1024 * 1024

def hashFrom (d : Disk) : Nat → List String → Except BridgeError (List (String × Reading))
  | _, [] => .ok []
  | total, path :: rest => do
    let (_, r) ← d.existing path
    require (total + r.bytes ≤ maxProofTotalBytes)
      (.bridge "proof artifacts exceed the cumulative byte budget")
    let hashed ← hashFrom d (total + r.bytes) rest
    return (path, r) :: hashed

def hashProofFiles (d : Disk) (paths : List String) :
    Except BridgeError (List (String × Reading)) := do
  let ordered := paths.eraseDups
  require (ordered ≠ [] ∧ ordered.length ≤ maxProofFiles)
    (.bridge "proof file count exceeds the bounded proof budget")
  hashFrom d 0 ordered

-- the method's own error for a refusal of the bridge
def wrapped {α : Type} : Except BridgeError α → Except Failure α
  | .ok a => .ok a
  | .error (.bridge text) => .error (.trust text)
  | .error (.integrity text) => .error (.trust text)

def raw {α : Type} : Except BridgeError α → Except Failure α
  | .ok a => .ok a
  | .error e => .error (.bridge e)

def sortedPaths (paths : List String) : List String :=
  paths.eraseDups.insertionSort (fun a b => a ≤ b)

def bind (path : String) (r : Reading) : Binding := ⟨path, r.bytes, r.sha256⟩

-- the paths are checked on one look at the disk and hashed on a later one
def bindings (checked hashed : Disk) (artifactPaths : List String) :
    Except Failure (List Binding) := do
  let normalized ← wrapped (checked.cleanArtifacts artifactPaths)
  require (normalized.length ≤ 100) (.trust "trust record exceeds 100 source bindings")
  if normalized = [] then return []
  else do
    let files ← wrapped (hashProofFiles hashed (sortedPaths normalized))
    return files.map (fun x => bind x.1 x.2)

def cleanStatement (site : Site) (value : String) : Except Failure String := do
  let text := strip value
  require (text ≠ "" ∧ text.length ≤ 8000) (.trust "trust statement is invalid or too large")
  require (site.containsSecret text = false)
    (.trust "trust statement contains credential-like data")
  return text

def Store.row (site : Site) (s : Store) (recordId : String) : Except Failure TrustRow := do
  let r ← demand (lookup TrustRow.key (site.scope, recordId) s.rows)
    (.trust "trust record does not exist")
  require (site.stableSha256 r.payload = r.trustSha256)
    (.trust "trust record SHA-256 does not match")
  return r

-- the system at one moment
structure World where
  store : Store
  disk : Disk

structure RecordArgs where
  taskId : String
  stage : Stage
  statement : String
  artifactPaths : List String
  relatedRecordIds : List String
  recordId : Option String
  uuid : String

-- `record_id or uuid4().hex`
def RecordArgs.chosenId (a : RecordArgs) : String :=
  match a.recordId with
  | none => a.uuid
  | some given => if given = "" then a.uuid else given

def cleanRelated : List String → List String → Except Failure (List String)
  | [], related => .ok related
  | value :: rest, related => do
    let text := strip value
    require (isSafeId text = true) (.trust "related trust record id is invalid")
    cleanRelated rest (if text ∈ related then related else related ++ [text])

abbrev Named := {p : Payload // isSafeId p.recordId = true}

def prepare (site : Site) (checked hashed : Disk) (now : Utc) (a : RecordArgs) :
    Except Failure Named := do
  let taskId := strip a.taskId
  require (isSafeId taskId = true) (.trust "task id is invalid")
  require (a.stage = .decision → site.agentId = "human-operator")
    (.trust "only human-operator may record a Trust Timeline decision")
  let statement ← cleanStatement site a.statement
  let sourceBindings ← bindings checked hashed a.artifactPaths
  let relatedRecordIds ← cleanRelated a.relatedRecordIds []
  require (relatedRecordIds.length ≤ 100) (.trust "trust record has too many related records")
  require (¬(a.stage.needsSource = true ∧ sourceBindings = [] ∧ relatedRecordIds = []))
    (.trust "evidence trust stage requires a source or related record")
  if safe : isSafeId a.chosenId = true then
    let p : Payload := {
      scope := site.scope, recordId := a.chosenId, taskId, actor := site.agentId, stage := a.stage
      statement, sourceBindings, relatedRecordIds, createdUtc := now }
    return ⟨p, safe⟩
  else .error (.trust "trust record id is invalid")

def checkRelated (site : Site) (s : Store) (taskId : String) (recordId : String) :
    Except Failure Unit := do
  let r ← s.row site recordId
  require (r.payload.taskId = taskId) (.trust "related trust record belongs to another task")

theorem keys_append {s : Store} {r : TrustRow} (h : lookup TrustRow.key r.key s.rows = none) :
    ((s.rows ++ [r]).map TrustRow.key).Nodup := by
  rw [List.map_append, List.map_singleton, ← List.concat_eq_append]
  refine s.keys.concat ?_
  intro hm
  obtain ⟨x, hx, hk⟩ := List.mem_map.mp hm
  exact absurd (List.find?_eq_none.mp h x hx) (by simp [hk])

theorem safe_append {s : Store} {r : TrustRow} (h : isSafeId r.payload.recordId = true) :
    ∀ x ∈ s.rows ++ [r], isSafeId x.payload.recordId = true := by
  intro x hx
  rcases List.mem_append.mp hx with hx | hx
  · exact s.safe x hx
  · exact List.mem_singleton.mp hx ▸ h

def Store.insert (s : Store) (r : TrustRow) (safe : isSafeId r.payload.recordId = true) :
    Except Failure Store :=
  if h : lookup TrustRow.key r.key s.rows = none then
    .ok ⟨s.rows ++ [r], keys_append h, safe_append safe⟩
  else .error (.trust "trust record id already exists")

-- the closing transaction
def append (site : Site) (s : Store) (p : Named) : Except Failure (Store × TrustRow) := do
  p.1.relatedRecordIds.forM (checkRelated site s p.1.taskId)
  let r : TrustRow := ⟨p.1, site.stableSha256 p.1⟩
  let s ← s.insert r p.2
  return (s, r)

-- one world a step: the paths' check, the hashing, the transaction
def record (site : Site) (h : Nat → World) (n : Nat) (now : Utc) (a : RecordArgs) :
    Except Failure (Store × TrustRow) := do
  let p ← prepare site (h n).disk (h (n + 1)).disk now a
  append site (h (n + 2)).store p

inductive StaleReason where
  | sourceMissing | sourceChanged
  deriving DecidableEq, Repr

structure LiveBinding where
  binding : Binding
  stale : Bool
  staleReason : Option StaleReason
  live : Option Reading
  deriving DecidableEq, Repr

def freshness (hashes : List (String × Reading)) (b : Binding) : LiveBinding :=
  match lookup Prod.fst b.path hashes with
  | none => ⟨b, true, some .sourceMissing, none⟩
  | some (_, r) =>
    if r.bytes ≠ b.bytes ∨ r.sha256 ≠ b.sha256 then ⟨b, true, some .sourceChanged, some r⟩
    else ⟨b, false, none, some r⟩

structure Live where
  row : TrustRow
  bindings : List LiveBinding
  stale : Bool
  deriving DecidableEq, Repr

def Live.recordId (x : Live) : String := x.row.payload.recordId

-- ORDER BY created_utc, rowid LIMIT 501
def taskRows (site : Site) (s : Store) (taskId : String) : List TrustRow :=
  ((s.rows.filter (fun r => r.payload.scope = site.scope ∧ r.payload.taskId = taskId)).insertionSort
    (fun a b => a.payload.createdUtc ≤ b.payload.createdUtc)).take 501

def boundPaths (rows : List TrustRow) : List String :=
  (rows.flatMap (fun r => r.payload.sourceBindings.map Binding.path)).eraseDups

def liveRow (hashes : List (String × Reading)) (r : TrustRow) : Live :=
  let live := r.payload.sourceBindings.map (freshness hashes)
  ⟨r, live, live.any LiveBinding.stale⟩

def filterFiles (d : Disk) : List String → Except BridgeError (List String)
  | [] => .ok []
  | path :: rest => do
    let there ← d.isFile path
    let more ← filterFiles d rest
    return if there then path :: more else more

def hashExisting (d : Disk) (existing : List String) : Except Failure (List (String × Reading)) :=
  if existing = [] then .ok [] else wrapped (hashProofFiles d existing)

def timeline (site : Site) (h : Nat → World) (n : Nat) (taskId : String) :
    Except Failure (List Live) := do
  let taskId := strip taskId
  require (isSafeId taskId = true) (.trust "task id is invalid")
  let rows := taskRows site (h n).store taskId
  require (rows.length ≤ 500) (.trust "trust timeline exceeds the record limit")
  rows.forM (fun r => do
    let _ ← (h n).store.row site r.payload.recordId
    return ())
  let paths := boundPaths rows
  require (paths.length ≤ 100) (.trust "trust timeline exceeds the source binding limit")
  let existing ← raw (filterFiles (h (n + 1)).disk paths)
  let hashes ← hashExisting (h (n + 2)).disk existing
  return rows.map (liveRow hashes)

-- `live.get(record_id, {}).get("stale", True)`
def isStale (live : List Live) (recordId : String) : Bool :=
  match lookup Live.recordId recordId live with
  | none => true
  | some x => x.stale

structure RelationArgs where
  taskId : String
  statement : String
  evidenceRecordIds : List String
  uuid : String

def evidenceRow (site : Site) (s : Store) (recordId : String) : Except Failure (List String) := do
  let r ← s.row site recordId
  require (r.payload.stage.isEvidence = true) (.trust "disagreement reference is not evidence")
  require (r.payload.sourceBindings ≠ [])
    (.trust "disagreement evidence lacks an exact source binding")
  return r.payload.sourceBindings.map Binding.path

def recordDisagreement (site : Site) (h : Nat → World) (n : Nat) (now : Utc) (a : RelationArgs) :
    Except Failure (Store × TrustRow) := do
  let related := a.evidenceRecordIds.eraseDups
  require (2 ≤ related.length) (.trust "disagreement requires at least two evidence records")
  let live ← timeline site h n a.taskId
  require (related.all (fun id => !isStale live id) = true)
    (.trust "disagreement evidence is stale")
  let sourcePaths ← related.mapM (evidenceRow site (h (n + 3)).store)
  record site h (n + 4) now
    ⟨a.taskId, .disagreement, a.statement, sourcePaths.flatten, related, none, a.uuid⟩

def recheck (site : Site) (h : Nat → World) (n : Nat) (now : Utc) (recordId statement uuid : String) :
    Except Failure (Store × TrustRow) := do
  let r ← (h n).store.row site recordId
  require (r.payload.sourceBindings ≠ [])
    (.trust "trust record has no bounded source to recheck")
  record site h (n + 1) now
    ⟨r.payload.taskId, .recheck, statement, r.payload.sourceBindings.map Binding.path, [recordId],
      none, uuid⟩

-- the sets of `_source_key` tuples are compared, not the lists
def SameSet (xs ys : List Binding) : Prop := (∀ x ∈ xs, x ∈ ys) ∧ ∀ y ∈ ys, y ∈ xs

instance (xs ys : List Binding) : Decidable (SameSet xs ys) :=
  inferInstanceAs (Decidable (_ ∧ _))

def Binding.before (a b : Binding) : Prop :=
  a.path < b.path ∨ (a.path = b.path ∧ (a.bytes < b.bytes ∨
    (a.bytes = b.bytes ∧ a.sha256.bits.toNat ≤ b.sha256.bits.toNat)))

instance : DecidableRel Binding.before := fun _ _ =>
  inferInstanceAs (Decidable (_ ∨ _))

def readEach (site : Site) (h : Nat → World) : Nat → List String → Except Failure (List TrustRow)
  | _, [] => .ok []
  | n, id :: rest => do
    let r ← (h n).store.row site id
    let more ← readEach site h (n + 1) rest
    return r :: more

def evidenceSets (rows : List TrustRow) : List (List Binding) :=
  (rows.filter (fun r => r.payload.stage.isEvidence)).map (fun r => r.payload.sourceBindings)

def requiredStages : List Stage := [.test, .proof, .review, .decision]

-- the paths of the one binding set that the evidence shares
def evidencePaths (rows : List TrustRow) : Except Failure (List String) := do
  require (∀ stage ∈ requiredStages, stage ∈ rows.map (fun r => r.payload.stage))
    (.trust "completion requires test, proof, review, and human decision records")
  match evidenceSets rows with
  | [] => .error (.trust "completion evidence does not bind one exact source state")
  | first :: others =>
    require (first ≠ [] ∧ ∀ s ∈ others, SameSet s first)
      (.trust "completion evidence does not bind one exact source state")
    return (first.eraseDups.insertionSort Binding.before).map Binding.path

def recordCompletion (site : Site) (h : Nat → World) (n : Nat) (now : Utc) (a : RelationArgs) :
    Except Failure (Store × TrustRow) := do
  let related := a.evidenceRecordIds.eraseDups
  let rows ← readEach site h n related
  let sourcePaths ← evidencePaths rows
  let live ← timeline site h (n + related.length) a.taskId
  require (related.all (fun id => !isStale live id) = true)
    (.trust "completion evidence is stale")
  record site h (n + related.length + 3) now
    ⟨a.taskId, .completion, a.statement, sourcePaths, related, none, a.uuid⟩

end PeerBridge.Trust
