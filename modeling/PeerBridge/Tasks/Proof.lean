import PeerBridge.Tasks.Review

namespace PeerBridge
open Checked Rows

structure FileState where
  sha256 : Sha256
  size : Nat
  mtimeNs : Nat
  deriving DecidableEq

-- the regular files of the project, by normalized path
abbrev Files := String → Option FileState

def FileState.identity (f : FileState) : Nat × Nat := (f.size, f.mtimeNs)

def maxProofFiles : Nat := 100
def maxProofTotalBytes : Nat := 256 * 1024 * 1024

def hashFrom (files : Files) : Nat → List String → Except BridgeError (List (String × FileState))
  | _, [] => pure []
  | total, path :: paths => do
    let f ← demand (files path) (.bridge ("artifact does not exist as a file: " ++ path))
    require (total + f.size ≤ maxProofTotalBytes)
      (.bridge "proof artifacts exceed the cumulative byte budget")
    let hashed ← hashFrom files (total + f.size) paths
    pure ((path, f) :: hashed)

def hashProofFiles (files : Files) (paths : List String) :
    Except BridgeError (List (String × FileState)) := do
  let ordered := paths.eraseDups
  require (ordered ≠ [] ∧ ordered.length ≤ maxProofFiles)
    (.bridge "proof file count exceeds the bounded proof budget")
  hashFrom files 0 ordered

structure RecordProofArgs where
  taskId : String
  leaseToken : String
  changeSummary : String
  tests : String
  changedPaths : List String := []
  evidencePaths : List String := []
  beforeHashes : List (String × Option String) := []
  reviewIds : List String := []

def cleanBeforeHashes (site : Site) (changedPaths : List String) :
    List (String × Option String) → List (String × Option Sha256) →
      Except BridgeError (List (String × Option Sha256))
  | [], clean => pure clean
  | (rawPath, rawHash) :: rest, clean => do
    let path ← site.normalizePath rawPath
    require (path ∈ changedPaths)
      (.bridge "before_hashes keys must identify entries in changed_paths")
    require (path ∉ clean.map Prod.fst)
      (.bridge "before_hashes contains duplicate normalized paths")
    let sha ← match rawHash with
      | none => pure none
      | some raw => some <$> requireSha256 raw ("before_hashes[" ++ path ++ "]")
    cleanBeforeHashes site changedPaths rest (clean ++ [(path, sha)])

structure ProofDraft where
  taskId : String
  changeSummary : String
  tests : String
  changedPaths : List String
  evidencePaths : List String
  beforeHashes : List (String × Option Sha256)
  reviewIds : List String
  hashed : List (String × FileState)

def cleanProof (P : Platform) (site : Site) (a : RecordProofArgs) : Except BridgeError ProofDraft := do
  let taskId ← requireIdentifier a.taskId "task_id"
  let changeSummary ← requireText P a.changeSummary "change_summary" 20000
  let tests ← requireText P a.tests "tests" 20000
  let changedPaths ← a.changedPaths.mapM site.normalizePath
  require (changedPaths.all (fun p => !site.isProtected p) = true)
    (.bridge "changed_paths contains a protected or sensitive target")
  let evidencePaths ← site.cleanArtifacts a.evidencePaths
  require (¬(changedPaths = [] ∧ evidencePaths = []))
    (.bridge "proof needs at least one changed path or evidence artifact")
  let beforeHashes ← cleanBeforeHashes site changedPaths a.beforeHashes []
  require (changedPaths.all (fun p => p ∈ beforeHashes.map Prod.fst) = true)
    (.bridge "before_hashes must contain exactly one entry for every changed path")
  let reviewIds ← a.reviewIds.mapM (fun r => requireIdentifier r "review_id")
  pure { taskId, changeSummary, tests, changedPaths, evidencePaths, beforeHashes, reviewIds,
         hashed := [] }

def TaskStore.requireWriteScope (P : Platform) (s : TaskStore) (key : String × String)
    (path : String) : Except BridgeError Unit :=
  require ((s.pathsOf key).any (fun p => p.access = .write ∧ pathWithin P path p.pathPrefix))
    (.bridge ("changed path is outside the task write scope: " ++ path))

-- the transactions before the one that stores the record
def prepareProof (P : Platform) (c : TaskCtx) (files : Files) (a : RecordProofArgs)
    (s : TaskStore) : Except BridgeError ProofDraft := do
  let draft ← cleanProof P c.site a
  let _ ← requireTaskLease P c.toCtx draft.taskId a.leaseToken c.clock.entry s
  draft.changedPaths.forM (s.requireWriteScope P (c.self.scope, draft.taskId))
  let hashed ← hashProofFiles files (draft.changedPaths ++ draft.evidencePaths)
  pure { draft with hashed }

def ProofDraft.hashes (d : ProofDraft) (paths : List String) : List (String × Sha256) :=
  paths.eraseDups.filterMap (fun p => (d.hashed.lookup p).map (fun f => (p, f.sha256)))

def unchanged (files : Files) (path : String) (identity : Nat × Nat) : Bool :=
  (files path).any (fun f => f.identity = identity)

def commitProof (P : Platform) (c : TaskCtx) (files : Files) (leaseToken : String) (d : ProofDraft)
    (s : TaskStore) : Except BridgeError (TaskStore × IntegrationRow) := do
  let t ← requireTaskLease P c.toCtx d.taskId leaseToken c.clock.locked s
  d.changedPaths.forM (s.requireWriteScope P (c.self.scope, d.taskId))
  d.hashed.forM (fun (path, f) => do
    let _ ← demand (files path) (.bridge ("artifact does not exist as a file: " ++ path))
    require (unchanged files path f.identity = true)
      (.bridge ("artifact changed before proof recording: " ++ path)))
  let row : IntegrationRow :=
    { recordId := c.uuid.text, scope := c.self.scope, taskId := d.taskId, actor := c.self.agentId,
      changeSummary := d.changeSummary, changedPaths := d.changedPaths,
      beforeHashes := d.beforeHashes, afterHashes := d.hashes d.changedPaths, tests := d.tests,
      evidencePaths := d.evidencePaths, evidenceHashes := d.hashes d.evidencePaths,
      approvalMode := t.approvalMode, reviewIds := d.reviewIds,
      recordedUtc := utcNow c.clock.locked, recordSha256 := zeroSha256 }
  let row := { row with recordSha256 := P.stableSha256 (.obj
    [("record_id", .str row.recordId), ("scope", .str row.scope), ("task_id", .str row.taskId),
      ("actor", .str row.actor), ("change_summary", .str row.changeSummary),
      ("changed_paths", .strs row.changedPaths),
      ("before_hashes", .obj (row.beforeHashes.map (fun x => (x.1, .optSha x.2)))),
      ("after_hashes", .obj (row.afterHashes.map (fun x => (x.1, .sha x.2)))),
      ("tests", .str row.tests), ("evidence_paths", .strs row.evidencePaths),
      ("evidence_hashes", .obj (row.evidenceHashes.map (fun x => (x.1, .sha x.2)))),
      ("approval_mode", .str row.approvalMode.text), ("review_ids", .strs row.reviewIds),
      ("recorded_utc", .utc row.recordedUtc)]) }
  require (∀ r ∈ s.records, r.recordId ≠ row.recordId) (.integrity "integration_records.record_id")
  let (s, _) ← { s with records := s.records ++ [row] }.event P c.toCtx "proof.recorded"
    [("record_id", .str row.recordId), ("record_sha256", .sha row.recordSha256)] d.taskId
  pure (s, row)

def recordProof (P : Platform) (c : TaskCtx) (files : Files) (a : RecordProofArgs) (s : TaskStore) :
    Except BridgeError (TaskStore × IntegrationRow) := do
  let draft ← prepareProof P c files a s
  commitProof P c files a.leaseToken draft s

structure ProofCheck where
  recordId : String
  recordSha256 : Sha256
  tests : String
  drift : List (String × Sha256 × Option Sha256)

def ProofCheck.json (x : ProofCheck) : Json :=
  .obj [("record_id", .str x.recordId), ("record_sha256", .sha x.recordSha256),
    ("tests", .str x.tests), ("drift", .arr (x.drift.map (fun d =>
      .obj [("path", .str d.1), ("expected", .sha d.2.1), ("live", .optSha d.2.2)])))]

-- the evidence hash of a path stands before its after hash
def IntegrationRow.expected (r : IntegrationRow) : List (String × Sha256) :=
  r.afterHashes.filter (fun x => x.1 ∉ r.evidenceHashes.map Prod.fst) ++ r.evidenceHashes

def TaskStore.recordsOf (s : TaskStore) (scope taskId : String) : List IntegrationRow :=
  s.records.filter (fun r => r.scope = scope ∧ r.taskId = taskId)

def proofCheck (hashed : List (String × FileState)) (r : IntegrationRow) : ProofCheck :=
  { recordId := r.recordId, recordSha256 := r.recordSha256, tests := r.tests,
    drift := r.expected.filterMap (fun (path, expected) =>
      let live := (hashed.lookup path).map FileState.sha256
      if live = some expected then none else some (path, expected, live)) }

structure ProofState where
  ready : Bool
  checks : List ProofCheck
  identities : List (String × Nat × Nat)

def boundPaths (rows : List IntegrationRow) : List String :=
  (rows.flatMap (fun r => r.expected.map Prod.fst)).eraseDups

def proofsAreLive (files : Files) (scope taskId : String) (s : TaskStore) :
    Except BridgeError ProofState := do
  let rows := s.recordsOf scope taskId
  let existing := (boundPaths rows).filter (fun p => (files p).isSome)
  let hashed ← if existing = [] then pure [] else hashProofFiles files existing
  let checks := rows.map (proofCheck hashed)
  pure { ready := !rows.isEmpty && checks.all (fun x => x.drift.isEmpty && x.tests ≠ ""),
         checks, identities := hashed.map (fun x => (x.1, x.2.identity)) }

structure CompleteTaskArgs where
  taskId : String
  leaseToken : String

structure Inspection where
  proof : ProofState
  review : ReviewSummary

-- the reads before the closing transaction
def inspectTask (P : Platform) (c : TaskCtx) (files : Files) (taskId leaseToken : String)
    (s : TaskStore) : Except BridgeError Inspection := do
  let _ ← requireTaskLease P c.toCtx taskId leaseToken c.clock.entry s
  let proof ← proofsAreLive files c.self.scope taskId s
  require (proof.ready = true) (.bridge ("task proof is missing or has live hash drift: " ++
    c.site.dumps (.arr (proof.checks.map ProofCheck.json))))
  let review ← reviewSummary c taskId s
  require (review.readyForCompletion = true)
    (.bridge ("review gate is not ready: " ++ review.policyReason))
  pure { proof, review }

structure TaskClosure where
  completedUtc : Utc
  inspection : Inspection
  completionChainSha256 : Sha256

def closeTask (P : Platform) (c : TaskCtx) (files : Files) (taskId leaseToken : String)
    (x : Inspection) (s : TaskStore) : Except BridgeError (TaskStore × TaskClosure) := do
  let t ← requireTaskLease P c.toCtx taskId leaseToken c.clock.locked s
  let live := (s.recordsOf c.self.scope taskId).map (fun r => (r.recordId, r.recordSha256))
  require (live = x.proof.checks.map (fun k => (k.recordId, k.recordSha256)))
    (.bridge "proof records changed while completing the task")
  require (x.proof.identities.all (fun (path, identity) => unchanged files path identity) = true)
    (.bridge "proof changed while completing the task")
  let completedUtc := utcNow c.clock.locked
  let (s, chain) ← (s.putTask (t.unleased .complete completedUtc)).event P c.toCtx "task.completed"
    [("proof_records", .arr (x.proof.checks.map (fun k => .sha k.recordSha256))),
      ("review_policy_reason", .str x.review.policyReason),
      ("approved_reviewers", .strs x.review.approvedReviewers)] taskId
  pure (s, { completedUtc, inspection := x, completionChainSha256 := chain })

def completeTask (P : Platform) (c : TaskCtx) (files : Files) (a : CompleteTaskArgs)
    (s : TaskStore) : Except BridgeError (TaskStore × TaskClosure) := do
  let taskId ← requireIdentifier a.taskId "task_id"
  let x ← inspectTask P c files taskId a.leaseToken s
  closeTask P c files taskId a.leaseToken x s

end PeerBridge
