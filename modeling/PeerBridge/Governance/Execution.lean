import PeerBridge.Rooms

namespace PeerBridge.ExecutionGovernance
open Checked Rows

def controlRoomWorkflowId : String := "control-room-workflow"
def worktreeAction : String := "git.worktree.create"
def maxPermissionSeconds : ℚ := 86400

-- the exceptions a call can raise
inductive Failure where
  | governance (text : String)
  | bridge (e : BridgeError)
  | sqlite (text : String)
  | operatingSystem (text : String)
  | unicodeDecode

inductive Decision where
  | allow | deny
  deriving DecidableEq, Repr

def Decision.text : Decision → String
  | .allow => "allow"
  | .deny => "deny"

def Decision.parse? (t : String) : Option Decision :=
  [Decision.allow, .deny].find? (fun d => d.text = t)

inductive BindingState where
  | active | sealed | stale
  deriving DecidableEq, Repr

def BindingState.text : BindingState → String
  | .active => "active"
  | .sealed => "sealed"
  | .stale => "stale"

structure PermissionRow where
  scope : String
  decisionId : String
  taskId : String
  agentId : String
  action : String
  resourceKey : String
  decision : Decision
  decidedBy : String
  reason : String
  expiresEpoch : ℚ
  consumedUtc : Option Utc
  createdUtc : Utc
  decisionSha256 : Sha256

structure BindingRow where
  scope : String
  bindingId : String
  taskId : String
  agentId : String
  permissionDecisionId : String
  repositoryRoot : String
  worktreePath : String
  baseCommitId : String
  baseDiffSha256 : Sha256
  state : BindingState
  finalCommitId : Option String
  finalDiffSha256 : Option Sha256
  createdUtc : Utc
  updatedUtc : Utc
  bindingSha256 : Sha256

abbrev Key := String × String

def PermissionRow.key (r : PermissionRow) : Key := (r.scope, r.decisionId)

def BindingRow.key (b : BindingRow) : Key := (b.scope, b.bindingId)

def BindingRow.permission (b : BindingRow) : Key := (b.scope, b.permissionDecisionId)

-- consumed_utc is left out of the hash
def permissionPayload (r : PermissionRow) : Json :=
  .obj [("scope", .str r.scope), ("decision_id", .str r.decisionId), ("task_id", .str r.taskId),
    ("agent_id", .str r.agentId), ("action", .str r.action), ("resource_key", .str r.resourceKey),
    ("decision", .str r.decision.text), ("decided_by", .str r.decidedBy),
    ("reason", .str r.reason), ("expires_epoch", .real r.expiresEpoch),
    ("created_utc", .utc r.createdUtc)]

def bindingPayload (b : BindingRow) : Json :=
  .obj [("scope", .str b.scope), ("binding_id", .str b.bindingId), ("task_id", .str b.taskId),
    ("agent_id", .str b.agentId), ("permission_decision_id", .str b.permissionDecisionId),
    ("repository_root", .str b.repositoryRoot), ("worktree_path", .str b.worktreePath),
    ("base_commit_id", .str b.baseCommitId), ("base_diff_sha256", .sha b.baseDiffSha256),
    ("state", .str b.state.text), ("final_commit_id", .opt b.finalCommitId),
    ("final_diff_sha256", .optSha b.finalDiffSha256), ("created_utc", .utc b.createdUtc),
    ("updated_utc", .utc b.updatedUtc)]

def sealPermission (P : Platform) (r : PermissionRow) : PermissionRow :=
  { r with decisionSha256 := P.stableSha256 (permissionPayload r) }

def sealBinding (P : Platform) (b : BindingRow) : BindingRow :=
  { b with bindingSha256 := P.stableSha256 (bindingPayload b) }

inductive GitResult where
  | untrusted
  | unavailable
  | exited (returncode : Nat) (stdout stderr : List UInt8)

structure Host where
  platform : Platform
  redactSecrets : String → String
  -- bytes.decode("utf-8", errors="replace")
  decodeReplace : List UInt8 → String
  normcase : String → String
  isAbsolute : String → Bool
  join : String → String → String

-- what the filesystem and Git answer to one call
structure Outside where
  resolve : String → Except Failure String
  resolve_idem : ∀ path root, resolve path = .ok root → resolve root = .ok root
  isDirectory : String → Bool
  occupied : String → Bool
  git : String → List String → GitResult
  worktreeRoot : String → String → Except Failure String
  gitDiffSha256 : String → Except Failure Sha256
  rejectReparseAncestry : String → Except Failure Unit

def decodeStrict (bytes : List UInt8) : Option String := String.fromUTF8? ⟨bytes.toArray⟩

def GitResult.succeeded : GitResult → Bool
  | .exited returncode _ _ => returncode = 0
  | .untrusted | .unavailable => false

section Git
variable (H : Host)

def runGit : GitResult → Except Failure String
  | .untrusted => throw (.governance "trusted system Git executable is unavailable")
  | .unavailable => throw (.governance "Git execution was unavailable or timed out")
  | .exited returncode stdout stderr => do
    let output := if stderr = [] then stdout else stderr
    let detail := strip (H.redactSecrets (H.decodeReplace output))
    require (returncode = 0)
      (.governance ("Git operation failed: " ++ String.ofList (detail.toList.take 300)))
    let text ← demand (decodeStrict stdout) .unicodeDecode
    pure (strip text)

def samePath (W : Outside) (left right : String) : Except Failure Bool := do
  let left ← W.resolve left
  let right ← W.resolve right
  pure (H.normcase left = H.normcase right)

def gitCommonDirectory (W : Outside) (repository : String) : Except Failure String := do
  let value ← runGit H (W.git repository ["rev-parse", "--git-common-dir"])
  W.resolve (if H.isAbsolute value then value else H.join repository value)

def verifyLinkedWorktree (W : Outside) (repository worktree : String) : Except Failure Unit := do
  let topLevel ← runGit H (W.git worktree ["rev-parse", "--show-toplevel"])
  let exact ← samePath H W topLevel worktree
  require (exact = true)
    (.governance "isolated worktree top level does not match its binding")
  let common ← gitCommonDirectory H W repository
  let linked ← gitCommonDirectory H W worktree
  let shared ← samePath H W common linked
  require (shared = true)
    (.governance "isolated worktree is not linked to its bound repository")

def resourceKeyOf (canonical : String) : String :=
  let text := H.normcase canonical
  let folded := if H.platform.windows then
      String.ofList (text.toList.flatMap H.platform.casefold)
    else text
  "git:" ++ (H.platform.sha256Bytes folded).hex

def repositoryResourceKey (W : Outside) (repository : String) : Except Failure String :=
  resourceKeyOf H <$> W.resolve repository

def worktreeLeaf (scope bindingId : String) : String :=
  String.ofList ((H.platform.sha256Bytes (scope ++ "\x00" ++ bindingId)).hex.toList.take 16)

end Git

def identifier (value label : String) : Except Failure String := do
  require (isSafeId (strip value) = true) (.governance (label ++ " is invalid"))
  pure (strip value)

def checkedText (P : Platform) (value label : String) (limit : Nat) : Except Failure String := do
  let text := strip value
  require (text ≠ "" ∧ text.length ≤ limit) (.governance (label ++ " is invalid or too large"))
  require (P.containsSecret text = false)
    (.governance (label ++ " contains credential-like data"))
  pure text

def isGitObjectId (t : String) : Bool :=
  t.toList.all isHexDigit && 40 ≤ t.length && t.length ≤ 64

inductive Statement where
  | begin | consume | consumedEvent | insert | insertedEvent | update | rehash | commit
  deriving DecidableEq, Repr

-- the statements of one transaction that raise
abbrev Faults := Statement → Option String

def execute (f : Faults) (statement : Statement) : Except Failure Unit :=
  match f statement with
  | none => pure ()
  | some text => throw (.sqlite text)

-- call names the call that added the worktree
structure Worktree where
  path : String
  call : Nat

structure Plan where
  self : Bridge
  taskId : String
  agentId : String
  permissionDecisionId : String
  bindingId : String
  repository : String
  resourceKey : String
  commitId : String
  worktree : String

structure Sealing where
  self : Bridge
  bindingId : String
  commitId : String
  diffSha256 : Sha256

-- how far a call in flight has come
inductive Pending where
  | planned (p : Plan)
  | authorized (p : Plan)
  | added (p : Plan)
  | measured (p : Plan) (baseDiff : Sha256)
  | failing (p : Plan) (e : Failure)
  | sealing (t : Sealing)

structure Governance where
  store : Store
  permissions : List PermissionRow
  bindings : List BindingRow
  worktrees : List Worktree
  calls : List (Nat × Pending)
  opened : Nat

def Governance.permission? (k : Key) (g : Governance) : Option PermissionRow :=
  lookup PermissionRow.key k g.permissions

def Governance.binding? (k : Key) (g : Governance) : Option BindingRow :=
  lookup BindingRow.key k g.bindings

def Governance.event (P : Platform) (c : Ctx) (eventType : String)
    (payload : List (String × Json)) (taskId : String) (g : Governance) :
    Except Failure Governance :=
  match g.store.event P c eventType payload (some taskId) with
  | .ok (s, _) => pure { g with store := s }
  | .error e => throw (.bridge e)

def requireHuman (b : Bridge) : Except Failure Unit :=
  require (b.agentId = humanOperatorId)
    (.governance "only human-operator may make governance decisions")

structure DecideArgs where
  taskId : String
  agentId : String
  action : String
  resourceKey : String
  decision : String
  reason : String
  expiresEpoch : ℚ
  nowEpoch : Option ℚ := none
  decisionId : String := ""

def decidePermission (H : Host) (c : Ctx) (a : DecideArgs) (f : Faults) (g : Governance) :
    Except Failure (Governance × PermissionRow) := do
  requireHuman c.self
  let decision ← demand (Decision.parse? a.decision)
    (.governance "permission decision is invalid")
  let taskId ← identifier a.taskId "task id"
  let agentId ← identifier a.agentId "agent id"
  let action ← identifier a.action "action"
  let resourceKey ← identifier a.resourceKey "resource key"
  let reason ← checkedText H.platform a.reason "permission reason" 2000
  let now := a.nowEpoch.getD c.clock.entry
  require (now < a.expiresEpoch ∧ a.expiresEpoch ≤ now + maxPermissionSeconds)
    (.governance "permission expiry is outside the bounded range")
  let decisionId ← identifier (if a.decisionId = "" then c.uuid.text else a.decisionId)
    "decision id"
  let row := sealPermission H.platform
    { scope := c.self.scope, decisionId, taskId, agentId, action, resourceKey, decision,
      decidedBy := c.self.agentId, reason, expiresEpoch := a.expiresEpoch, consumedUtc := none,
      createdUtc := utcNow c.clock.entry, decisionSha256 := zeroSha256 }
  execute f .begin
  execute f .insert
  require (g.permission? row.key = none) (.sqlite "permission_decisions")
  let g ← Governance.event H.platform c "governance.permission.decided"
    [("decision_id", .str decisionId), ("task_id", .str taskId), ("agent_id", .str agentId),
      ("action", .str action), ("resource_key", .str resourceKey),
      ("decision", .str decision.text), ("decision_sha256", .sha row.decisionSha256)] taskId
    { g with permissions := upsert PermissionRow.key row g.permissions }
  execute f .insertedEvent
  execute f .commit
  pure (g, row)

structure Expected where
  taskId : String
  agentId : String
  action : String
  resourceKey : String
  deriving DecidableEq

def PermissionRow.expected (r : PermissionRow) : Expected :=
  { taskId := r.taskId, agentId := r.agentId, action := r.action, resourceKey := r.resourceKey }

def validatedPermissionRow (P : Platform) (k : Key) (expected : Expected) (now : ℚ)
    (g : Governance) : Except Failure PermissionRow := do
  let row ← demand (g.permission? k) (.governance "permission decision does not exist")
  require (P.stableSha256 (permissionPayload row) = row.decisionSha256)
    (.governance "permission decision SHA-256 does not match")
  require (row.expected = expected)
    (.governance "permission decision does not match the requested action")
  require (row.decision = .allow)
    (.governance "permission decision denied the requested action")
  require (¬ row.expiresEpoch ≤ now) (.governance "permission decision expired")
  require (row.consumedUtc = none) (.governance "permission decision was already consumed")
  pure row

def consumePermission (H : Host) (c : Ctx) (now : Utc) (f : Faults) (row : PermissionRow)
    (g : Governance) : Except Failure Governance := do
  execute f .consume
  require (row.consumedUtc = none)
    (.governance "permission decision could not be consumed atomically")
  let consumed := { row with consumedUtc := some now }
  let g ← Governance.event H.platform c "governance.permission.consumed"
    [("decision_id", .str row.decisionId), ("decision_sha256", .sha row.decisionSha256),
      ("task_id", .str row.taskId), ("agent_id", .str row.agentId), ("action", .str row.action),
      ("resource_key", .str row.resourceKey)] row.taskId
    { g with permissions := upsert PermissionRow.key consumed g.permissions }
  execute f .consumedEvent
  pure g

def spendPermission (H : Host) (c : Ctx) (consume : Bool) (f : Faults) (row : PermissionRow)
    (g : Governance) : Except Failure Governance :=
  if consume then consumePermission H c (utcNow c.clock.locked) f row g else pure g

structure AuthorizeArgs where
  decisionId : String
  expected : Expected
  nowEpoch : Option ℚ := none
  consume : Bool := true

def authorizePermission (H : Host) (c : Ctx) (a : AuthorizeArgs) (f : Faults) (g : Governance) :
    Except Failure (Governance × PermissionRow) := do
  let decisionId ← identifier a.decisionId "decision id"
  let taskId ← identifier a.expected.taskId "task id"
  let agentId ← identifier a.expected.agentId "agent id"
  let action ← identifier a.expected.action "action"
  let resourceKey ← identifier a.expected.resourceKey "resource key"
  let now := a.nowEpoch.getD c.clock.entry
  execute f .begin
  let row ← validatedPermissionRow H.platform (c.self.scope, decisionId)
    { taskId, agentId, action, resourceKey } now g
  let g ← spendPermission H c a.consume f row g
  execute f .commit
  pure (g, row)

def bindingRow (P : Platform) (k : Key) (g : Governance) : Except Failure BindingRow := do
  let row ← demand (g.binding? k) (.governance "execution binding does not exist")
  require (P.stableSha256 (bindingPayload row) = row.bindingSha256)
    (.governance "execution binding SHA-256 does not match")
  pure row

structure CreateArgs where
  taskId : String
  agentId : String
  permissionDecisionId : String
  repository : String
  baseCommit : String := "HEAD"
  bindingId : String := ""

-- create_isolated_worktree up to its first use of the permission
def planWorktree (H : Host) (c : Ctx) (W : Outside) (a : CreateArgs) (worktrees : List Worktree) :
    Except Failure Plan := do
  let taskId ← identifier a.taskId "task id"
  let agentId ← identifier a.agentId "agent id"
  let permissionDecisionId ← identifier a.permissionDecisionId "permission decision id"
  require (c.self.agentId ∈ [humanOperatorId, controlRoomWorkflowId, agentId])
    (.governance ("only the assigned agent, control-room workflow, or human-operator " ++
      "may create isolated execution"))
  let repository ← W.resolve a.repository
  require (W.isDirectory repository = true) (.governance "Git repository does not exist")
  let shown ← runGit H (W.git repository ["rev-parse", "--show-toplevel"])
  let topLevel ← W.resolve shown
  require (H.normcase topLevel = H.normcase repository)
    (.governance "repository path must be the exact Git top level")
  let resourceKey ← repositoryResourceKey H W repository
  let parsed ← runGit H (W.git repository ["rev-parse", a.baseCommit ++ "^\x7bcommit\x7d"])
  let commitId := lower parsed
  require (isGitObjectId commitId = true) (.governance "Git base commit identity is invalid")
  let bindingId ← identifier (if a.bindingId = "" then c.uuid.text else a.bindingId)
    "binding id"
  let root ← W.worktreeRoot repository (worktreeLeaf H c.self.scope bindingId)
  let worktree := H.join root (worktreeLeaf H c.self.scope bindingId)
  require (W.occupied worktree = false ∧ worktree ∉ worktrees.map Worktree.path)
    (.governance "isolated worktree target already exists")
  pure { self := c.self, taskId, agentId, permissionDecisionId, bindingId, repository,
         resourceKey, commitId, worktree }

def Plan.expected (p : Plan) : Expected :=
  { taskId := p.taskId, agentId := p.agentId, action := worktreeAction,
    resourceKey := p.resourceKey }

def measureWorktree (H : Host) (W : Outside) (p : Plan) : Except Failure Sha256 := do
  verifyLinkedWorktree H W p.repository p.worktree
  let observed ← runGit H (W.git p.worktree ["rev-parse", "HEAD"])
  require (lower observed = p.commitId)
    (.governance "isolated worktree did not bind the requested commit")
  W.gitDiffSha256 p.worktree

def Plan.binding (P : Platform) (p : Plan) (baseDiff : Sha256) (created : Utc) : BindingRow :=
  sealBinding P
    { scope := p.self.scope, bindingId := p.bindingId, taskId := p.taskId, agentId := p.agentId,
      permissionDecisionId := p.permissionDecisionId, repositoryRoot := p.repository,
      worktreePath := p.worktree, baseCommitId := p.commitId, baseDiffSha256 := baseDiff,
      state := .active, finalCommitId := none, finalDiffSha256 := none, createdUtc := created,
      updatedUtc := created, bindingSha256 := zeroSha256 }

-- the transaction of create_isolated_worktree
def bindWorktree (H : Host) (c : Ctx) (p : Plan) (baseDiff : Sha256) (f : Faults)
    (g : Governance) : Except Failure (Governance × BindingRow) := do
  let row := p.binding H.platform baseDiff (utcNow c.clock.entry)
  execute f .begin
  let permission ← validatedPermissionRow H.platform (p.self.scope, p.permissionDecisionId)
    p.expected c.clock.locked g
  let g ← consumePermission H c (utcNow c.clock.locked) f permission g
  execute f .insert
  require (g.binding? row.key = none) (.sqlite "execution_bindings")
  let g ← Governance.event H.platform c "governance.execution.worktree_created"
    [("binding_id", .str p.bindingId), ("task_id", .str p.taskId), ("agent_id", .str p.agentId),
      ("base_commit_id", .str p.commitId), ("base_diff_sha256", .sha baseDiff),
      ("binding_sha256", .sha row.bindingSha256)] p.taskId
    { g with bindings := upsert BindingRow.key row g.bindings }
  execute f .insertedEvent
  execute f .commit
  pure (g, row)

def requireSealer (b : Bridge) (row : BindingRow) (text : String) : Except Failure Unit :=
  require (b.agentId ∈ [humanOperatorId, controlRoomWorkflowId, row.agentId]) (.governance text)

-- seal_execution up to its transaction
def measureSealing (H : Host) (c : Ctx) (W : Outside) (bindingId : String) (g : Governance) :
    Except Failure Sealing := do
  let bindingId ← identifier bindingId "binding id"
  let row ← bindingRow H.platform (c.self.scope, bindingId) g
  requireSealer c.self row ("only the binding agent, control-room workflow, or " ++
    "human-operator may seal execution")
  require (row.state = .active) (.governance "execution binding is not active")
  let repository ← W.resolve row.repositoryRoot
  W.rejectReparseAncestry row.worktreePath
  let worktree ← W.resolve row.worktreePath
  let same ← samePath H W repository worktree
  require (same = false)
    (.governance "bound worktree resolves to the operator repository")
  verifyLinkedWorktree H W repository worktree
  let commitId ← runGit H (W.git worktree ["rev-parse", "HEAD"])
  let diffSha256 ← W.gitDiffSha256 worktree
  pure { self := c.self, bindingId, commitId := lower commitId, diffSha256 }

def sealExecution (H : Host) (c : Ctx) (t : Sealing) (f : Faults) (g : Governance) :
    Except Failure (Governance × BindingRow) := do
  execute f .begin
  let current ← bindingRow H.platform (t.self.scope, t.bindingId) g
  requireSealer t.self current "execution binding authority changed before it was sealed"
  require (current.state = .active) (.governance "execution binding is not active")
  execute f .update
  let changed := { current with state := .sealed, finalCommitId := some t.commitId,
                                finalDiffSha256 := some t.diffSha256,
                                updatedUtc := utcNow c.clock.entry }
  execute f .rehash
  let rehashed := sealBinding H.platform changed
  let g := { g with bindings := upsert BindingRow.key rehashed g.bindings }
  let row ← bindingRow H.platform (t.self.scope, t.bindingId) g
  let g ← Governance.event H.platform c "governance.execution.sealed"
    [("binding_id", .str t.bindingId), ("task_id", .str current.taskId),
      ("final_commit_id", .str t.commitId), ("final_diff_sha256", .sha t.diffSha256),
      ("binding_sha256", .sha row.bindingSha256)] current.taskId g
  execute f .insertedEvent
  execute f .commit
  pure (g, row)

end PeerBridge.ExecutionGovernance
