import PeerBridge.Tasks.Paths
import PeerBridge.Dispatch

namespace PeerBridge
open Checked Rows

inductive TaskStatus where
  | opened | claimed | blocked | complete
  deriving DecidableEq, Repr

def TaskStatus.text : TaskStatus → String
  | .opened => "open"
  | .claimed => "claimed"
  | .blocked => "blocked"
  | .complete => "complete"

inductive Access where
  | read | write
  deriving DecidableEq, Repr

def Access.text : Access → String
  | .read => "read"
  | .write => "write"

inductive ApprovalMode where
  | soloAllowed | twoPartyRequired | presenceAware | quorumRequired
  deriving DecidableEq, Repr

def ApprovalMode.text : ApprovalMode → String
  | .soloAllowed => "solo_allowed"
  | .twoPartyRequired => "two_party_required"
  | .presenceAware => "presence_aware"
  | .quorumRequired => "quorum_required"

def ApprovalMode.parse? (t : String) : Option ApprovalMode :=
  [.soloAllowed, .twoPartyRequired, .presenceAware, .quorumRequired].find? (fun m => m.text = t)

inductive Verdict where
  | approved | changesRequested | blocked
  deriving DecidableEq, Repr

def Verdict.text : Verdict → String
  | .approved => "approved"
  | .changesRequested => "changes_requested"
  | .blocked => "blocked"

def Verdict.parse? (t : String) : Option Verdict :=
  [.approved, .changesRequested, .blocked].find? (fun v => v.text = t)

structure TaskRow where
  scope : String
  taskId : String
  workspaceRootKey : String
  summary : String
  owner : Option String
  status : TaskStatus
  claimedBy : Option String
  claimedSessionId : Option String
  leaseTokenSha256 : Option Sha256
  leaseExpiresEpoch : Option ℚ
  claimedUtc : Option Utc
  createdUtc : Utc
  updatedUtc : Utc
  taskSha256 : Sha256
  taskRevision : Nat
  approvalMode : ApprovalMode
  requiredPeer : Option String
  reviewQuorum : Nat

structure TaskPathRow where
  scope : String
  taskId : String
  access : Access
  pathPrefix : String
  createdUtc : Utc

structure RequiredPeerRow where
  scope : String
  taskId : String
  peerId : String

structure WorkUpdateRow where
  updateId : String
  scope : String
  taskId : String
  agentId : String
  status : String
  summary : String
  artifactPaths : List String
  createdUtc : Utc
  updateSha256 : Sha256

structure PeerCallRow where
  sequence : Nat
  requestId : String
  scope : String
  taskId : String
  requester : String
  recipient : String
  question : String
  artifactPaths : List String
  requestUtc : Utc
  requestSha256 : Sha256
  taskRevision : Nat
  taskSha256 : Sha256
  status : String
  approvalMode : ApprovalMode
  response : Option String
  responseArtifactPaths : Option (List String)
  responseUtc : Option Utc
  responseSha256 : Option Sha256

structure PeerReviewRow where
  reviewId : String
  scope : String
  requestId : String
  taskId : String
  reviewer : String
  verdict : Verdict
  score : Nat
  findings : String
  artifactPaths : List String
  reviewUtc : Utc
  reviewSha256 : Sha256
  taskRevision : Nat
  taskSha256 : Sha256

structure IntegrationRow where
  recordId : String
  scope : String
  taskId : String
  actor : String
  changeSummary : String
  changedPaths : List String
  beforeHashes : List (String × Option Sha256)
  afterHashes : List (String × Sha256)
  tests : String
  evidencePaths : List String
  evidenceHashes : List (String × Sha256)
  approvalMode : ApprovalMode
  reviewIds : List String
  recordedUtc : Utc
  recordSha256 : Sha256

structure PresenceRow where
  scope : String
  agentId : String
  sessionId : String
  lastSeenEpoch : ℚ

def TaskRow.key (t : TaskRow) : String × String := (t.scope, t.taskId)
def TaskPathRow.key (p : TaskPathRow) : String × String := (p.scope, p.taskId)
def RequiredPeerRow.key (p : RequiredPeerRow) : String × String := (p.scope, p.taskId)
def PresenceRow.key (p : PresenceRow) : String × String × String :=
  (p.scope, p.agentId, p.sessionId)

structure TaskStore where
  tasks : List TaskRow
  paths : List TaskPathRow
  requiredPeers : List RequiredPeerRow
  updates : List WorkUpdateRow
  calls : List PeerCallRow
  lastCall : Nat
  reviews : List PeerReviewRow
  records : List IntegrationRow
  presence : List PresenceRow
  audit : Audit

def TaskStore.empty : TaskStore :=
  { tasks := [], paths := [], requiredPeers := [], updates := [], calls := [], lastCall := 0,
    reviews := [], records := [], presence := [],
    audit := { events := [], lastEvent := 0, storageUsage := [] } }

-- the project directory a bridge works in
structure Site where
  workspaceRootKey : String
  normalizePath : String → Except BridgeError String
  isProtected : String → Bool
  cleanArtifacts : List String → Except BridgeError (List String)
  dumps : Json → String
  presenceTtlSeconds : ℚ

structure TaskCtx extends Ctx where
  site : Site

def TaskStore.task? (s : TaskStore) (scope taskId : String) : Option TaskRow :=
  lookup TaskRow.key (scope, taskId) s.tasks

def TaskStore.putTask (s : TaskStore) (t : TaskRow) : TaskStore :=
  { s with tasks := upsert TaskRow.key t s.tasks }

def TaskStore.pathsOf (s : TaskStore) (key : String × String) : List TaskPathRow :=
  s.paths.filter (fun p => p.key = key)

def TaskStore.peersOf (s : TaskStore) (key : String × String) : List String :=
  (s.requiredPeers.filter (fun p => p.key = key)).map RequiredPeerRow.peerId

def TaskStore.event (P : Platform) (c : Ctx) (eventType : String) (payload : List (String × Json))
    (taskId : String) (s : TaskStore) : Except BridgeError (TaskStore × Sha256) := do
  let (a, chain) ← PeerBridge.event P c eventType payload (some taskId) s.audit
  pure ({ s with audit := a }, chain)

def TaskRow.unleased (t : TaskRow) (status : TaskStatus) (now : Utc) : TaskRow :=
  { t with status, claimedBy := none, claimedSessionId := none, leaseTokenSha256 := none,
           leaseExpiresEpoch := none, claimedUtc := none, updatedUtc := now }

def TaskRow.expired (t : TaskRow) (now : ℚ) : Bool :=
  t.status = .claimed ∧ t.leaseExpiresEpoch.any (fun e => e ≤ now)

def expireLease (P : Platform) (c : Ctx) (s : TaskStore) (t : TaskRow) :
    Except BridgeError TaskStore := do
  let (s, _) ← (s.putTask (t.unleased .opened (utcNow c.clock.locked))).event P c
    "task.lease_expired" [("previous_holder", .opt t.claimedBy)] t.taskId
  pure s

def expireLeases (P : Platform) (c : Ctx) (s : TaskStore) : Except BridgeError TaskStore :=
  (s.tasks.filter (fun t => t.scope = c.self.scope ∧ t.expired c.clock.locked)).foldlM
    (expireLease P c) s

def requireTaskLease (P : Platform) (c : Ctx) (taskId leaseToken : String) (now : ℚ) (s : TaskStore) :
    Except BridgeError TaskRow := do
  require (leaseToken ≠ "") (.bridge "lease_token is required")
  let t ← demand (s.task? c.self.scope taskId) (.bridge "task not found")
  let expires ← demand (t.leaseExpiresEpoch.filter (fun _ => t.status = .claimed))
    (.bridge "task has no active lease")
  require (now < expires) (.bridge "task lease has expired")
  require (t.claimedBy = some c.self.agentId)
    (.bridge ("task is leased by " ++ t.claimedBy.getD "None"))
  require (t.claimedSessionId = some c.self.sessionId)
    (.bridge "task lease belongs to another agent session")
  require (t.leaseTokenSha256 = some (P.sha256Bytes leaseToken))
    (.bridge "lease token does not match")
  pure t

def defaultLeaseSeconds : Int := 900
def maxTaskPaths : Nat := 100
def maxRequiredPeers : Nat := 32
def maxActiveTaskPathRows : Nat := 10000

def sortedSet (ts : List String) : List String := ts.dedup.insertionSort (· ≤ ·)

def cleanTaskPaths (site : Site) (values : List String) (access : Access) :
    Except BridgeError (List String) := do
  require (values.length ≤ maxTaskPaths)
    (.bridge (access.text ++ "_paths exceeds the task path limit"))
  let clean ← values.mapM (fun value => do
    let normalized ← site.normalizePath value
    require (¬(access = .write ∧ site.isProtected normalized = true))
      (.bridge ("write scope is protected or sensitive: " ++ normalized))
    pure normalized)
  pure (sortedSet clean)

structure ClaimTaskArgs where
  taskId : String
  summary : String
  readPaths : List String := []
  writePaths : List String := []
  leaseSeconds : Int := defaultLeaseSeconds
  approvalMode : String := "presence_aware"
  requiredPeer : String := ""
  requiredPeers : List String := []
  reviewQuorum : Int := 1
  owner : String := ""

structure TaskPlan where
  taskId : String
  summary : String
  owner : Option String
  readPaths : List String
  writePaths : List String
  leaseSeconds : Int
  approvalMode : ApprovalMode
  requiredPeer : Option String
  requiredPeers : List String
  reviewQuorum : Nat

def cleanRequiredPeer (self : Bridge) (value : String) : Except BridgeError (Option String) :=
  if strip value = "" then pure none else do
    let peer ← requireIdentifier (strip value) "required_peer"
    require (peer ≠ self.agentId) (.bridge "required_peer must be another agent")
    pure (some peer)

def cleanRequiredPeers (self : Bridge) (values : List String) :
    Except BridgeError (List String) := do
  require (values.length ≤ maxRequiredPeers) (.bridge "required_peers exceeds the peer limit")
  values.mapM (fun value => do
    let peer ← requireIdentifier value "required_peers item"
    require (peer ≠ self.agentId) (.bridge "required_peers must contain only other agents")
    pure peer)

def prepareClaim (P : Platform) (c : TaskCtx) (a : ClaimTaskArgs) : Except BridgeError TaskPlan := do
  let taskId ← requireIdentifier a.taskId "task_id"
  let summary ← requireText P a.summary "summary" 10000
  let readPaths ← cleanTaskPaths c.site a.readPaths .read
  let writePaths ← cleanTaskPaths c.site a.writePaths .write
  let approvalMode ← demand (ApprovalMode.parse? (lower a.approvalMode))
    (.bridge ("approval_mode must be solo_allowed, two_party_required, " ++
      "presence_aware or quorum_required"))
  let requiredPeer ← cleanRequiredPeer c.self a.requiredPeer
  let peers ← cleanRequiredPeers c.self a.requiredPeers
  let requiredPeers := sortedSet (peers ++ requiredPeer.toList)
  require (1 ≤ a.reviewQuorum) (.bridge "review_quorum must be a positive integer")
  require (requiredPeers = [] ∨ a.reviewQuorum ≤ requiredPeers.length)
    (.bridge "review_quorum cannot exceed required_peers count")
  require (¬(approvalMode = .quorumRequired ∧ requiredPeers = []))
    (.bridge "quorum_required needs at least one required_peers entry")
  pure { taskId, summary, owner := if strip a.owner = "" then none else some (strip a.owner),
         readPaths, writePaths, leaseSeconds := clamp 30 maxLeaseSeconds a.leaseSeconds, approvalMode,
         requiredPeer, requiredPeers, reviewQuorum := a.reviewQuorum.toNat }

def taskContent (c : TaskCtx) (p : TaskPlan) : Json :=
  .obj [("scope", .str c.self.scope), ("task_id", .str p.taskId),
    ("workspace_root_key", .str c.site.workspaceRootKey), ("summary", .str p.summary),
    ("owner", .opt p.owner), ("read_paths", .strs p.readPaths), ("write_paths", .strs p.writePaths),
    ("approval_mode", .str p.approvalMode.text), ("required_peer", .opt p.requiredPeer),
    ("required_peers", .strs p.requiredPeers), ("review_quorum", .int p.reviewQuorum)]

def TaskPlan.requested (p : TaskPlan) : List (Access × String) :=
  p.readPaths.map (fun t => (.read, t)) ++ p.writePaths.map (fun t => (.write, t))

-- tasks JOIN task_paths over the live leases of one workspace
def TaskStore.activePaths (s : TaskStore) (rootKey : String) (now : ℚ) :
    List (TaskRow × TaskPathRow) :=
  (s.tasks.filter (fun t => t.workspaceRootKey = rootKey ∧ t.status = .claimed ∧
    t.leaseExpiresEpoch.any (fun e => now < e))).flatMap
      (fun t => (s.pathsOf t.key).map (fun p => (t, p)))

structure PathConflict where
  scope : String
  taskId : String
  claimedBy : Option String
  existingAccess : Access
  existingPath : String
  requestedAccess : Access
  requestedPath : String

def PathConflict.json (x : PathConflict) : Json :=
  .obj [("scope", .str x.scope), ("task_id", .str x.taskId), ("claimed_by", .opt x.claimedBy),
    ("existing_access", .str x.existingAccess.text), ("existing_path", .str x.existingPath),
    ("requested_access", .str x.requestedAccess.text), ("requested_path", .str x.requestedPath)]

def pathConflict (P : Platform) (key : String × String) (new : Access × String)
    (row : TaskRow × TaskPathRow) : Option PathConflict :=
  if row.1.key = key ∨ (new.1 = .read ∧ row.2.access = .read) ∨
      pathOverlaps P new.2 row.2.pathPrefix = false then none
  else some { scope := row.1.scope, taskId := row.1.taskId, claimedBy := row.1.claimedBy,
              existingAccess := row.2.access, existingPath := row.2.pathPrefix,
              requestedAccess := new.1, requestedPath := new.2 }

def pathConflicts (P : Platform) (key : String × String) (p : TaskPlan)
    (active : List (TaskRow × TaskPathRow)) : List PathConflict :=
  p.requested.flatMap (fun new => active.filterMap (pathConflict P key new))

structure TaskGrant where
  taskId : String
  claimedBy : String
  leaseToken : String
  leaseExpiresEpoch : ℚ
  taskSha256 : Sha256
  taskRevision : Nat

def claimedTask (P : Platform) (c : TaskCtx) (p : TaskPlan) (existing : Option TaskRow) : TaskRow :=
  let now := utcNow c.clock.entry
  let taskSha256 := P.stableSha256 (taskContent c p)
  { scope := c.self.scope, taskId := p.taskId, workspaceRootKey := c.site.workspaceRootKey,
    summary := p.summary, owner := p.owner, status := .claimed, claimedBy := some c.self.agentId,
    claimedSessionId := some c.self.sessionId, leaseTokenSha256 := some (P.sha256Bytes c.token),
    leaseExpiresEpoch := some (c.clock.entry + p.leaseSeconds), claimedUtc := some now,
    createdUtc := (existing.map TaskRow.createdUtc).getD now, updatedUtc := now, taskSha256,
    taskRevision := existing.elim 1
      (fun t => t.taskRevision + if t.taskSha256 = taskSha256 then 0 else 1),
    approvalMode := p.approvalMode, requiredPeer := p.requiredPeer,
    reviewQuorum := p.reviewQuorum }

def TaskStore.putClaim (s : TaskStore) (t : TaskRow) (p : TaskPlan) (now : Utc) : TaskStore :=
  { s.putTask t with
    paths := s.paths.filter (fun q => q.key ≠ t.key) ++ p.requested.map (fun (access, pathPrefix) =>
      { scope := t.scope, taskId := t.taskId, access, pathPrefix, createdUtc := now })
    requiredPeers := s.requiredPeers.filter (fun q => q.key ≠ t.key) ++ p.requiredPeers.map
      (fun peerId => { scope := t.scope, taskId := t.taskId, peerId }) }

def claimTask (P : Platform) (c : TaskCtx) (a : ClaimTaskArgs) (s : TaskStore) :
    Except BridgeError (TaskStore × TaskGrant) := do
  let p ← prepareClaim P c a
  let s ← expireLeases P c.toCtx s
  let existing := s.task? c.self.scope p.taskId
  require (existing.all (fun t => t.status ≠ .complete) = true)
    (.bridge "task is already complete")
  require (existing.all (fun t => t.status ≠ .claimed) = true)
    (.bridge ("task already has an active lease held by " ++
      (existing.bind TaskRow.claimedBy).getD "None"))
  let active := s.activePaths c.site.workspaceRootKey c.clock.entry
  require (active.length ≤ maxActiveTaskPathRows)
    (.bridge "active task path conflict set exceeds the bounded limit")
  let conflicts := pathConflicts P (c.self.scope, p.taskId) p active
  require (conflicts.isEmpty = true)
    (.bridge ("task path scope conflicts with an active lease: " ++
      c.site.dumps (.arr (conflicts.map PathConflict.json))))
  let t := claimedTask P c p existing
  let (s, _) ← (s.putClaim t p (utcNow c.clock.entry)).event P c.toCtx "task.claimed"
    [("task_sha256", .sha t.taskSha256), ("task_revision", .int t.taskRevision),
      ("lease_seconds", .int p.leaseSeconds), ("read_paths", .strs p.readPaths),
      ("write_paths", .strs p.writePaths), ("approval_mode", .str p.approvalMode.text),
      ("required_peer", .opt p.requiredPeer), ("required_peers", .strs p.requiredPeers),
      ("review_quorum", .int p.reviewQuorum)] p.taskId
  pure (s, { taskId := p.taskId, claimedBy := c.self.agentId, leaseToken := c.token,
             leaseExpiresEpoch := c.clock.entry + p.leaseSeconds, taskSha256 := t.taskSha256,
             taskRevision := t.taskRevision })

structure RenewTaskArgs where
  taskId : String
  leaseToken : String
  leaseSeconds : Int := defaultLeaseSeconds

def renewTask (P : Platform) (c : TaskCtx) (a : RenewTaskArgs) (s : TaskStore) :
    Except BridgeError (TaskStore × ℚ) := do
  let taskId ← requireIdentifier a.taskId "task_id"
  let leaseSeconds := clamp 30 maxLeaseSeconds a.leaseSeconds
  let t ← requireTaskLease P c.toCtx taskId a.leaseToken c.clock.locked s
  let expires := c.clock.later + leaseSeconds
  let t := { t with leaseExpiresEpoch := some expires, updatedUtc := utcNow c.clock.later }
  let (s, _) ← (s.putTask t).event P c.toCtx "task.lease_renewed"
    [("lease_seconds", .int leaseSeconds), ("lease_expires_epoch", .real expires)] taskId
  pure (s, expires)

structure ReleaseTaskArgs where
  taskId : String
  leaseToken : String
  status : String := "open"
  reason : String := ""

def releaseTask (P : Platform) (c : TaskCtx) (a : ReleaseTaskArgs) (s : TaskStore) :
    Except BridgeError (TaskStore × TaskStatus) := do
  let taskId ← requireIdentifier a.taskId "task_id"
  let status ← demand ([TaskStatus.opened, .blocked].find? (fun x => x.text = lower a.status))
    (.bridge "release status must be open or blocked")
  let reason := strip a.reason
  require (¬(reason ≠ "" ∧ P.containsSecret reason = true))
    (.bridge "reason appears to contain a credential")
  let t ← requireTaskLease P c.toCtx taskId a.leaseToken c.clock.locked s
  let (s, _) ← (s.putTask (t.unleased status (utcNow c.clock.locked))).event P c.toCtx
    "task.released" [("status", .str status.text),
      ("reason_sha256", .sha (P.stableSha256 (.str reason)))] taskId
  pure (s, status)

structure AnnounceWorkArgs where
  taskId : String
  leaseToken : String
  summary : String
  status : String := "working"
  artifactPaths : List String := []

def announceWork (P : Platform) (c : TaskCtx) (a : AnnounceWorkArgs) (s : TaskStore) :
    Except BridgeError (TaskStore × WorkUpdateRow) := do
  let taskId ← requireIdentifier a.taskId "task_id"
  let summary ← requireText P a.summary "summary" 10000
  let status := lower a.status
  require (status ∈ ["working", "waiting", "review"])
    (.bridge "status must be working, waiting or review")
  let artifactPaths ← c.site.cleanArtifacts a.artifactPaths
  let createdUtc := utcNow c.clock.entry
  let update : WorkUpdateRow :=
    { updateId := c.uuid.text, scope := c.self.scope, taskId, agentId := c.self.agentId, status,
      summary, artifactPaths, createdUtc, updateSha256 := zeroSha256 }
  let update := { update with updateSha256 := P.stableSha256 (.obj
    [("update_id", .str update.updateId), ("scope", .str update.scope), ("task_id", .str taskId),
      ("agent_id", .str update.agentId), ("status", .str status), ("summary", .str summary),
      ("artifact_paths", .strs artifactPaths), ("created_utc", .utc createdUtc)]) }
  let t ← requireTaskLease P c.toCtx taskId a.leaseToken c.clock.locked s
  require (∀ u ∈ s.updates, u.updateId ≠ update.updateId) (.integrity "work_updates.update_id")
  let s := { s.putTask { t with summary, updatedUtc := createdUtc } with
             updates := s.updates ++ [update] }
  let (s, _) ← s.event P c.toCtx "work.announced"
    [("update_id", .str update.updateId), ("status", .str status),
      ("update_sha256", .sha update.updateSha256)] taskId
  pure (s, update)

-- what a listing of the board writes
def workboard (P : Platform) (c : TaskCtx) (s : TaskStore) : Except BridgeError TaskStore :=
  expireLeases P c.toCtx s

def touchPresence (c : TaskCtx) (s : TaskStore) : TaskStore :=
  let row : PresenceRow :=
    { scope := c.self.scope, agentId := c.self.agentId, sessionId := c.self.sessionId,
      lastSeenEpoch := c.clock.locked }
  { s with presence := upsert PresenceRow.key row s.presence }

def clearPresence (c : TaskCtx) (s : TaskStore) : TaskStore :=
  let key := (c.self.scope, c.self.agentId, c.self.sessionId)
  { s with presence := s.presence.filter (fun p => p.key ≠ key) }

def TaskStore.onlineAgents (s : TaskStore) (c : TaskCtx) (now : ℚ) : List String :=
  sortedSet ((s.presence.filter (fun p => p.scope = c.self.scope ∧
    now - c.site.presenceTtlSeconds ≤ p.lastSeenEpoch)).map PresenceRow.agentId)

end PeerBridge
