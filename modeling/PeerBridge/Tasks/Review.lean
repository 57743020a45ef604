import PeerBridge.Tasks.Store

namespace PeerBridge
open Checked Rows

structure RequestReviewArgs where
  taskId : String
  leaseToken : String
  recipient : String
  question : String
  artifactPaths : List String := []

def requestReview (P : Platform) (c : TaskCtx) (a : RequestReviewArgs) (s : TaskStore) :
    Except BridgeError (TaskStore × PeerCallRow) := do
  let taskId ← requireIdentifier a.taskId "task_id"
  let recipient ← requireIdentifier a.recipient "recipient"
  require (recipient ≠ c.self.agentId) (.bridge "review recipient must be another agent")
  let question ← requireText P a.question "question" 20000
  let artifactPaths ← c.site.cleanArtifacts a.artifactPaths
  let t ← requireTaskLease P c.toCtx taskId a.leaseToken c.clock.locked s
  let row : PeerCallRow :=
    { sequence := s.lastCall + 1, requestId := c.uuid.text, scope := c.self.scope, taskId,
      requester := c.self.agentId, recipient, question, artifactPaths,
      requestUtc := utcNow c.clock.locked, requestSha256 := zeroSha256,
      taskRevision := t.taskRevision, taskSha256 := t.taskSha256, status := "open",
      approvalMode := t.approvalMode, response := none, responseArtifactPaths := none,
      responseUtc := none, responseSha256 := none }
  let row := { row with requestSha256 := P.stableSha256 (.obj
    [("request_id", .str row.requestId), ("scope", .str row.scope), ("task_id", .str taskId),
      ("requester", .str row.requester), ("recipient", .str recipient),
      ("question", .str question), ("artifact_paths", .strs artifactPaths),
      ("request_utc", .utc row.requestUtc), ("approval_mode", .str row.approvalMode.text),
      ("task_revision", .int row.taskRevision), ("task_sha256", .sha row.taskSha256)]) }
  require (∀ q ∈ s.calls, q.requestId ≠ row.requestId) (.integrity "peer_calls.request_id")
  let s := { s with calls := s.calls ++ [row], lastCall := row.sequence }
  let (s, _) ← s.event P c.toCtx "peer.requested"
    [("request_id", .str row.requestId), ("sequence", .int row.sequence),
      ("request_sha256", .sha row.requestSha256), ("recipient", .str recipient)] taskId
  pure (s, row)

structure SubmitReviewArgs where
  requestId : String
  verdict : String
  score : Option Int
  findings : String
  response : String := ""
  artifactPaths : List String := []

def respond (P : Platform) (q : PeerCallRow) (response : String) (artifactPaths : List String)
    (reviewed : Utc) : PeerCallRow :=
  if response = "" then { q with status := "responded", responseUtc := some reviewed }
  else { q with
    status := "responded", response := some response,
    responseArtifactPaths := some artifactPaths, responseUtc := some reviewed,
    responseSha256 := some (P.stableSha256 (.obj [("request_id", .str q.requestId),
      ("response", .str response), ("artifact_paths", .strs artifactPaths)])) }

def respondAll (P : Platform) (scope requestId response : String) (artifactPaths : List String)
    (reviewed : Utc) (calls : List PeerCallRow) : List PeerCallRow :=
  calls.map (fun q => if q.scope = scope ∧ q.requestId = requestId then
    respond P q response artifactPaths reviewed else q)

def submitReview (P : Platform) (c : TaskCtx) (a : SubmitReviewArgs) (s : TaskStore) :
    Except BridgeError (TaskStore × PeerReviewRow) := do
  let requestId ← requireIdentifier a.requestId "request_id"
  let verdict ← demand (Verdict.parse? (lower a.verdict))
    (.bridge "verdict must be approved, changes_requested or blocked")
  let score ← demand (a.score.filter (fun n => 0 ≤ n ∧ n ≤ 100))
    (.bridge "score must be an integer from 0 to 100")
  let findings ← requireText P a.findings "findings" maxTextChars
  let response := strip a.response
  require (¬(response ≠ "" ∧ P.containsSecret response = true))
    (.bridge "response appears to contain a credential")
  let artifactPaths ← c.site.cleanArtifacts a.artifactPaths
  let call ← demand
    (s.calls.find? (fun q => q.scope = c.self.scope ∧ q.requestId = requestId))
    (.bridge "review request not found")
  require (call.recipient = c.self.agentId)
    (.bridge "only the addressed peer may submit this review")
  let t ← demand (s.task? c.self.scope call.taskId) (.bridge "review task not found")
  require (call.taskRevision = t.taskRevision ∧ call.taskSha256 = t.taskSha256)
    (.bridge "review request is bound to a superseded task revision")
  let row : PeerReviewRow :=
    { reviewId := c.uuid.text, scope := c.self.scope, requestId, taskId := call.taskId,
      reviewer := c.self.agentId, verdict, score := score.toNat, findings, artifactPaths,
      reviewUtc := utcNow c.clock.locked, reviewSha256 := zeroSha256,
      taskRevision := call.taskRevision, taskSha256 := call.taskSha256 }
  let row := { row with reviewSha256 := P.stableSha256 (.obj
    [("review_id", .str row.reviewId), ("scope", .str row.scope), ("request_id", .str requestId),
      ("task_id", .str row.taskId), ("reviewer", .str row.reviewer),
      ("verdict", .str verdict.text), ("score", .int row.score), ("findings", .str findings),
      ("artifact_paths", .strs artifactPaths), ("review_utc", .utc row.reviewUtc),
      ("task_revision", .int row.taskRevision), ("task_sha256", .sha row.taskSha256)]) }
  require (∀ r ∈ s.reviews, r.reviewId ≠ row.reviewId ∧
      ¬(r.scope = row.scope ∧ r.requestId = requestId ∧ r.reviewer = row.reviewer))
    (.bridge "this peer already reviewed the request")
  let s := { s with
    reviews := s.reviews ++ [row]
    calls := respondAll P row.scope requestId response artifactPaths row.reviewUtc s.calls }
  let (s, _) ← s.event P c.toCtx "peer.reviewed"
    [("request_id", .str requestId), ("review_id", .str row.reviewId),
      ("review_sha256", .sha row.reviewSha256), ("verdict", .str verdict.text)] row.taskId
  pure (s, row)

structure ReviewSummary where
  approvalMode : ApprovalMode
  requiredPeer : Option String
  requiredPeers : List String
  reviewQuorum : Nat
  taskRevision : Nat
  taskSha256 : Sha256
  reviews : List PeerReviewRow
  staleReviewCount : Nat
  approvedReviewers : List String
  onlinePeerAgents : List String
  readyForCompletion : Bool
  policyReason : String

def common (xs ys : List String) : List String := xs.filter (fun x => x ∈ ys)

-- the verdict of the approval policy over the sets it reads
def approvalGate (mode : ApprovalMode) (requiredPeer : Option String)
    (requiredPeers approved online : List String) (reviewQuorum : Nat) : Bool × String :=
  match mode with
  | .soloAllowed => (true, "solo_allowed")
  | .twoPartyRequired =>
    let ready := requiredPeer.elim (decide (approved ≠ [])) (fun peer => decide (peer ∈ approved))
    (ready, if ready then "required_peer_approved" else "peer_approval_required")
  | .quorumRequired =>
    let eligible := if requiredPeers = [] then approved else requiredPeers
    let ready := decide (reviewQuorum ≤ (common eligible approved).length)
    (ready, if ready then "review_quorum_met" else "review_quorum_pending")
  | .presenceAware =>
    let eligible := common requiredPeers online
    if eligible ≠ [] then
      let ready := decide (min reviewQuorum eligible.length ≤ (common eligible approved).length)
      (ready, if ready then "online_review_quorum_met" else "online_review_quorum_pending")
    else if online ≠ [] then
      let ready := decide (min reviewQuorum online.length ≤ (common online approved).length)
      (ready, if ready then "online_peer_quorum_met" else "online_peer_quorum_pending")
    else (true, "peer_offline_solo_fallback")

def TaskStore.reviewsOf (s : TaskStore) (scope taskId : String) : List PeerReviewRow :=
  s.reviews.filter (fun r => r.scope = scope ∧ r.taskId = taskId)

def PeerReviewRow.current (r : PeerReviewRow) (t : TaskRow) : Bool :=
  r.taskRevision = t.taskRevision ∧ r.taskSha256 = t.taskSha256

def PeerCallRow.current (q : PeerCallRow) (t : TaskRow) : Bool :=
  q.taskRevision = t.taskRevision ∧ q.taskSha256 = t.taskSha256

-- peer_reviews JOIN peer_calls at the task's present revision
def TaskStore.currentReviews (s : TaskStore) (t : TaskRow) : List PeerReviewRow :=
  (s.reviewsOf t.scope t.taskId).flatMap (fun r =>
    (s.calls.filter (fun q => q.requestId = r.requestId ∧ r.current t ∧ q.current t)).map
      (fun _ => r))

def TaskStore.approvedReviewers (s : TaskStore) (t : TaskRow) : List String :=
  sortedSet (((s.currentReviews t).filter (fun r => r.verdict = .approved)).map
    PeerReviewRow.reviewer)

def TaskStore.onlinePeers (s : TaskStore) (c : TaskCtx) (t : TaskRow) (now : ℚ) : List String :=
  (s.onlineAgents c now).filter (fun a => some a ≠ t.claimedBy ∧ a ≠ humanOperatorId)

def reviewSummary (c : TaskCtx) (taskId : String) (s : TaskStore) :
    Except BridgeError ReviewSummary := do
  let taskId ← requireIdentifier taskId "task_id"
  let t ← demand (s.task? c.self.scope taskId) (.bridge "task not found")
  let approved := s.approvedReviewers t
  let online := s.onlinePeers c t c.clock.entry
  let requiredPeers := sortedSet (s.peersOf t.key ++ t.requiredPeer.toList)
  let reviewQuorum := max 1 t.reviewQuorum
  let gate := approvalGate t.approvalMode t.requiredPeer requiredPeers approved online reviewQuorum
  pure { approvalMode := t.approvalMode, requiredPeer := t.requiredPeer, requiredPeers,
         reviewQuorum, taskRevision := t.taskRevision, taskSha256 := t.taskSha256,
         reviews := s.currentReviews t,
         staleReviewCount := ((s.reviewsOf t.scope t.taskId).filter
           (fun r => r.current t = false)).length,
         approvedReviewers := approved, onlinePeerAgents := online,
         readyForCompletion := gate.1, policyReason := gate.2 }

end PeerBridge
