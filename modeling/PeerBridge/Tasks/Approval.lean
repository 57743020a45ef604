import PeerBridge.Tasks.Gate

namespace PeerBridge
open Checked Rows

def submittedReview : (TaskCall × TaskCtx) × Except BridgeError TaskReply → Option PeerReviewRow
  | (_, .ok reply) => reply.verdict
  | (_, .error _) => none

structure PeerReviewRow.Approves (r : PeerReviewRow) (t : TaskRow) : Prop where
  scope_eq : r.scope = t.scope
  task_eq : r.taskId = t.taskId
  revision_eq : r.taskRevision = t.taskRevision
  sha_eq : r.taskSha256 = t.taskSha256
  verdict_eq : r.verdict = .approved

section Verdicts
variable {P : Platform} {c : TaskCtx} {s : TaskStore} {t : TaskRow} {d d₀ : Desk}
  {tr : List ((TaskCall × TaskCtx) × Except BridgeError TaskReply)}

theorem exec_reviews (i : TaskCall × TaskCtx) (hnd : (d.store.tasks.map TaskRow.key).Nodup) :
    ((taskBoard P).exec d i).1.store.reviews =
      d.store.reviews ++ (submittedReview (i, ((taskBoard P).exec d i).2)).toList := by
  simp only [taskBoard, attemptTask]
  split
  · rename_i hp
    exact performTask_reviews hnd hp
  · simp [submittedReview]

theorem run_reviews (h₀ : (taskBoard P).start d₀) (h : (taskBoard P).Run d₀ tr d) :
    d.store.reviews = tr.filterMap submittedReview := by
  have hstart : d₀.store.Gated := reachable_gated ⟨d₀, [], h₀, .nil d₀⟩
  have hinv : d.store.Gated ∧ d.store.reviews = tr.filterMap submittedReview := by
    refine h.preserves_trace (fun tr d => d.store.Gated ∧
      d.store.reviews = tr.filterMap submittedReview) (fun tr d i hd _ => ?_) ⟨hstart, ?_⟩
    · refine ⟨?_, ?_⟩
      · rcases exec_store i hd.1.keys with he | hstep
        · exact he ▸ hd.1
        · exact hstep.gated hd.1
      · rw [exec_reviews i hd.1.keys, hd.2, List.filterMap_append]
        cases hr : submittedReview (i, ((taskBoard P).exec d i).2) <;> simp [hr]
    · rw [show d₀.store = .empty from h₀]
      rfl
  exact hinv.2

theorem TaskStore.Gated.mem_currentReviews {r : PeerReviewRow} (hs : s.Gated) :
    r ∈ s.currentReviews t ↔ r ∈ s.reviews ∧ r.scope = t.scope ∧ r.taskId = t.taskId ∧
      r.taskRevision = t.taskRevision ∧ r.taskSha256 = t.taskSha256 := by
  simp only [TaskStore.currentReviews, TaskStore.reviewsOf, PeerReviewRow.current,
    PeerCallRow.current, List.mem_flatMap, List.mem_filter, List.mem_map, decide_eq_true_eq,
    Bool.decide_and, Bool.and_eq_true]
  constructor
  · rintro ⟨u, ⟨hu, hscope, htask⟩, q, ⟨-, -, ⟨hrev, hsha⟩, -⟩, rfl⟩
    exact ⟨hu, hscope, htask, hrev, hsha⟩
  · rintro ⟨hr, hscope, htask, hrev, hsha⟩
    obtain ⟨q, hq, hid, hqrev, hqsha⟩ := hs.answered r hr
    exact ⟨r, ⟨hr, hscope, htask⟩, q, ⟨hq, hid.symm ▸ rfl, ⟨hrev, hsha⟩, hqrev.trans hrev,
      hqsha.trans hsha⟩, rfl⟩

theorem TaskStore.Gated.mem_approvedReviewers {a : String} (hs : s.Gated) :
    a ∈ s.approvedReviewers t ↔ ∃ r ∈ s.reviews, r.Approves t ∧ r.reviewer = a := by
  simp only [TaskStore.approvedReviewers, mem_sortedSet, List.mem_map, List.mem_filter,
    hs.mem_currentReviews, decide_eq_true_eq]
  constructor
  · rintro ⟨r, ⟨⟨hr, hscope, htask, hrev, hsha⟩, hv⟩, ha⟩
    exact ⟨r, hr, ⟨hscope, htask, hrev, hsha, hv⟩, ha⟩
  · rintro ⟨r, hr, h, ha⟩
    exact ⟨r, ⟨⟨hr, h.scope_eq, h.task_eq, h.revision_eq, h.sha_eq⟩, h.verdict_eq⟩, ha⟩

theorem reviewSummary_ok {taskId : String} {x : ReviewSummary}
    (h : reviewSummary c taskId s = .ok x) :
    ∃ t, s.task? c.self.scope (strip taskId) = some t ∧ x.approvalMode = t.approvalMode ∧
      x.requiredPeer = t.requiredPeer ∧ x.requiredPeers = sortedSet (s.peersOf t.key ++
        t.requiredPeer.toList) ∧ x.reviewQuorum = max 1 t.reviewQuorum ∧
      x.approvedReviewers = s.approvedReviewers t ∧
      (x.readyForCompletion, x.policyReason) = approvalGate x.approvalMode x.requiredPeer
        x.requiredPeers x.approvedReviewers x.onlinePeerAgents x.reviewQuorum := by
  simp only [reviewSummary, bind_eq_ok, demand_eq_ok, pure_eq_ok] at h
  obtain ⟨id, hid, t, ht, rfl⟩ := h
  obtain ⟨rfl, -⟩ := requireIdentifier_ok hid
  exact ⟨t, ht, rfl, rfl, rfl, rfl, rfl, rfl⟩

theorem approved_reviewers_ever {taskId : String} {x : ReviewSummary}
    (h₀ : (taskBoard P).start d₀) (h : (taskBoard P).Run d₀ tr d)
    (hx : reviewSummary c taskId d.store = .ok x) :
    ∃ t, d.store.task? c.self.scope (strip taskId) = some t ∧
      (∀ a, a ∈ x.approvedReviewers ↔
        ∃ r ∈ tr.filterMap submittedReview, r.Approves t ∧ r.reviewer = a) ∧
      (x.readyForCompletion, x.policyReason) = approvalGate t.approvalMode t.requiredPeer
        x.requiredPeers x.approvedReviewers x.onlinePeerAgents (max 1 t.reviewQuorum) := by
  obtain ⟨t, ht, hmode, hpeer, -, hquorum, happroved, hgate⟩ := reviewSummary_ok hx
  have hs : d.store.Gated := reachable_gated ⟨d₀, tr, h₀, h⟩
  refine ⟨t, ht, fun a => ?_, ?_⟩
  · rw [happroved, ← run_reviews h₀ h]
    exact hs.mem_approvedReviewers
  · rw [← hmode, ← hpeer, ← hquorum]
    exact hgate

end Verdicts

def onDesk (agentId : String) (second : Nat) (call : TaskCall)
    (safe : isIdentifier agentId = true := by
      first | exact isIdentifier_a | exact isIdentifier_b | decide) : TaskCall × TaskCtx :=
  (call, sampleTaskCtx (sampleAgent agentId safe) second)

def requestAt (second : Nat) : String := (Uuid.ofNat (1000 + second)).text

def askReview (requester recipient : String) (claimed second : Nat)
    (safe : isIdentifier requester = true := by
      first | exact isIdentifier_a | exact isIdentifier_b | decide) : TaskCall × TaskCtx :=
  onDesk requester second (.requestReview
    { taskId := "one", leaseToken := tokenOf claimed, recipient, question := "q" }) safe

def giveVerdict (reviewer : String) (verdict : Verdict) (asked second : Nat)
    (safe : isIdentifier reviewer = true := by
      first | exact isIdentifier_a | exact isIdentifier_b | decide) : TaskCall × TaskCtx :=
  onDesk reviewer second (.submitReview
    { requestId := requestAt asked, verdict := verdict.text, score := some 50, findings := "f" })
    safe

-- the peer approves one request and asks for changes on the other
def secondThoughts : List (TaskCall × TaskCtx) :=
  [onDesk "a" 1 (.claim
      { taskId := "one", summary := "s", approvalMode := "two_party_required",
        requiredPeer := "b" }),
    askReview "a" "b" 1 2, askReview "a" "b" 1 3,
    giveVerdict "b" .approved 2 4, giveVerdict "b" .changesRequested 3 5]

def verdictsIn (tr : List ((TaskCall × TaskCtx) × Except BridgeError TaskReply)) :
    List (String × Verdict × Nat) :=
  (tr.filterMap submittedReview).map (fun r => (r.reviewer, r.verdict, r.taskRevision))

set_option maxRecDepth 100000 in
theorem secondThoughts_play :
    let M := taskBoard samplePlatform
    let d := (M.play sampleDesk secondThoughts).1
    M.Run sampleDesk (M.play sampleDesk secondThoughts).2 d ∧
      verdictsIn (M.play sampleDesk secondThoughts).2 =
        [("b", .approved, 1), ("b", .changesRequested, 1)] ∧
      ∃ x, reviewSummary (sampleTaskCtx (sampleAgent "a") 6) "one" d.store = .ok x ∧
        x.taskRevision = 1 ∧ x.approvedReviewers = ["b"] ∧ x.readyForCompletion = true := by
  intro M d
  have hcheck : M.AdmitsAll sampleDesk secondThoughts ∧
      verdictsIn (M.play sampleDesk secondThoughts).2 =
        [("b", .approved, 1), ("b", .changesRequested, 1)] ∧
      (reviewSummary (sampleTaskCtx (sampleAgent "a") 6) "one" d.store).map
          (fun x => (x.taskRevision, x.approvedReviewers, x.readyForCompletion)) =
        .ok (1, ["b"], true) := by
    decide +kernel
  obtain ⟨hadm, htrace, hsum⟩ := hcheck
  refine ⟨Machine.run_play _ _ hadm, htrace, ?_⟩
  generalize reviewSummary (sampleTaskCtx (sampleAgent "a") 6) "one" d.store = y at hsum
  cases y with
  | error e => cases hsum
  | ok x => exact ⟨x, rfl, by simpa [Except.map] using hsum⟩

theorem approval_outlives_objection :
    ∃ d₀ tr d x, (taskBoard samplePlatform).start d₀ ∧ (taskBoard samplePlatform).Run d₀ tr d ∧
      verdictsIn tr = [("b", .approved, 1), ("b", .changesRequested, 1)] ∧
      reviewSummary (sampleTaskCtx (sampleAgent "a") 6) "one" d.store = .ok x ∧
      x.taskRevision = 1 ∧ x.approvedReviewers = ["b"] ∧ x.readyForCompletion = true := by
  obtain ⟨hrun, htrace, x, hx⟩ := secondThoughts_play
  exact ⟨sampleDesk, _, _, x, rfl, hrun, htrace, hx⟩

theorem approved_reviewers_ever_after_objection :
    ∃ tr, ∃ d : Desk, ∃ x t, verdictsIn tr = [("b", .approved, 1), ("b", .changesRequested, 1)] ∧
      reviewSummary (sampleTaskCtx (sampleAgent "a") 6) "one" d.store = .ok x ∧
      d.store.task? "demo" (strip "one") = some t ∧
      (∀ a, a ∈ x.approvedReviewers ↔
        ∃ r ∈ tr.filterMap submittedReview, r.Approves t ∧ r.reviewer = a) ∧
      (x.readyForCompletion, x.policyReason) = approvalGate t.approvalMode t.requiredPeer
        x.requiredPeers x.approvedReviewers x.onlinePeerAgents (max 1 t.reviewQuorum) := by
  obtain ⟨hrun, htrace, x, hx, -⟩ := secondThoughts_play
  have hstart : (taskBoard samplePlatform).start sampleDesk := rfl
  obtain ⟨t, ht, h⟩ := approved_reviewers_ever hstart hrun hx
  exact ⟨_, _, x, t, htrace, hx, ht, h⟩

end PeerBridge
