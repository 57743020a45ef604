import PeerBridge.Tasks.Approval

namespace PeerBridge
open Checked Rows

-- the approvals that satisfy the gate of a mode that asks for peers
def ReviewSummary.counted (x : ReviewSummary) : List String :=
  if x.approvalMode = .quorumRequired then
    common (if x.requiredPeers = [] then x.approvedReviewers else x.requiredPeers)
      x.approvedReviewers
  else x.requiredPeer.elim x.approvedReviewers
    (fun peer => x.approvedReviewers.filter (fun a => a = peer))

def ReviewSummary.needed (x : ReviewSummary) : Nat :=
  if x.approvalMode = .quorumRequired then x.reviewQuorum else 1

structure ApprovedByOthers (s : TaskStore) (t : TaskRow) (x : ReviewSummary)
    (completer : String) (agents : List String) : Prop where
  nodup : agents.Nodup
  enough : x.needed ≤ agents.length
  counted : ∀ a ∈ agents, a ∈ x.counted
  other : ∀ a ∈ agents, a ≠ completer
  approved : ∀ a ∈ agents, ∃ r ∈ s.reviews, r.Approves t ∧ r.reviewer = a

structure OwnApprovalsOnly (s : TaskStore) (t : TaskRow) (completer : String) : Prop where
  mode : t.approvalMode = .twoPartyRequired
  noPeer : t.requiredPeer = none
  own : ∀ r ∈ s.reviews, r.Approves t → r.reviewer = completer

structure CompletesTask (P : Platform) (c : TaskCtx) (d : Desk) (t : TaskRow)
    (done : TaskClosure) : Prop where
  mode : t.approvalMode = .twoPartyRequired ∨ t.approvalMode = .quorumRequired
  call : ∃ a s', completeTask P c d.files a d.store = .ok (s', done) ∧
    d.store.task? c.self.scope (strip a.taskId) = some t

-- no agent comes to hold a task on which its own approval stands
def KeepsApart (P : Platform) (d : Desk) (i : TaskCall × TaskCtx) : Prop :=
  match i.1 with
  | .claim a => ∀ p ∈ (prepareClaim P i.2 a).toOption, p.requiredPeer = none →
      p.approvalMode = .twoPartyRequired → ∀ r ∈ d.store.reviews,
        r.Approves (claimedTask P i.2 p (d.store.task? i.2.self.scope p.taskId)) →
          r.reviewer ≠ i.2.self.agentId
  | .submitReview a => ∀ q ∈ d.store.calls, q.scope = i.2.self.scope →
      q.requestId = strip a.requestId → ∀ t ∈ d.store.task? q.scope q.taskId,
        t.requiredPeer = none → t.approvalMode = .twoPartyRequired →
          t.claimedBy ≠ some i.2.self.agentId
  | _ => True

instance (r : PeerReviewRow) (t : TaskRow) : Decidable (r.Approves t) :=
  decidable_of_iff (r.scope = t.scope ∧ r.taskId = t.taskId ∧ r.taskRevision = t.taskRevision ∧
      r.taskSha256 = t.taskSha256 ∧ r.verdict = .approved)
    ⟨fun ⟨h₁, h₂, h₃, h₄, h₅⟩ => ⟨h₁, h₂, h₃, h₄, h₅⟩,
      fun h => ⟨h.scope_eq, h.task_eq, h.revision_eq, h.sha_eq, h.verdict_eq⟩⟩

instance (P : Platform) (d : Desk) : ∀ i, Decidable (KeepsApart P d i)
  | (.claim a, c) => inferInstanceAs (Decidable (∀ p ∈ (prepareClaim P c a).toOption, _ → _ → _))
  | (.submitReview _, c) => inferInstanceAs (Decidable (∀ q ∈ d.store.calls, _ → _ →
      ∀ t ∈ d.store.task? q.scope q.taskId, _ → _ → t.claimedBy ≠ some c.self.agentId))
  | (.renew _, _) | (.release _, _) | (.announce _, _) | (.workboard, _) | (.touchPresence, _)
  | (.clearPresence, _) | (.requestReview _, _) | (.recordProof _, _) | (.complete _, _)
  | (.close _ _ _, _) | (.edit _ _, _) => isTrue trivial

section Completions
variable {P : Platform} {c : TaskCtx} {s : TaskStore} {t : TaskRow} {d : Desk} {done : TaskClosure}
  {x : ReviewSummary}

theorem nodup_sortedSet (ts : List String) : (sortedSet ts).Nodup :=
  (List.perm_insertionSort _ _).nodup_iff.mpr (List.nodup_dedup ts)

theorem mem_common {xs ys : List String} {a : String} : a ∈ common xs ys ↔ a ∈ xs ∧ a ∈ ys := by
  simp [common]

structure Gates (c : TaskCtx) (s : TaskStore) (t : TaskRow) (x : ReviewSummary) : Prop where
  task : s.task? c.self.scope t.taskId = some t
  claimedBy : t.claimedBy = some c.self.agentId
  mode_eq : x.approvalMode = t.approvalMode
  peer_eq : x.requiredPeer = t.requiredPeer
  peers_eq : x.requiredPeers = sortedSet (s.peersOf t.key ++ t.requiredPeer.toList)
  quorum_eq : x.reviewQuorum = max 1 t.reviewQuorum
  approved_eq : x.approvedReviewers = s.approvedReviewers t
  ready : (approvalGate x.approvalMode x.requiredPeer x.requiredPeers x.approvedReviewers
    x.onlinePeerAgents x.reviewQuorum).1 = true

theorem CompletesTask.gates (h : CompletesTask P c d t done) :
    Gates c d.store t done.inspection.review := by
  obtain ⟨a, s', hcall, ht⟩ := h.call
  simp only [completeTask, bind_eq_ok] at hcall
  obtain ⟨id, hid, x, hx, hclose⟩ := hcall
  obtain ⟨rfl, -⟩ := requireIdentifier_ok hid
  simp only [closeTask, bind_eq_ok, pure_eq_ok, Prod.mk.injEq] at hclose
  obtain ⟨-, -, -, -, -, -, ⟨s₁, chain⟩, -, -, rfl⟩ := hclose
  simp only [inspectTask, bind_eq_ok, require_eq_ok, pure_eq_ok] at hx
  obtain ⟨u, hu, proof, -, -, -, review, hr, -, hready, rfl⟩ := hx
  obtain ⟨-, hu, held⟩ := requireTaskLease_ok.mp hu
  obtain rfl := Option.some.inj (hu.symm.trans ht)
  obtain ⟨-, htask⟩ := task?_key ht
  obtain ⟨v, hv, hmode, hpeer, hpeers, hquorum, happroved, hgate⟩ := reviewSummary_ok hr
  rw [strip_strip] at hv
  obtain rfl := Option.some.inj (hv.symm.trans ht)
  refine ⟨htask ▸ ht, held.claimedBy, hmode, hpeer, hpeers, hquorum, happroved, ?_⟩
  rw [← hgate]
  exact hready

theorem Gates.quorum_apart (h : Gates c s t x) (hs : s.Gated)
    (hmode : t.approvalMode = .quorumRequired) :
    ∃ agents, ApprovedByOthers s t x c.self.agentId agents := by
  obtain ⟨hscope, htask⟩ := task?_key h.task
  have hkey : s.task? t.key.1 t.key.2 = some t := by
    rw [TaskRow.key, hscope]
    exact h.task
  have hne : x.requiredPeers ≠ [] := by
    rw [h.peers_eq, Ne, sortedSet_eq_nil, List.append_eq_nil_iff]
    exact fun he => hs.quorum t.key t hkey hmode he.1
  have hmode' : x.approvalMode = .quorumRequired := h.mode_eq.trans hmode
  have hready := h.ready
  simp only [approvalGate, hmode', if_neg hne, decide_eq_true_eq] at hready
  refine ⟨common x.requiredPeers x.approvedReviewers, ?_, ?_, ?_, ?_, ?_⟩
  · rw [h.peers_eq]
    exact (nodup_sortedSet _).filter _
  · rw [ReviewSummary.needed, if_pos hmode']
    exact hready
  · intro a ha
    rw [ReviewSummary.counted, if_pos hmode', if_neg hne]
    exact ha
  · rintro a ha rfl
    obtain ⟨hpeer, hpeers⟩ := hs.apart t.key t hkey c.self.agentId h.claimedBy
    rw [mem_common, h.peers_eq, mem_sortedSet, List.mem_append, Option.mem_toList] at ha
    exact ha.1.elim hpeers hpeer
  · intro a ha
    rw [mem_common, h.approved_eq] at ha
    exact hs.mem_approvedReviewers.mp ha.2

theorem Gates.peer_apart {peer : String} (h : Gates c s t x) (hs : s.Gated)
    (hmode : t.approvalMode = .twoPartyRequired) (hpeer : t.requiredPeer = some peer) :
    ∃ agents, ApprovedByOthers s t x c.self.agentId agents := by
  obtain ⟨hscope, htask⟩ := task?_key h.task
  have hkey : s.task? t.key.1 t.key.2 = some t := by
    rw [TaskRow.key, hscope]
    exact h.task
  have hmode' : x.approvalMode = .twoPartyRequired := h.mode_eq.trans hmode
  have hpeer' : x.requiredPeer = some peer := h.peer_eq.trans hpeer
  have hready := h.ready
  simp only [approvalGate, hmode', hpeer', Option.elim_some, decide_eq_true_eq] at hready
  refine ⟨[peer], List.nodup_singleton _, ?_, ?_, ?_, ?_⟩
  · rw [ReviewSummary.needed, if_neg (by rw [hmode']; decide)]
    exact le_rfl
  · intro a ha
    obtain rfl := List.mem_singleton.mp ha
    rw [ReviewSummary.counted, if_neg (by rw [hmode']; decide), hpeer', Option.elim_some]
    exact List.mem_filter.mpr ⟨hready, by simp⟩
  · intro a ha
    obtain rfl := List.mem_singleton.mp ha
    rintro rfl
    exact (hs.apart t.key t hkey c.self.agentId h.claimedBy).1 hpeer
  · intro a ha
    obtain rfl := List.mem_singleton.mp ha
    rw [h.approved_eq] at hready
    exact hs.mem_approvedReviewers.mp hready

theorem Gates.open_apart (h : Gates c s t x) (hs : s.Gated)
    (hmode : t.approvalMode = .twoPartyRequired) (hpeer : t.requiredPeer = none) :
    (∃ agents, ApprovedByOthers s t x c.self.agentId agents) ↔
      ∃ r ∈ s.reviews, r.Approves t ∧ r.reviewer ≠ c.self.agentId := by
  have hmode' : x.approvalMode ≠ .quorumRequired := by
    rw [h.mode_eq, hmode]
    decide
  constructor
  · rintro ⟨agents, hagents⟩
    have hpos : 0 < agents.length := by
      have := hagents.enough
      rw [ReviewSummary.needed, if_neg hmode'] at this
      exact this
    obtain ⟨a, ha⟩ := List.exists_mem_of_length_pos hpos
    obtain ⟨r, hr, happ, rfl⟩ := hagents.approved a ha
    exact ⟨r, hr, happ, hagents.other _ ha⟩
  · rintro ⟨r, hr, happ, hne⟩
    refine ⟨[r.reviewer], List.nodup_singleton _, ?_, ?_, ?_, ?_⟩
    · rw [ReviewSummary.needed, if_neg hmode']
      exact le_rfl
    · intro a ha
      obtain rfl := List.mem_singleton.mp ha
      rw [ReviewSummary.counted, if_neg hmode', h.peer_eq.trans hpeer, Option.elim_none,
        h.approved_eq]
      exact hs.mem_approvedReviewers.mpr ⟨r, hr, happ, rfl⟩
    · intro a ha
      obtain rfl := List.mem_singleton.mp ha
      exact hne
    · intro a ha
      obtain rfl := List.mem_singleton.mp ha
      exact ⟨r, hr, happ, rfl⟩

theorem Gates.apart_iff (h : Gates c s t x) (hs : s.Gated)
    (hmode : t.approvalMode = .twoPartyRequired ∨ t.approvalMode = .quorumRequired) :
    (∃ agents, ApprovedByOthers s t x c.self.agentId agents) ↔
      ¬OwnApprovalsOnly s t c.self.agentId := by
  rcases hmode with hmode | hmode
  · cases hpeer : t.requiredPeer with
    | none =>
      rw [h.open_apart hs hmode hpeer]
      constructor
      · rintro ⟨r, hr, happ, hne⟩ hown
        exact hne (hown.own r hr happ)
      · intro hown
        by_contra hno
        refine hown ⟨hmode, hpeer, fun r hr happ => ?_⟩
        by_contra hne
        exact hno ⟨r, hr, happ, hne⟩
    | some peer =>
      refine iff_of_true (h.peer_apart hs hmode hpeer) fun hown => ?_
      rw [hown.noPeer] at hpeer
      cases hpeer
  · refine iff_of_true (h.quorum_apart hs hmode) fun hown => ?_
    rw [hown.mode] at hmode
    cases hmode

end Completions

-- no holder of a task without a required peer approved it itself
def TaskStore.HeldApart (s : TaskStore) : Prop :=
  ∀ k : String × String, ∀ t, s.task? k.1 k.2 = some t → t.requiredPeer = none →
    t.approvalMode = .twoPartyRequired → ∀ r ∈ s.reviews, r.Approves t →
      t.claimedBy ≠ some r.reviewer

section Guarded
variable {P : Platform} {c : TaskCtx} {files : Files} {s s' s₁ : TaskStore} {t t' : TaskRow}
  {d : Desk}

theorem Lapsed.heldApart {c : Ctx} (h : Lapsed c s s') (hs : s.HeldApart) : s'.HeldApart := by
  intro k t ht hpeer hmode r hr happ
  rw [h.rest] at hr
  rcases h.row k with he | ⟨u, -, -, he⟩
  · exact hs k t (he ▸ ht) hpeer hmode r hr happ
  · obtain rfl := Option.some.inj (he.symm.trans ht)
    exact nofun

theorem Lapsed.claimedTask_eq {c' : Ctx} {p : TaskPlan} {scope : String} (h : Lapsed c' s s₁) :
    (claimedTask P c p (s₁.task? scope p.taskId)).taskRevision =
      (claimedTask P c p (s.task? scope p.taskId)).taskRevision := by
  rcases h.row (scope, p.taskId) with he | ⟨u, hu, -, he⟩
  · rw [show s₁.task? scope p.taskId = s.task? scope p.taskId from he]
  · rw [show s₁.task? scope p.taskId = _ from he, show s.task? scope p.taskId = some u from hu]
    rfl

theorem claim_heldApart {p : TaskPlan} (h : Claims P c s s₁ s' p)
    (hguard : p.requiredPeer = none → p.approvalMode = .twoPartyRequired → ∀ r ∈ s.reviews,
      r.Approves (claimedTask P c p (s.task? c.self.scope p.taskId)) →
        r.reviewer ≠ c.self.agentId) (hs : s.HeldApart) : s'.HeldApart := by
  have hs₁ := h.lapsed.heldApart hs
  obtain ⟨log, rfl⟩ := h.store_eq
  intro k t ht hpeer hmode r hr happ
  change (s₁.putTask (claimedTask P c p (s₁.task? c.self.scope p.taskId))).task? k.1 k.2 = some t
    at ht
  rw [TaskStore.task?_putTask] at ht
  split at ht
  · obtain rfl := Option.some.inj ht
    have hr' : r ∈ s.reviews := by
      have : r ∈ s₁.reviews := hr
      rwa [h.lapsed.rest] at this
    have hne := hguard hpeer hmode r hr' ⟨happ.scope_eq, happ.task_eq,
      happ.revision_eq.trans h.lapsed.claimedTask_eq, happ.sha_eq, happ.verdict_eq⟩
    exact fun he => hne (Option.some.inj he).symm
  · exact hs₁ k t ht hpeer hmode r hr happ

theorem Retask.content (h : Retask c t t') :
    t'.taskRevision = t.taskRevision ∧ t'.taskSha256 = t.taskSha256 := by
  cases h <;> exact ⟨rfl, rfl⟩

theorem retask_heldApart (h : Retasks P c s s') (hs : s.HeldApart) : s'.HeldApart := by
  obtain ⟨t, t', token, ht, -, hstep, updates, a, rfl⟩ := h
  obtain ⟨hkey, hpeer, hmode, hby⟩ := hstep.gate
  obtain ⟨hrev, hsha⟩ := hstep.content
  have htk : t.key = (c.self.scope, t.taskId) := lookup_key ht
  have hkeys : t'.scope = t.scope ∧ t'.taskId = t.taskId :=
    ⟨congrArg Prod.fst hkey, congrArg Prod.snd hkey⟩
  intro k u hu hup hum r hr happ
  change (s.putTask t').task? k.1 k.2 = some u at hu
  rw [TaskStore.task?_putTask] at hu
  split at hu
  · rename_i hk
    obtain rfl := Option.some.inj hu
    have hold := hs (c.self.scope, t.taskId) t ht (hpeer ▸ hup) (hmode ▸ hum) r hr
      ⟨happ.scope_eq.trans hkeys.1, happ.task_eq.trans hkeys.2, happ.revision_eq.trans hrev,
        happ.sha_eq.trans hsha, happ.verdict_eq⟩
    exact fun he => hold (hby _ he)
  · exact hs k u hu hup hum r hr happ

theorem submitReview_call {a : SubmitReviewArgs} {row : PeerReviewRow}
    (h : submitReview P c a s = .ok (s', row)) :
    row.scope = c.self.scope ∧ Verdict.parse? (lower a.verdict) = some row.verdict ∧
      ∃ q ∈ s.calls, q.scope = c.self.scope ∧ q.requestId = strip a.requestId ∧
        row.taskId = q.taskId := by
  simp only [submitReview, bind_eq_ok, require_eq_ok, demand_eq_ok, pure_eq_ok, Prod.mk.injEq] at h
  obtain ⟨requestId, hid, verdict, hverdict, score, -, findings, -, -, -, paths, -, q, hq, -, -, t,
    -, -, -, -, -, ⟨s₁, chain⟩, he, rfl, rfl⟩ := h
  obtain ⟨rfl, -⟩ := requireIdentifier_ok hid
  have hmatch := List.find?_some hq
  simp only [Bool.decide_and, Bool.and_eq_true, decide_eq_true_eq] at hmatch
  exact ⟨rfl, hverdict, q, List.mem_of_find?_eq_some hq, hmatch.1, hmatch.2, rfl⟩

theorem review_heldApart {a : SubmitReviewArgs} {row : PeerReviewRow}
    (h : submitReview P c a s = .ok (s', row))
    (hguard : ∀ q ∈ s.calls, q.scope = c.self.scope → q.requestId = strip a.requestId →
      ∀ t ∈ s.task? q.scope q.taskId, t.requiredPeer = none →
        t.approvalMode = .twoPartyRequired → t.claimedBy ≠ some c.self.agentId)
    (hs : s.HeldApart) : s'.HeldApart := by
  obtain ⟨-, -, q, hq, hscope, hid, htask⟩ := submitReview_call h
  obtain ⟨u, hu, hrow, response, paths, log, rfl⟩ := submitReview_ok h
  intro k t ht hpeer hmode r hr happ
  rcases List.mem_append.mp hr with hr | hr
  · exact hs k t ht hpeer hmode r hr happ
  · obtain rfl := List.mem_singleton.mp hr
    obtain ⟨hk₁, hk₂⟩ := task?_key ht
    have hown : t.scope = q.scope :=
      happ.scope_eq.symm.trans ((hrow.scope_eq.trans (task?_key hu).1).trans hscope.symm)
    have hfound : t ∈ s.task? q.scope q.taskId := by
      rw [← htask, happ.task_eq, ← hown, hk₁, hk₂]
      exact ht
    rw [hrow.reviewer_eq]
    exact hguard q hq hscope hid t hfound hpeer hmode

theorem TaskStore.HeldApart.of_eq (htasks : s'.tasks = s.tasks) (hreviews : s'.reviews = s.reviews)
    (hs : s.HeldApart) : s'.HeldApart := by
  intro k t ht hpeer hmode r hr happ
  rw [TaskStore.task?, htasks] at ht
  exact hs k t ht hpeer hmode r (hreviews ▸ hr) happ

theorem performTask_heldApart {call : TaskCall} {r : TaskReply}
    (hnd : (d.store.tasks.map TaskRow.key).Nodup)
    (h : performTask P c d.files d.store call = .ok (s', r)) (hguard : KeepsApart P d (call, c))
    (hs : d.store.HeldApart) : s'.HeldApart := by
  cases call <;> simp only [performTask] at h
  case claim a =>
    obtain ⟨g, hx, -⟩ := boardReply_ok h
    obtain ⟨s₁, p, hp, hc⟩ := claimTask_ok hnd hx
    exact claim_heldApart hc (hguard p (by rw [hp]; rfl)) hs
  case renew a =>
    obtain ⟨e, hx, -⟩ := boardReply_ok h
    exact retask_heldApart (renewTask_ok hx) hs
  case release a =>
    obtain ⟨st, hx, -⟩ := boardReply_ok h
    exact retask_heldApart (releaseTask_ok hx) hs
  case announce a =>
    obtain ⟨u, hx, -⟩ := boardReply_ok h
    exact retask_heldApart (announceWork_ok hx) hs
  case workboard =>
    simp only [bind_eq_ok, pure_eq_ok, Prod.mk.injEq] at h
    obtain ⟨s₁, hx, rfl, -⟩ := h
    exact (expireLeases_lapsed hnd hx).heldApart hs
  case touchPresence | clearPresence | edit =>
    simp only [pure_eq_ok, Prod.mk.injEq] at h
    obtain ⟨rfl, -⟩ := h
    exact hs
  case requestReview a =>
    obtain ⟨row, hx, -⟩ := boardReply_ok h
    obtain ⟨-, -, -, -, -, -, -, -, rfl⟩ := requestReview_ok hx
    exact hs.of_eq rfl rfl
  case submitReview a =>
    obtain ⟨row, hx, -⟩ := boardReply_ok h
    exact review_heldApart hx hguard hs
  case recordProof a =>
    obtain ⟨row, hx, -⟩ := boardReply_ok h
    obtain ⟨-, -, -, -, -, -, rfl⟩ := recordProof_ok hx
    exact hs.of_eq rfl rfl
  case complete a =>
    obtain ⟨x, hx, -⟩ := boardReply_ok h
    exact retask_heldApart (completeTask_ok hx).1 hs
  case close taskId token x =>
    obtain ⟨y, hx, -⟩ := boardReply_ok h
    exact retask_heldApart (closeTask_ok hx) hs

theorem reachable_heldApart (h : ((taskBoard P).restrict (KeepsApart P)).Reachable d) :
    d.store.HeldApart := by
  have hinv : d.store.Gated ∧ d.store.HeldApart := by
    refine h.invariant (fun d => d.store.Gated ∧ d.store.HeldApart) (fun d hd => ⟨?_, ?_⟩)
      fun d i hd ha => ⟨?_, ?_⟩
    · have hstart : (taskBoard P).Reachable d := ⟨d, [], hd, .nil d⟩
      exact reachable_gated hstart
    · rw [show d.store = .empty from hd]
      exact fun k t ht => nomatch ht
    · rcases exec_store i hd.1.keys with he | hstep
      · exact he ▸ hd.1
      · exact hstep.gated hd.1
    · change (attemptTask P d i).1.store.HeldApart
      unfold attemptTask
      split
      · rename_i hp
        exact performTask_heldApart hd.1.keys hp ha.2 hd.2
      · exact hd.2
  exact hinv.2

theorem self_approval_exact :
    (∀ c d t done, (taskBoard P).Reachable d → CompletesTask P c d t done →
      ((∃ agents, ApprovedByOthers d.store t done.inspection.review c.self.agentId agents) ↔
        ¬OwnApprovalsOnly d.store t c.self.agentId)) ∧
    ∀ c d t done, ((taskBoard P).restrict (KeepsApart P)).Reachable d →
      CompletesTask P c d t done →
        ∃ agents, ApprovedByOthers d.store t done.inspection.review c.self.agentId agents := by
  refine ⟨fun c d t done h hdone => hdone.gates.apart_iff (reachable_gated h) hdone.mode,
    fun c d t done h hdone => ?_⟩
  have hgates := hdone.gates
  have hs := reachable_gated h.of_restrict
  refine (hgates.apart_iff hs hdone.mode).mpr fun hown => ?_
  -- the gate found an approval, and every approval is the holder's own
  have hready := hgates.ready
  rw [hgates.mode_eq, hown.mode, hgates.peer_eq, hown.noPeer] at hready
  simp only [approvalGate, Option.elim_none, decide_eq_true_eq] at hready
  obtain ⟨a, ha⟩ := List.exists_mem_of_ne_nil _ hready
  rw [hgates.approved_eq] at ha
  obtain ⟨r, hr, happ, -⟩ := hs.mem_approvedReviewers.mp ha
  refine reachable_heldApart h (c.self.scope, t.taskId) t hgates.task hown.noPeer hown.mode r hr
    happ ?_
  rw [hown.own r hr happ]
  exact hgates.claimedBy

end Guarded

def sampleFile (content : Nat) : FileState :=
  { sha256 := sampleSha content, size := 10, mtimeNs := content }

def leaveEvidence (agentId : String) (claimed second : Nat)
    (safe : isIdentifier agentId = true := by
      first | exact isIdentifier_a | exact isIdentifier_b | decide) : TaskCall × TaskCtx :=
  onDesk agentId second (.recordProof
    { taskId := "one", leaseToken := tokenOf claimed, changeSummary := "c", tests := "t",
      evidencePaths := ["log"] }) safe

def completion (claimed : Nat) : CompleteTaskArgs :=
  { taskId := "one", leaseToken := tokenOf claimed }

def openClaim : TaskCall :=
  .claim { taskId := "one", summary := "s", approvalMode := "two_party_required" }

-- the reviewer of the first holder claims the same task content
def ownApproval : List (TaskCall × TaskCtx) :=
  [onDesk "a" 1 (.edit "log" (some (sampleFile 5))), onDesk "a" 2 openClaim,
    askReview "a" "b" 2 3, giveVerdict "b" .approved 3 4,
    onDesk "a" 5 (.release { taskId := "one", leaseToken := tokenOf 2 }),
    onDesk "b" 6 openClaim, leaveEvidence "b" 6 7]

def peerApproval : List (TaskCall × TaskCtx) :=
  [onDesk "a" 1 (.edit "log" (some (sampleFile 5))), onDesk "a" 2 openClaim,
    askReview "a" "b" 2 3, giveVerdict "b" .approved 3 4, leaveEvidence "a" 2 5]

theorem completesTask_of {c : TaskCtx} {d : Desk} {a : CompleteTaskArgs}
    (hdone : (completeTask samplePlatform c d.files a d.store).map (fun _ => ()) = .ok ())
    (htask : (d.store.task? c.self.scope (strip a.taskId)).map
      (fun t => (t.approvalMode, t.requiredPeer)) = some (.twoPartyRequired, none)) :
    ∃ t done, CompletesTask samplePlatform c d t done ∧ t.requiredPeer = none ∧
      t.approvalMode = .twoPartyRequired := by
  obtain ⟨t, ht, he⟩ := Option.map_eq_some_iff.mp htask
  simp only [Prod.mk.injEq] at he
  cases hx : completeTask samplePlatform c d.files a d.store with
  | error e =>
    rw [hx] at hdone
    cases hdone
  | ok x => exact ⟨t, x.2, ⟨.inl he.1, a, x.1, hx, ht⟩, he.2, he.1⟩

set_option maxRecDepth 100000 in
theorem ownApproval_completes :
    ∃ d t done, (taskBoard samplePlatform).Reachable d ∧
      CompletesTask samplePlatform (sampleTaskCtx (sampleAgent "b") 8) d t done ∧
      OwnApprovalsOnly d.store t "b" := by
  let M := taskBoard samplePlatform
  let d := (M.play sampleDesk ownApproval).1
  have hcheck : M.AdmitsAll sampleDesk ownApproval ∧
      (completeTask samplePlatform (sampleTaskCtx (sampleAgent "b") 8) d.files (completion 6)
        d.store).map (fun _ => ()) = .ok () ∧
      (d.store.task? "demo" (strip "one")).map (fun t => (t.approvalMode, t.requiredPeer)) =
        some (.twoPartyRequired, none) ∧
      ∀ r ∈ d.store.reviews, r.reviewer = "b" := by
    decide +kernel
  obtain ⟨hadm, hdone, htask, hown⟩ := hcheck
  obtain ⟨t, done, hcompletes, hpeer, hmode⟩ := completesTask_of hdone htask
  exact ⟨d, t, done, ⟨sampleDesk, _, rfl, Machine.run_play _ _ hadm⟩, hcompletes,
    ⟨hmode, hpeer, fun r hr _ => hown r hr⟩⟩

theorem self_approved_completion :
    ∃ d t done, (taskBoard samplePlatform).Reachable d ∧
      CompletesTask samplePlatform (sampleTaskCtx (sampleAgent "b") 8) d t done ∧
      ¬∃ agents, ApprovedByOthers d.store t done.inspection.review "b" agents := by
  obtain ⟨d, t, done, hreach, hdone, hown⟩ := ownApproval_completes
  exact ⟨d, t, done, hreach, hdone, fun hagents =>
    (hdone.gates.apart_iff (reachable_gated hreach) hdone.mode).mp hagents hown⟩

set_option maxRecDepth 100000 in
theorem peerApproval_completes :
    ∃ d t done, ((taskBoard samplePlatform).restrict (KeepsApart samplePlatform)).Reachable d ∧
      CompletesTask samplePlatform (sampleTaskCtx (sampleAgent "a") 6) d t done := by
  let M := (taskBoard samplePlatform).restrict (KeepsApart samplePlatform)
  let d := (M.play sampleDesk peerApproval).1
  have hcheck : M.AdmitsAll sampleDesk peerApproval ∧
      (completeTask samplePlatform (sampleTaskCtx (sampleAgent "a") 6) d.files (completion 2)
        d.store).map (fun _ => ()) = .ok () ∧
      (d.store.task? "demo" (strip "one")).map (fun t => (t.approvalMode, t.requiredPeer)) =
        some (.twoPartyRequired, none) := by
    decide +kernel
  obtain ⟨hadm, hdone, htask⟩ := hcheck
  obtain ⟨t, done, hcompletes, -⟩ := completesTask_of hdone htask
  exact ⟨d, t, done, ⟨sampleDesk, _, rfl, Machine.run_play _ _ hadm⟩, hcompletes⟩

theorem self_approval_exact_runs :
    (∃ d t done, CompletesTask samplePlatform (sampleTaskCtx (sampleAgent "b") 8) d t done ∧
      ((∃ agents, ApprovedByOthers d.store t done.inspection.review "b" agents) ↔
        ¬OwnApprovalsOnly d.store t "b")) ∧
    ∃ d t done, CompletesTask samplePlatform (sampleTaskCtx (sampleAgent "a") 6) d t done ∧
      ∃ agents, ApprovedByOthers d.store t done.inspection.review "a" agents := by
  obtain ⟨d, t, done, hreach, hdone, -⟩ := ownApproval_completes
  obtain ⟨d', t', done', hreach', hdone'⟩ := peerApproval_completes
  exact ⟨⟨d, t, done, hdone, self_approval_exact.1 _ d t done hreach hdone⟩,
    d', t', done', hdone', self_approval_exact.2 _ d' t' done' hreach' hdone'⟩

end PeerBridge
