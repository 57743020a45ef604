import PeerBridge.Tasks.Proof
import PeerBridge.Scenario
import PeerBridge.Lib.Upsert

namespace PeerBridge
open Checked Rows

section Lapses
variable {P : Platform} {c : Ctx} {s s' s₁ : TaskStore} {t : TaskRow}

theorem TaskStore.event_ok {eventType taskId : String} {payload : List (String × Json)}
    {chain : Sha256} (h : s.event P c eventType payload taskId = .ok (s', chain)) :
    ∃ a, s' = { s with audit := a } := by
  simp only [TaskStore.event, bind_eq_ok, pure_eq_ok, Prod.mk.injEq] at h
  obtain ⟨⟨a, _⟩, -, rfl, -⟩ := h
  exact ⟨a, rfl⟩

theorem TaskStore.task?_putTask (k : String × String) :
    (s.putTask t).task? k.1 k.2 = if t.key = k then some t else s.task? k.1 k.2 :=
  lookup_upsert _ _ _ _

theorem TaskStore.putTask_keys (h : t.key ∈ s.tasks.map TaskRow.key) :
    (s.putTask t).tasks.map TaskRow.key = s.tasks.map TaskRow.key := by
  rw [putTask, upsert_keys, if_pos h]

-- the board after the leases of one scope that ran out were reopened
structure Lapsed (c : Ctx) (s s' : TaskStore) : Prop where
  rest : s' = { s with tasks := s'.tasks, audit := s'.audit }
  keys : s'.tasks.map TaskRow.key = s.tasks.map TaskRow.key
  row : ∀ k : String × String, s'.task? k.1 k.2 = s.task? k.1 k.2 ∨
    ∃ t, s.task? k.1 k.2 = some t ∧ t.expired c.clock.locked = true ∧
      s'.task? k.1 k.2 = some (t.unleased .opened (utcNow c.clock.locked))

theorem Lapsed.refl (s : TaskStore) : Lapsed c s s := ⟨rfl, rfl, fun _ => .inl rfl⟩

theorem expireLease_lapsed (ht : s.task? t.scope t.taskId = some t)
    (he : t.expired c.clock.locked = true) (h : expireLease P c s t = .ok s') :
    Lapsed c s s' ∧ ∀ k, k ≠ t.key → s'.task? k.1 k.2 = s.task? k.1 k.2 := by
  simp only [expireLease, bind_eq_ok, pure_eq_ok] at h
  obtain ⟨⟨s₁, chain⟩, hev, rfl⟩ := h
  obtain ⟨a, rfl⟩ := TaskStore.event_ok hev
  have hmem : t.key ∈ s.tasks.map TaskRow.key := List.mem_map_of_mem (lookup_mem ht)
  have hother (k : String × String) (hk : k ≠ t.key) :
      (s.putTask (t.unleased .opened (utcNow c.clock.locked))).task? k.1 k.2 =
        s.task? k.1 k.2 := by
    rw [TaskStore.task?_putTask]
    exact if_neg fun he => hk he.symm
  refine ⟨⟨rfl, TaskStore.putTask_keys hmem, fun k => ?_⟩, hother⟩
  by_cases hk : k = t.key
  · subst hk
    refine .inr ⟨t, ht, he, ?_⟩
    exact (TaskStore.task?_putTask _).trans (if_pos rfl)
  · exact .inl (hother k hk)

theorem foldlM_lapsed (ts : List TaskRow) (hnd : (ts.map TaskRow.key).Nodup)
    (hts : ∀ t ∈ ts, s.task? t.scope t.taskId = some t ∧ t.expired c.clock.locked = true)
    (h : ts.foldlM (expireLease P c) s = .ok s') :
    Lapsed c s s' ∧ ∀ k, k ∉ ts.map TaskRow.key → s'.task? k.1 k.2 = s.task? k.1 k.2 := by
  induction ts generalizing s with
  | nil =>
    obtain rfl : s = s' := by simpa using h
    exact ⟨.refl s, fun _ _ => rfl⟩
  | cons t ts ih =>
    simp only [List.foldlM_cons, bind_eq_ok] at h
    obtain ⟨s₁, h₁, h⟩ := h
    rw [List.map_cons, List.nodup_cons] at hnd
    obtain ⟨ht, he⟩ := hts t List.mem_cons_self
    obtain ⟨hl, hother⟩ := expireLease_lapsed ht he h₁
    have hne (u : TaskRow) (hu : u ∈ ts) : u.key ≠ t.key :=
      fun hk => hnd.1 (hk ▸ List.mem_map_of_mem hu)
    obtain ⟨hl', hother'⟩ := ih hnd.2 (fun u hu => by
      refine ⟨?_, (hts u (List.mem_cons_of_mem _ hu)).2⟩
      exact (hother u.key (hne u hu)).trans (hts u (List.mem_cons_of_mem _ hu)).1) h
    refine ⟨⟨?_, hl'.keys.trans hl.keys, fun k => ?_⟩, fun k hk => ?_⟩
    · rw [hl'.rest, hl.rest]
    · by_cases hk : k = t.key
      · subst hk
        rw [hother' t.key hnd.1]
        exact hl.row t.key
      · rw [← hother k hk]
        exact hl'.row k
    · rw [List.map_cons, List.mem_cons, not_or] at hk
      exact (hother' k hk.2).trans (hother k hk.1)

theorem expireLeases_lapsed (hnd : (s.tasks.map TaskRow.key).Nodup)
    (h : expireLeases P c s = .ok s') : Lapsed c s s' := by
  refine (foldlM_lapsed _ ?_ (fun t ht => ?_) h).1
  · exact hnd.sublist (List.filter_sublist.map _)
  · obtain ⟨hm, hf⟩ := List.mem_filter.mp ht
    simp only [Bool.decide_and, Bool.decide_eq_true, Bool.and_eq_true] at hf
    exact ⟨lookup_of_mem hnd hm, hf.2⟩

end Lapses

def TaskRow.live (t : TaskRow) (now : ℚ) : Prop :=
  t.status = .claimed ∧ ∃ e, t.leaseExpiresEpoch = some e ∧ now < e

structure Held (P : Platform) (c : Ctx) (token : String) (now : ℚ) (t : TaskRow) : Prop where
  live : t.live now
  claimedBy : t.claimedBy = some c.self.agentId
  session : t.claimedSessionId = some c.self.sessionId
  token : t.leaseTokenSha256 = some (P.sha256Bytes token)

-- what the holder of a lease does to its row
inductive Retask (c : TaskCtx) (t : TaskRow) : TaskRow → Prop
  | unleased (status : TaskStatus) (hs : status ≠ .claimed) (now : Utc) :
      Retask c t (t.unleased status now)
  | renewed (expires : ℚ) (now : Utc) :
      Retask c t { t with leaseExpiresEpoch := some expires, updatedUtc := now }
  | announced (summary : String) (now : Utc) :
      Retask c t { t with summary, updatedUtc := now }

def Retasks (P : Platform) (c : TaskCtx) (s s' : TaskStore) : Prop :=
  ∃ t t' token, s.task? c.self.scope t.taskId = some t ∧ Held P c.toCtx token c.clock.locked t ∧
    Retask c t t' ∧ ∃ updates a, s' = { s.putTask t' with updates := updates, audit := a }

structure Claims (P : Platform) (c : TaskCtx) (s s₁ s' : TaskStore) (p : TaskPlan) : Prop where
  plan : ∃ a, prepareClaim P c a = .ok p
  lapsed : Lapsed c.toCtx s s₁
  free : ∀ t, s₁.task? c.self.scope p.taskId = some t → t.status ≠ .complete ∧ t.status ≠ .claimed
  apart : pathConflicts P (c.self.scope, p.taskId) p
    (s₁.activePaths c.site.workspaceRootKey c.clock.entry) = []
  store_eq : ∃ a, s' = { (s₁.putClaim (claimedTask P c p (s₁.task? c.self.scope p.taskId)) p
    (utcNow c.clock.entry)) with audit := a }

structure Requests (c : TaskCtx) (t : TaskRow) (row : PeerCallRow) : Prop where
  scope_eq : row.scope = t.scope
  task_eq : row.taskId = t.taskId
  recipient_ne : row.recipient ≠ c.self.agentId
  revision_eq : row.taskRevision = t.taskRevision
  sha_eq : row.taskSha256 = t.taskSha256

def Requested (P : Platform) (c : TaskCtx) (s s' : TaskStore) : Prop :=
  ∃ t token row, s.task? c.self.scope t.taskId = some t ∧
    Held P c.toCtx token c.clock.locked t ∧ Requests c t row ∧
    ∃ n a, s' = { s with calls := s.calls ++ [row], lastCall := n, audit := a }

structure Reviews (c : TaskCtx) (s : TaskStore) (t : TaskRow) (row : PeerReviewRow) : Prop where
  call : ∃ q ∈ s.calls, q.scope = c.self.scope ∧ q.requestId = row.requestId ∧
    q.recipient = c.self.agentId ∧ q.taskRevision = t.taskRevision ∧ q.taskSha256 = t.taskSha256
  scope_eq : row.scope = t.scope
  task_eq : row.taskId = t.taskId
  reviewer_eq : row.reviewer = c.self.agentId
  revision_eq : row.taskRevision = t.taskRevision
  sha_eq : row.taskSha256 = t.taskSha256
  fresh : ∀ r ∈ s.reviews, r.reviewId ≠ row.reviewId

structure Proves (files : Files) (t : TaskRow) (row : IntegrationRow) : Prop where
  scope_eq : row.scope = t.scope
  task_eq : row.taskId = t.taskId
  tests_ne : row.tests ≠ ""
  bound : ∀ x ∈ row.expected, (files x.1).map FileState.sha256 = some x.2

-- one transaction's effect on the store, the audit log aside
inductive BoardStep (P : Platform) (c : TaskCtx) (files : Files) (s s' : TaskStore) : Prop
  | lapse (h : Lapsed c.toCtx s s')
  | claim (s₁ : TaskStore) (p : TaskPlan) (h : Claims P c s s₁ s' p)
  | retask (h : Retasks P c s s')
  | presence (rows : List PresenceRow) (hs : s' = { s with presence := rows })
  | request (h : Requested P c s s')
  | review (t : TaskRow) (row : PeerReviewRow) (ht : s.task? c.self.scope t.taskId = some t)
      (h : Reviews c s t row)
      (hs : ∃ response artifactPaths a, s' = { s with
        reviews := s.reviews ++ [row]
        calls := respondAll P row.scope row.requestId response artifactPaths row.reviewUtc s.calls
        audit := a })
  | prove (t : TaskRow) (token : String) (row : IntegrationRow)
      (ht : s.task? c.self.scope t.taskId = some t)
      (held : Held P c.toCtx token c.clock.locked t) (h : Proves files t row)
      (hs : ∃ a, s' = { s with records := s.records ++ [row], audit := a })

section Calls
variable {P : Platform} {c : TaskCtx} {files : Files} {s s' : TaskStore} {t : TaskRow}

theorem requireTaskLease_ok {taskId token : String} {now : ℚ} :
    requireTaskLease P c.toCtx taskId token now s = .ok t ↔
      token ≠ "" ∧ s.task? c.self.scope taskId = some t ∧ Held P c.toCtx token now t := by
  simp only [requireTaskLease, bind_eq_ok, require_eq_ok, demand_eq_ok, pure_eq_ok,
    Option.filter_eq_some_iff, decide_eq_true_eq]
  constructor
  · rintro ⟨-, htok, u, hu, e, ⟨he, hs⟩, -, hlt, -, hby, -, hses, -, hsha, rfl⟩
    exact ⟨htok, hu, ⟨⟨hs, e, he, hlt⟩, hby, hses, hsha⟩⟩
  · rintro ⟨htok, ht, ⟨⟨hs, e, he, hlt⟩, hby, hses, hsha⟩⟩
    exact ⟨(), htok, t, ht, e, ⟨he, hs⟩, (), hlt, (), hby, (), hses, (), hsha, rfl⟩

theorem task?_key {scope taskId : String} (h : s.task? scope taskId = some t) :
    t.scope = scope ∧ t.taskId = taskId := by
  have hk : t.key = (scope, taskId) := lookup_key h
  exact ⟨congrArg Prod.fst hk, congrArg Prod.snd hk⟩

theorem claimTask_ok {a : ClaimTaskArgs} {g : TaskGrant}
    (hnd : (s.tasks.map TaskRow.key).Nodup) (h : claimTask P c a s = .ok (s', g)) :
    ∃ s₁ p, prepareClaim P c a = .ok p ∧ Claims P c s s₁ s' p := by
  simp only [claimTask, bind_eq_ok, require_eq_ok, pure_eq_ok, Prod.mk.injEq] at h
  obtain ⟨p, hp, s₁, hl, -, hcomplete, -, hclaimed, -, -, -, hconf, ⟨s₂, chain⟩, he, rfl, -⟩ := h
  obtain ⟨log, rfl⟩ := TaskStore.event_ok he
  refine ⟨s₁, p, hp, ⟨a, hp⟩, expireLeases_lapsed hnd hl, fun t ht => ?_,
    List.isEmpty_iff.mp hconf, log, rfl⟩
  rw [ht] at hcomplete hclaimed
  exact ⟨by simpa using hcomplete, by simpa using hclaimed⟩

theorem renewTask_ok {a : RenewTaskArgs} {e : ℚ} (h : renewTask P c a s = .ok (s', e)) :
    Retasks P c s s' := by
  simp only [renewTask, bind_eq_ok, pure_eq_ok, Prod.mk.injEq] at h
  obtain ⟨taskId, -, t, ht, ⟨s₁, chain⟩, he, rfl, -⟩ := h
  obtain ⟨log, rfl⟩ := TaskStore.event_ok he
  obtain ⟨-, hl, held⟩ := requireTaskLease_ok.mp ht
  obtain ⟨-, rfl⟩ := task?_key hl
  exact ⟨t, _, _, hl, held, .renewed _ _, _, _, rfl⟩

theorem releaseTask_ok {a : ReleaseTaskArgs} {st : TaskStatus}
    (h : releaseTask P c a s = .ok (s', st)) : Retasks P c s s' := by
  simp only [releaseTask, bind_eq_ok, demand_eq_ok, pure_eq_ok, Prod.mk.injEq] at h
  obtain ⟨taskId, -, status, hst, -, -, t, ht, ⟨s₁, chain⟩, he, rfl, -⟩ := h
  obtain ⟨log, rfl⟩ := TaskStore.event_ok he
  obtain ⟨-, hl, held⟩ := requireTaskLease_ok.mp ht
  obtain ⟨-, rfl⟩ := task?_key hl
  have hne : status ≠ .claimed := by
    have hm := List.mem_of_find?_eq_some hst
    rintro rfl
    simp at hm
  exact ⟨t, _, _, hl, held, .unleased status hne _, _, _, rfl⟩

theorem announceWork_ok {a : AnnounceWorkArgs} {u : WorkUpdateRow}
    (h : announceWork P c a s = .ok (s', u)) : Retasks P c s s' := by
  simp only [announceWork, bind_eq_ok, pure_eq_ok, Prod.mk.injEq] at h
  obtain ⟨taskId, -, summary, -, -, -, paths, -, t, ht, -, -, ⟨s₁, chain⟩, he, rfl, -⟩ := h
  obtain ⟨log, rfl⟩ := TaskStore.event_ok he
  obtain ⟨-, hl, held⟩ := requireTaskLease_ok.mp ht
  obtain ⟨-, rfl⟩ := task?_key hl
  exact ⟨t, _, _, hl, held, .announced summary _, _, _, rfl⟩

theorem requestReview_ok {a : RequestReviewArgs} {row : PeerCallRow}
    (h : requestReview P c a s = .ok (s', row)) : Requested P c s s' := by
  simp only [requestReview, bind_eq_ok, require_eq_ok, pure_eq_ok, Prod.mk.injEq] at h
  obtain ⟨taskId, -, recipient, -, -, hne, question, -, paths, -, t, ht, -, -, ⟨s₁, chain⟩, he, rfl,
    -⟩ := h
  obtain ⟨log, rfl⟩ := TaskStore.event_ok he
  obtain ⟨-, hl, held⟩ := requireTaskLease_ok.mp ht
  obtain ⟨hscope, rfl⟩ := task?_key hl
  exact ⟨t, _, _, hl, held, ⟨hscope.symm, rfl, hne, rfl, rfl⟩, _, _, rfl⟩

theorem submitReview_ok {a : SubmitReviewArgs} {row : PeerReviewRow}
    (h : submitReview P c a s = .ok (s', row)) :
    ∃ t, s.task? c.self.scope t.taskId = some t ∧ Reviews c s t row ∧
      ∃ response artifactPaths log, s' = { s with
        reviews := s.reviews ++ [row]
        calls := respondAll P row.scope row.requestId response artifactPaths row.reviewUtc s.calls
        audit := log } := by
  simp only [submitReview, bind_eq_ok, require_eq_ok, demand_eq_ok, pure_eq_ok, Prod.mk.injEq] at h
  obtain ⟨requestId, -, verdict, -, score, -, findings, -, -, -, paths, -, q, hq, -, hrec, t, ht,
    -, ⟨hrev, hsha⟩, -, hfresh, ⟨s₁, chain⟩, he, rfl, rfl⟩ := h
  obtain ⟨log, rfl⟩ := TaskStore.event_ok he
  obtain ⟨hscope, htask⟩ := task?_key ht
  have hmatch := List.find?_some hq
  simp only [Bool.decide_and, Bool.and_eq_true, decide_eq_true_eq] at hmatch
  exact ⟨t, htask ▸ ht, ⟨⟨q, List.mem_of_find?_eq_some hq, hmatch.1, hmatch.2, hrec, hrev, hsha⟩,
    hscope.symm, htask.symm, rfl, hrev, hsha, fun r hr => (hfresh r hr).1⟩, _, _, _, rfl⟩

theorem hashFrom_ok {n : Nat} {paths : List String} {hashed : List (String × FileState)}
    (h : hashFrom files n paths = .ok hashed) :
    hashed.map Prod.fst = paths ∧ ∀ x ∈ hashed, files x.1 = some x.2 := by
  induction paths generalizing n hashed with
  | nil =>
    obtain rfl : [] = hashed := by simpa [hashFrom] using h
    exact ⟨rfl, fun x hx => by cases hx⟩
  | cons path paths ih =>
    simp only [hashFrom, bind_eq_ok, demand_eq_ok, pure_eq_ok] at h
    obtain ⟨f, hf, -, -, ys, hys, rfl⟩ := h
    obtain ⟨hmap, hall⟩ := ih hys
    refine ⟨by rw [List.map_cons, hmap], fun x hx => ?_⟩
    rcases List.mem_cons.mp hx with rfl | hx
    · exact hf
    · exact hall x hx

theorem hashProofFiles_ok {paths : List String} {hashed : List (String × FileState)}
    (h : hashProofFiles files paths = .ok hashed) :
    hashed.map Prod.fst = paths.eraseDups ∧ ∀ x ∈ hashed, files x.1 = some x.2 := by
  simp only [hashProofFiles, bind_eq_ok] at h
  obtain ⟨-, -, h⟩ := h
  exact hashFrom_ok h

theorem lookup_hashed {hashed : List (String × FileState)} {path : String} {f : FileState}
    (hall : ∀ x ∈ hashed, files x.1 = some x.2) (h : hashed.lookup path = some f) :
    files path = some f := by
  obtain ⟨l₁, l₂, rfl, -⟩ := List.lookup_eq_some_iff.mp h
  exact hall (path, f) (List.mem_append_right _ List.mem_cons_self)

theorem ProofDraft.mem_hashes {d : ProofDraft} {paths : List String} {x : String × Sha256}
    (hall : ∀ x ∈ d.hashed, files x.1 = some x.2) (h : x ∈ d.hashes paths) :
    x.1 ∈ paths ∧ (files x.1).map FileState.sha256 = some x.2 := by
  obtain ⟨p, hp, hx⟩ := List.mem_filterMap.mp h
  obtain ⟨f, hf, rfl⟩ := Option.map_eq_some_iff.mp hx
  exact ⟨List.mem_eraseDups.mp hp, by rw [lookup_hashed hall hf]; rfl⟩

theorem requireText_ne {value label text : String} {limit : Nat}
    (h : requireText P value label limit = .ok text) : text ≠ "" := by
  simp only [requireText, bind_eq_ok, require_eq_ok, pure_eq_ok] at h
  obtain ⟨-, hne, -, -, -, -, rfl⟩ := h
  exact hne

theorem prepareProof_ok {a : RecordProofArgs} {d : ProofDraft}
    (h : prepareProof P c files a s = .ok d) :
    d.tests ≠ "" ∧ ∀ x ∈ d.hashed, files x.1 = some x.2 := by
  simp only [prepareProof, bind_eq_ok, pure_eq_ok] at h
  obtain ⟨d₀, hd₀, -, -, -, -, hashed, hhash, rfl⟩ := h
  refine ⟨?_, (hashProofFiles_ok hhash).2⟩
  simp only [cleanProof, bind_eq_ok, pure_eq_ok] at hd₀
  obtain ⟨-, -, -, -, tests, ht, -, -, -, -, -, -, -, -, -, -, -, -, -, -, rfl⟩ := hd₀
  exact requireText_ne ht

theorem recordProof_ok {a : RecordProofArgs} {row : IntegrationRow}
    (h : recordProof P c files a s = .ok (s', row)) :
    ∃ t token, s.task? c.self.scope t.taskId = some t ∧
      Held P c.toCtx token c.clock.locked t ∧ Proves files t row ∧
      ∃ log, s' = { s with records := s.records ++ [row], audit := log } := by
  simp only [recordProof, bind_eq_ok] at h
  obtain ⟨d, hd, h⟩ := h
  obtain ⟨htests, hall⟩ := prepareProof_ok hd
  simp only [commitProof, bind_eq_ok, pure_eq_ok, Prod.mk.injEq] at h
  obtain ⟨t, ht, -, -, -, -, -, -, ⟨s₁, chain⟩, he, rfl, rfl⟩ := h
  obtain ⟨log, rfl⟩ := TaskStore.event_ok he
  obtain ⟨-, hl, held⟩ := requireTaskLease_ok.mp ht
  obtain ⟨hscope, htask⟩ := task?_key hl
  refine ⟨t, a.leaseToken, htask ▸ hl, held, ⟨hscope.symm, htask.symm, htests, fun x hx => ?_⟩,
    log, rfl⟩
  rcases List.mem_append.mp hx with hx | hx
  · exact (ProofDraft.mem_hashes hall (List.mem_filter.mp hx).1).2
  · exact (ProofDraft.mem_hashes hall hx).2

theorem closeTask_ok {taskId token : String} {x : Inspection} {done : TaskClosure}
    (h : closeTask P c files taskId token x s = .ok (s', done)) : Retasks P c s s' := by
  simp only [closeTask, bind_eq_ok, pure_eq_ok, Prod.mk.injEq] at h
  obtain ⟨t, ht, -, -, -, -, ⟨s₁, chain⟩, he, rfl, -⟩ := h
  obtain ⟨log, rfl⟩ := TaskStore.event_ok he
  obtain ⟨-, hl, held⟩ := requireTaskLease_ok.mp ht
  obtain ⟨-, rfl⟩ := task?_key hl
  exact ⟨t, _, _, hl, held, .unleased .complete (by decide) _, _, _, rfl⟩

structure Finishes (P : Platform) (c : TaskCtx) (files : Files) (s : TaskStore) (t : TaskRow)
    (x : Inspection) : Prop where
  task : s.task? c.self.scope t.taskId = some t
  claimedBy : t.claimedBy = some c.self.agentId
  proof : proofsAreLive files c.self.scope t.taskId s = .ok x.proof ∧ x.proof.ready = true
  review : reviewSummary c t.taskId s = .ok x.review ∧ x.review.readyForCompletion = true

theorem completeTask_ok {a : CompleteTaskArgs} {done : TaskClosure}
    (h : completeTask P c files a s = .ok (s', done)) :
    Retasks P c s s' ∧ ∃ t, Finishes P c files s t done.inspection := by
  simp only [completeTask, bind_eq_ok] at h
  obtain ⟨taskId, -, x, hx, h⟩ := h
  refine ⟨closeTask_ok h, ?_⟩
  simp only [inspectTask, bind_eq_ok, require_eq_ok, pure_eq_ok] at hx
  obtain ⟨t, ht, proof, hp, -, hready, review, hr, -, hgate, rfl⟩ := hx
  obtain ⟨-, hl, held⟩ := requireTaskLease_ok.mp ht
  obtain ⟨-, rfl⟩ := task?_key hl
  simp only [closeTask, bind_eq_ok, pure_eq_ok, Prod.mk.injEq] at h
  obtain ⟨-, -, -, -, -, -, ⟨s₁, chain⟩, -, -, rfl⟩ := h
  exact ⟨t, hl, held.claimedBy, ⟨hp, hready⟩, hr, hgate⟩

end Calls

inductive TaskCall where
  | claim (a : ClaimTaskArgs)
  | renew (a : RenewTaskArgs)
  | release (a : ReleaseTaskArgs)
  | announce (a : AnnounceWorkArgs)
  | workboard
  | touchPresence
  | clearPresence
  | requestReview (a : RequestReviewArgs)
  | submitReview (a : SubmitReviewArgs)
  | recordProof (a : RecordProofArgs)
  | complete (a : CompleteTaskArgs)
  -- the closing transaction alone, whatever was read before it
  | close (taskId leaseToken : String) (x : Inspection)
  | edit (path : String) (file : Option FileState)

inductive TaskReply where
  | done
  | reviewed (row : PeerReviewRow)
  | completed (x : TaskClosure)

def TaskReply.verdict : TaskReply → Option PeerReviewRow
  | .reviewed row => some row
  | _ => none

structure Desk where
  store : TaskStore
  files : Files
  now : ℚ

def Files.edit (files : Files) (path : String) (file : Option FileState) : Files :=
  fun p => if p = path then file else files p

def boardReply {α : Type} (f : α → TaskReply) (x : Except BridgeError (TaskStore × α)) :
    Except BridgeError (TaskStore × TaskReply) := do
  let (s, a) ← x
  pure (s, f a)

def performTask (P : Platform) (c : TaskCtx) (files : Files) (s : TaskStore) :
    TaskCall → Except BridgeError (TaskStore × TaskReply)
  | .claim a => boardReply (fun _ => .done) <| claimTask P c a s
  | .renew a => boardReply (fun _ => .done) <| renewTask P c a s
  | .release a => boardReply (fun _ => .done) <| releaseTask P c a s
  | .announce a => boardReply (fun _ => .done) <| announceWork P c a s
  | .workboard => do
    let s ← workboard P c s
    pure (s, .done)
  | .touchPresence => pure (touchPresence c s, .done)
  | .clearPresence => pure (clearPresence c s, .done)
  | .requestReview a => boardReply (fun _ => .done) <| requestReview P c a s
  | .submitReview a => boardReply .reviewed <| submitReview P c a s
  | .recordProof a => boardReply (fun _ => .done) <| recordProof P c files a s
  | .complete a => boardReply .completed <| completeTask P c files a s
  | .close taskId leaseToken x => boardReply (fun _ => .done) <|
      closeTask P c files taskId leaseToken x s
  | .edit _ _ => pure (s, .done)

def TaskCall.filesAfter (files : Files) : TaskCall → Files
  | .edit path file => files.edit path file
  | _ => files

def attemptTask (P : Platform) (d : Desk) (i : TaskCall × TaskCtx) :
    Desk × Except BridgeError TaskReply :=
  match performTask P i.2 d.files d.store i.1 with
  | .ok (s, r) => ({ store := s, files := i.1.filesAfter d.files, now := i.2.clock.later }, .ok r)
  | .error e => ({ d with now := i.2.clock.later }, .error e)

def taskBoard (P : Platform) : Machine Desk (TaskCall × TaskCtx) (Except BridgeError TaskReply) where
  start d := d.store = .empty
  admits d i := d.now ≤ i.2.clock.locked ∧ i.2.clock.entry ≤ i.2.clock.locked ∧
    i.2.clock.locked ≤ i.2.clock.later
  exec := attemptTask P

instance (P : Platform) (d : Desk) (i : TaskCall × TaskCtx) : Decidable ((taskBoard P).admits d i) :=
  inferInstanceAs (Decidable (_ ∧ _ ∧ _))

section Steps
variable {P : Platform} {c : TaskCtx} {files : Files} {s s' : TaskStore} {d : Desk}

theorem boardReply_ok {α : Type} {f : α → TaskReply} {x : Except BridgeError (TaskStore × α)}
    {r : TaskReply} (h : boardReply f x = .ok (s, r)) : ∃ a, x = .ok (s, a) ∧ r = f a := by
  simp only [boardReply, bind_eq_ok, pure_eq_ok, Prod.mk.injEq] at h
  obtain ⟨⟨s₁, a⟩, hx, rfl, rfl⟩ := h
  exact ⟨a, hx, rfl⟩

theorem performTask_step {call : TaskCall} {r : TaskReply}
    (hnd : (s.tasks.map TaskRow.key).Nodup) (h : performTask P c files s call = .ok (s', r)) :
    s' = s ∨ BoardStep P c files s s' := by
  cases call <;> simp only [performTask] at h
  case claim a =>
    obtain ⟨g, hx, -⟩ := boardReply_ok h
    obtain ⟨s₁, p, -, hc⟩ := claimTask_ok hnd hx
    exact .inr (.claim s₁ p hc)
  case renew a =>
    obtain ⟨e, hx, -⟩ := boardReply_ok h
    exact .inr (.retask (renewTask_ok hx))
  case release a =>
    obtain ⟨st, hx, -⟩ := boardReply_ok h
    exact .inr (.retask (releaseTask_ok hx))
  case announce a =>
    obtain ⟨u, hx, -⟩ := boardReply_ok h
    exact .inr (.retask (announceWork_ok hx))
  case workboard =>
    simp only [bind_eq_ok, pure_eq_ok, Prod.mk.injEq] at h
    obtain ⟨s₁, hx, rfl, -⟩ := h
    exact .inr (.lapse (expireLeases_lapsed hnd hx))
  case touchPresence =>
    simp only [pure_eq_ok, Prod.mk.injEq] at h
    exact .inr (.presence _ h.1.symm)
  case clearPresence =>
    simp only [pure_eq_ok, Prod.mk.injEq] at h
    exact .inr (.presence _ h.1.symm)
  case requestReview a =>
    obtain ⟨row, hx, -⟩ := boardReply_ok h
    exact .inr (.request (requestReview_ok hx))
  case submitReview a =>
    obtain ⟨row, hx, -⟩ := boardReply_ok h
    obtain ⟨t, ht, hr, hs⟩ := submitReview_ok hx
    exact .inr (.review t row ht hr hs)
  case recordProof a =>
    obtain ⟨row, hx, -⟩ := boardReply_ok h
    obtain ⟨t, token, ht, held, hp, hs⟩ := recordProof_ok hx
    exact .inr (.prove t token row ht held hp hs)
  case complete a =>
    obtain ⟨x, hx, -⟩ := boardReply_ok h
    exact .inr (.retask (completeTask_ok hx).1)
  case close taskId token x =>
    obtain ⟨y, hx, -⟩ := boardReply_ok h
    exact .inr (.retask (closeTask_ok hx))
  case edit path file =>
    simp only [pure_eq_ok, Prod.mk.injEq] at h
    exact .inl h.1.symm

theorem performTask_reviews {call : TaskCall} {r : TaskReply}
    (hnd : (s.tasks.map TaskRow.key).Nodup) (h : performTask P c files s call = .ok (s', r)) :
    s'.reviews = s.reviews ++ r.verdict.toList := by
  have same (hs : s'.reviews = s.reviews) (hr : r.verdict = none) :
      s'.reviews = s.reviews ++ r.verdict.toList := by rw [hs, hr]; simp
  have retask (hs : Retasks P c s s') : s'.reviews = s.reviews := by
    obtain ⟨-, -, -, -, -, -, -, -, rfl⟩ := hs
    rfl
  cases call <;> simp only [performTask] at h
  case claim a =>
    obtain ⟨g, hx, rfl⟩ := boardReply_ok h
    obtain ⟨s₁, p, -, hc⟩ := claimTask_ok hnd hx
    obtain ⟨log, rfl⟩ := hc.store_eq
    exact same (by rw [hc.lapsed.rest]; rfl) rfl
  case renew a =>
    obtain ⟨e, hx, rfl⟩ := boardReply_ok h
    exact same (retask (renewTask_ok hx)) rfl
  case release a =>
    obtain ⟨st, hx, rfl⟩ := boardReply_ok h
    exact same (retask (releaseTask_ok hx)) rfl
  case announce a =>
    obtain ⟨u, hx, rfl⟩ := boardReply_ok h
    exact same (retask (announceWork_ok hx)) rfl
  case workboard =>
    simp only [bind_eq_ok, pure_eq_ok, Prod.mk.injEq] at h
    obtain ⟨s₁, hx, rfl, rfl⟩ := h
    exact same (by rw [(expireLeases_lapsed hnd hx).rest]) rfl
  case touchPresence | clearPresence | edit =>
    simp only [pure_eq_ok, Prod.mk.injEq] at h
    obtain ⟨rfl, rfl⟩ := h
    exact same rfl rfl
  case requestReview a =>
    obtain ⟨row, hx, rfl⟩ := boardReply_ok h
    obtain ⟨_, _, _, _, _, _, _, _, hs⟩ := requestReview_ok hx
    exact same (by rw [hs]) rfl
  case submitReview a =>
    obtain ⟨row, hx, rfl⟩ := boardReply_ok h
    obtain ⟨t, -, -, -, -, -, rfl⟩ := submitReview_ok hx
    rfl
  case recordProof a =>
    obtain ⟨row, hx, rfl⟩ := boardReply_ok h
    obtain ⟨_, _, _, _, _, _, hs⟩ := recordProof_ok hx
    exact same (by rw [hs]) rfl
  case complete a =>
    obtain ⟨x, hx, rfl⟩ := boardReply_ok h
    exact same (retask (completeTask_ok hx).1) rfl
  case close taskId token x =>
    obtain ⟨y, hx, rfl⟩ := boardReply_ok h
    exact same (retask (closeTask_ok hx)) rfl

theorem exec_store (i : TaskCall × TaskCtx) (hnd : (d.store.tasks.map TaskRow.key).Nodup) :
    ((taskBoard P).exec d i).1.store = d.store ∨
      BoardStep P i.2 d.files d.store ((taskBoard P).exec d i).1.store := by
  simp only [taskBoard, attemptTask]
  split
  · rename_i hp
    exact performTask_step hnd hp
  · exact .inl rfl

theorem exec_now (i : TaskCall × TaskCtx) : ((taskBoard P).exec d i).1.now = i.2.clock.later := by
  simp only [taskBoard, attemptTask]
  split <;> rfl

end Steps

-- a project directory without links and protected paths
def sampleSite : Site :=
  { workspaceRootKey := "root", normalizePath := .ok, isProtected := fun _ => false,
    cleanArtifacts := .ok, dumps := fun _ => "[]", presenceTtlSeconds := 60 }

def sampleTaskCtx (b : Bridge) (second : Nat) : TaskCtx :=
  { toCtx := sampleCtx b second, site := sampleSite }

def tokenOf (second : Nat) : String := "token-" ++ toString second

def sampleDesk : Desk := { store := .empty, files := fun _ => none, now := 0 }

end PeerBridge
