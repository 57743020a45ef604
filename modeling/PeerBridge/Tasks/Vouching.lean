import PeerBridge.Lib.History
import PeerBridge.Tasks.Drift

namespace PeerBridge
open Checked Rows

-- a review beside the files its author could look at
abbrev Sight := PeerReviewRow × Files

def sightOf (d : Desk) (_ : TaskCall × TaskCtx) (reply : Except BridgeError TaskReply) :
    List Sight :=
  match reply with
  | .ok r => r.verdict.toList.map (fun row => (row, d.files))
  | .error _ => []

def watchedBoard (P : Platform) :
    Machine (Desk × List Sight) (TaskCall × TaskCtx) (Except BridgeError TaskReply) :=
  (taskBoard P).logging sightOf

def hashAt (files : Files) (path : String) : Option Sha256 := (files path).map FileState.sha256

-- every changed file of the record has the recorded content
def IntegrationRow.Matches (r : IntegrationRow) (files : Files) : Prop :=
  ∀ x ∈ r.afterHashes, hashAt files x.1 = some x.2

instance (r : IntegrationRow) (files : Files) : Decidable (r.Matches files) :=
  inferInstanceAs (Decidable (∀ x ∈ r.afterHashes, _))

def SawSameFiles (w : Desk × List Sight) (t : TaskRow) (reviewer : String) : Prop :=
  ∃ x ∈ w.2, x.1.Approves t ∧ x.1.reviewer = reviewer ∧
    ∀ r ∈ w.1.store.recordsOf t.scope t.taskId, ∀ y ∈ r.afterHashes,
      hashAt x.2 y.1 = hashAt w.1.files y.1

def SawRecordedFiles (w : Desk × List Sight) (t : TaskRow) (reviewer : String) : Prop :=
  ∃ x ∈ w.2, x.1.Approves t ∧ x.1.reviewer = reviewer ∧
    ∀ r ∈ w.1.store.recordsOf t.scope t.taskId, r.Matches x.2

-- approvals of the task are given on the files its proofs bind, and its proofs bind the files
-- the standing approvals were given on
def ReviewsBind (key : String × String) (w : Desk × List Sight) (i : TaskCall × TaskCtx) : Prop :=
  match i.1 with
  | .submitReview a => Verdict.parse? (lower a.verdict) = some .approved →
      ∀ q ∈ w.1.store.calls, q.requestId = strip a.requestId → (q.scope, q.taskId) = key →
        ∀ r ∈ w.1.store.recordsOf key.1 key.2, r.Matches w.1.files
  | .recordProof a => (i.2.self.scope, strip a.taskId) = key →
      ∀ paths ∈ (a.changedPaths.mapM i.2.site.normalizePath).toOption,
        ∀ t ∈ w.1.store.task? key.1 key.2, ∀ x ∈ w.2, x.1.Approves t →
          ∀ p ∈ paths, hashAt x.2 p = hashAt w.1.files p
  | _ => True

instance (key : String × String) (w : Desk × List Sight) : ∀ i, Decidable (ReviewsBind key w i)
  | (.submitReview _, _) => inferInstanceAs (Decidable (_ → ∀ q ∈ w.1.store.calls, _ → _ →
      ∀ r ∈ w.1.store.recordsOf key.1 key.2, _))
  | (.recordProof a, c) => inferInstanceAs (Decidable (_ →
      ∀ paths ∈ (a.changedPaths.mapM c.site.normalizePath).toOption,
        ∀ t ∈ w.1.store.task? key.1 key.2, ∀ x ∈ w.2, _ → ∀ p ∈ paths, _))
  | (.claim _, _) | (.renew _, _) | (.release _, _) | (.announce _, _) | (.workboard, _)
  | (.touchPresence, _) | (.clearPresence, _) | (.requestReview _, _) | (.complete _, _)
  | (.close _ _ _, _) | (.edit _ _, _) => isTrue trivial

structure TaskStore.Dated (s : TaskStore) : Prop where
  gated : s.Gated
  reviewed : ∀ r ∈ s.reviews, ∃ t, s.task? r.scope r.taskId = some t ∧
    r.taskRevision ≤ t.taskRevision
  coherent : ∀ r ∈ s.records, ∀ x ∈ r.afterHashes, ∀ y ∈ r.evidenceHashes, x.1 = y.1 → x.2 = y.2

section Records
variable {P : Platform} {c : TaskCtx} {files : Files} {s s' s₁ : TaskStore} {t t' : TaskRow}

theorem recordProof_bound {a : RecordProofArgs} {row : IntegrationRow}
    (h : recordProof P c files a s = .ok (s', row)) :
    row.scope = c.self.scope ∧ row.taskId = strip a.taskId ∧
      (∃ paths, a.changedPaths.mapM c.site.normalizePath = .ok paths ∧
        ∀ x ∈ row.afterHashes, x.1 ∈ paths ∧ hashAt files x.1 = some x.2) ∧
      ∀ x ∈ row.evidenceHashes, hashAt files x.1 = some x.2 := by
  simp only [recordProof, prepareProof, bind_eq_ok, pure_eq_ok] at h
  obtain ⟨d, ⟨d₀, hd₀, _, _, _, _, hashed, hhash, hd⟩, hcommit⟩ := h
  subst hd
  have hall := (hashProofFiles_ok hhash).2
  simp only [cleanProof, bind_eq_ok, pure_eq_ok] at hd₀
  obtain ⟨id, hid, _, _, _, _, paths, hpaths, _, _, _, _, _, _, _, _, _, _, _, _, rfl⟩ := hd₀
  obtain ⟨rfl, -⟩ := requireIdentifier_ok hid
  simp only [commitProof, bind_eq_ok, pure_eq_ok, Prod.mk.injEq] at hcommit
  obtain ⟨u, -, -, -, -, -, -, -, ⟨s₁, chain⟩, -, -, rfl⟩ := hcommit
  exact ⟨rfl, rfl, ⟨paths, hpaths, fun x hx => ProofDraft.mem_hashes hall hx⟩,
    fun x hx => (ProofDraft.mem_hashes hall hx).2⟩

-- the row of a task only changes content with its revision
def Advanced (t t' : TaskRow) : Prop :=
  (t'.taskRevision = t.taskRevision ∧ t'.taskSha256 = t.taskSha256) ∨
    t.taskRevision < t'.taskRevision

theorem Lapsed.advanced {c : Ctx} {k : String × String} (h : Lapsed c s s')
    (ht : s.task? k.1 k.2 = some t) :
    ∃ t', s'.task? k.1 k.2 = some t' ∧ t'.taskRevision = t.taskRevision ∧
      t'.taskSha256 = t.taskSha256 := by
  rcases h.row k with he | ⟨u, hu, -, he⟩
  · exact ⟨t, he.trans ht, rfl, rfl⟩
  · obtain rfl := Option.some.inj (hu.symm.trans ht)
    exact ⟨_, he, rfl, rfl⟩

theorem claim_advanced {p : TaskPlan} {k : String × String} (h : Claims P c s s₁ s' p)
    (ht : s.task? k.1 k.2 = some t) : ∃ t', s'.task? k.1 k.2 = some t' ∧ Advanced t t' := by
  obtain ⟨u, hu, hrev, hsha⟩ := h.lapsed.advanced ht
  obtain ⟨log, rfl⟩ := h.store_eq
  change ∃ t', (s₁.putTask (claimedTask P c p (s₁.task? c.self.scope p.taskId))).task? k.1 k.2 =
    some t' ∧ Advanced t t'
  rw [TaskStore.task?_putTask]
  split
  · rename_i hk
    have hfound : s₁.task? c.self.scope p.taskId = some u := by
      rw [← hk] at hu
      exact hu
    refine ⟨_, rfl, ?_⟩
    rw [hfound]
    simp only [Advanced, claimedTask, Option.elim_some, ← hrev, ← hsha]
    split
    · rename_i he
      exact .inl ⟨rfl, he.symm⟩
    · exact .inr (Nat.lt_succ_self _)
  · exact ⟨u, hu, .inl ⟨hrev, hsha⟩⟩

theorem retask_advanced {k : String × String} (h : Retasks P c s s')
    (ht : s.task? k.1 k.2 = some t) : ∃ t', s'.task? k.1 k.2 = some t' ∧ Advanced t t' := by
  obtain ⟨u, u', token, hu, -, hstep, updates, a, rfl⟩ := h
  obtain ⟨hkey, -⟩ := hstep.gate
  change ∃ t', (s.putTask u').task? k.1 k.2 = some t' ∧ Advanced t t'
  rw [TaskStore.task?_putTask]
  split
  · rename_i hk
    have huk : u.key = (c.self.scope, u.taskId) := lookup_key hu
    have hsame : s.task? k.1 k.2 = some u := by
      rw [← hk, hkey, huk]
      exact hu
    obtain rfl := Option.some.inj (ht.symm.trans hsame)
    exact ⟨u', rfl, .inl hstep.content⟩
  · exact ⟨t, ht, .inl ⟨rfl, rfl⟩⟩

theorem BoardStep.advanced {k : String × String} (h : BoardStep P c files s s')
    (ht : s.task? k.1 k.2 = some t) : ∃ t', s'.task? k.1 k.2 = some t' ∧ Advanced t t' := by
  cases h with
  | lapse hl =>
    obtain ⟨t', ht', hsame⟩ := hl.advanced ht
    exact ⟨t', ht', .inl hsame⟩
  | claim s₁ p hc => exact claim_advanced hc ht
  | retask hr => exact retask_advanced hr ht
  | presence rows he =>
    subst he
    exact ⟨t, ht, .inl ⟨rfl, rfl⟩⟩
  | request hr =>
    obtain ⟨-, -, -, -, -, -, -, -, rfl⟩ := hr
    exact ⟨t, ht, .inl ⟨rfl, rfl⟩⟩
  | review u row _ _ he =>
    obtain ⟨-, -, -, rfl⟩ := he
    exact ⟨t, ht, .inl ⟨rfl, rfl⟩⟩
  | prove u token row _ _ _ he =>
    obtain ⟨-, rfl⟩ := he
    exact ⟨t, ht, .inl ⟨rfl, rfl⟩⟩

theorem Advanced.le (h : Advanced t t') : t.taskRevision ≤ t'.taskRevision :=
  h.elim (fun h => h.1.ge) Nat.le_of_lt

theorem approves_back {r : PeerReviewRow} {k : String × String} (hs : s.Dated)
    (h : BoardStep P c files s s') (hr : r ∈ s.reviews) (ht : s'.task? k.1 k.2 = some t')
    (happ : r.Approves t') : ∃ t, s.task? k.1 k.2 = some t ∧ r.Approves t := by
  obtain ⟨t, hold, hle⟩ := hs.reviewed r hr
  have hk' : t'.key = k := lookup_key ht
  have hkr : (r.scope, r.taskId) = k := by
    rw [happ.scope_eq, happ.task_eq]
    exact hk'
  have hold' : s.task? k.1 k.2 = some t := by
    rw [← hkr]
    exact hold
  have hk : t.key = k := lookup_key hold'
  obtain ⟨u, hu, hadv⟩ := h.advanced hold'
  obtain rfl := Option.some.inj (hu.symm.trans ht)
  have hscope : t.scope = u.scope := congrArg Prod.fst (hk.trans hk'.symm)
  have htask : t.taskId = u.taskId := congrArg Prod.snd (hk.trans hk'.symm)
  rcases hadv with ⟨hrev, hsha⟩ | hlt
  · exact ⟨t, hold', happ.scope_eq.trans hscope.symm, happ.task_eq.trans htask.symm,
      happ.revision_eq.trans hrev, happ.sha_eq.trans hsha, happ.verdict_eq⟩
  · have := happ.revision_eq
    omega

theorem performTask_records {call : TaskCall} {r : TaskReply}
    (hnd : (s.tasks.map TaskRow.key).Nodup) (h : performTask P c files s call = .ok (s', r)) :
    s'.records = s.records ∨ ∃ a row, call = .recordProof a ∧ r.verdict = none ∧
      recordProof P c files a s = .ok (s', row) ∧ s'.records = s.records ++ [row] := by
  by_cases hc : ∃ a, call = .recordProof a
  · obtain ⟨a, rfl⟩ := hc
    simp only [performTask] at h
    obtain ⟨row, hx, rfl⟩ := boardReply_ok h
    obtain ⟨_, _, _, _, _, _, hs⟩ := recordProof_ok hx
    exact .inr ⟨a, row, rfl, rfl, hx, by rw [hs]⟩
  · refine .inl ?_
    have retask (hs : Retasks P c s s') : s'.records = s.records := by
      obtain ⟨-, -, -, -, -, -, -, -, rfl⟩ := hs
      rfl
    cases call <;> simp only [performTask] at h
    case claim a =>
      obtain ⟨g, hx, -⟩ := boardReply_ok h
      obtain ⟨s₁, p, -, hclaim⟩ := claimTask_ok hnd hx
      obtain ⟨log, rfl⟩ := hclaim.store_eq
      change s₁.records = s.records
      rw [hclaim.lapsed.rest]
    case renew a =>
      obtain ⟨e, hx, -⟩ := boardReply_ok h
      exact retask (renewTask_ok hx)
    case release a =>
      obtain ⟨st, hx, -⟩ := boardReply_ok h
      exact retask (releaseTask_ok hx)
    case announce a =>
      obtain ⟨u, hx, -⟩ := boardReply_ok h
      exact retask (announceWork_ok hx)
    case workboard =>
      simp only [bind_eq_ok, pure_eq_ok, Prod.mk.injEq] at h
      obtain ⟨s₁, hx, rfl, -⟩ := h
      rw [(expireLeases_lapsed hnd hx).rest]
    case touchPresence | clearPresence | edit =>
      simp only [pure_eq_ok, Prod.mk.injEq] at h
      obtain ⟨rfl, -⟩ := h
      rfl
    case requestReview a =>
      obtain ⟨row, hx, -⟩ := boardReply_ok h
      obtain ⟨-, -, -, -, -, -, -, -, rfl⟩ := requestReview_ok hx
      rfl
    case submitReview a =>
      obtain ⟨row, hx, -⟩ := boardReply_ok h
      obtain ⟨-, -, -, -, -, -, rfl⟩ := submitReview_ok hx
      rfl
    case recordProof a => exact (hc ⟨a, rfl⟩).elim
    case complete a =>
      obtain ⟨x, hx, -⟩ := boardReply_ok h
      exact retask (completeTask_ok hx).1
    case close taskId token x =>
      obtain ⟨y, hx, -⟩ := boardReply_ok h
      exact retask (closeTask_ok hx)

theorem performTask_verdict {call : TaskCall} {r : TaskReply} {row : PeerReviewRow}
    (h : performTask P c files s call = .ok (s', r)) (hr : r.verdict = some row) :
    ∃ a, call = .submitReview a ∧ submitReview P c a s = .ok (s', row) := by
  cases call <;> simp only [performTask] at h
  case submitReview a =>
    obtain ⟨row', hx, rfl⟩ := boardReply_ok h
    obtain rfl : row' = row := Option.some.inj hr
    exact ⟨a, rfl, hx⟩
  case workboard =>
    simp only [bind_eq_ok, pure_eq_ok, Prod.mk.injEq] at h
    obtain ⟨-, -, -, rfl⟩ := h
    cases hr
  case touchPresence | clearPresence | edit =>
    simp only [pure_eq_ok, Prod.mk.injEq] at h
    obtain ⟨-, rfl⟩ := h
    cases hr
  all_goals
    obtain ⟨_, -, he⟩ := boardReply_ok h
    rw [he] at hr
    cases hr

theorem performTask_dated {call : TaskCall} {r : TaskReply}
    (h : performTask P c files s call = .ok (s', r)) (hs : s.Dated) : s'.Dated := by
  rcases performTask_step hs.gated.keys h with rfl | hstep
  · exact hs
  refine ⟨hstep.gated hs.gated, fun q hq => ?_, fun q hq => ?_⟩
  · rw [performTask_reviews hs.gated.keys h, List.mem_append, Option.mem_toList] at hq
    obtain ⟨t, ht, hle⟩ : ∃ t, s.task? q.scope q.taskId = some t ∧
        q.taskRevision ≤ t.taskRevision := by
      rcases hq with hq | hq
      · exact hs.reviewed q hq
      · obtain ⟨a, -, hx⟩ := performTask_verdict h hq
        obtain ⟨t, ht, hrow, -⟩ := submitReview_ok hx
        obtain ⟨hscope, -⟩ := task?_key ht
        refine ⟨t, ?_, hrow.revision_eq.le⟩
        rw [hrow.scope_eq, hrow.task_eq, hscope]
        exact ht
    obtain ⟨t', ht', hadv⟩ := hstep.advanced (k := (q.scope, q.taskId)) ht
    exact ⟨t', ht', hle.trans hadv.le⟩
  · rcases performTask_records hs.gated.keys h with he | ⟨a, row, -, -, hx, he⟩
    · exact hs.coherent q (he ▸ hq)
    · rw [he] at hq
      rcases List.mem_append.mp hq with hq | hq
      · exact hs.coherent q hq
      · obtain rfl := List.mem_singleton.mp hq
        obtain ⟨-, -, ⟨paths, -, hafter⟩, hevidence⟩ := recordProof_bound hx
        intro x hx y hy hxy
        have hx' := (hafter x hx).2
        rw [hxy, hevidence y hy] at hx'
        exact (Option.some.inj hx').symm

theorem reachable_dated {d : Desk} (h : (taskBoard P).Reachable d) : d.store.Dated := by
  refine h.invariant (fun d => d.store.Dated) (fun d hd => ?_) fun d i hd _ => ?_
  · have hstart : (taskBoard P).Reachable d := ⟨d, [], hd, .nil d⟩
    have hempty : d.store = .empty := hd
    refine ⟨reachable_gated hstart, ?_, ?_⟩
    all_goals
      rw [hempty]
      exact fun r hr => (List.not_mem_nil hr).elim
  · change (attemptTask P d i).1.store.Dated
    unfold attemptTask
    split
    · rename_i hp
      exact performTask_dated hp hd
    · exact hd

end Records

section Watching
variable {P : Platform} {c : TaskCtx} {w : Desk × List Sight} {t : TaskRow}
  {k : String × String} {done : TaskClosure}

structure Logged (w : Desk × List Sight) : Prop where
  dated : w.1.store.Dated
  seen : ∀ r ∈ w.1.store.reviews, ∃ files, (r, files) ∈ w.2
  rows : ∀ x ∈ w.2, x.1 ∈ w.1.store.reviews

theorem exec_dated (i : TaskCall × TaskCtx) (h : w.1.store.Dated) :
    ((watchedBoard P).exec w i).1.1.store.Dated := by
  change (attemptTask P w.1 i).1.store.Dated
  unfold attemptTask
  split
  · rename_i hp
    exact performTask_dated hp h
  · exact h

theorem sightOf_eq (d : Desk) (i : TaskCall × TaskCtx) (reply : Except BridgeError TaskReply) :
    sightOf d i reply = (submittedReview (i, reply)).toList.map (fun row => (row, d.files)) := by
  cases reply <;> rfl

theorem exec_logged (i : TaskCall × TaskCtx) (h : Logged w) :
    Logged ((watchedBoard P).exec w i).1 := by
  have hrev := exec_reviews (P := P) i h.dated.gated.keys
  have hlog : ((watchedBoard P).exec w i).1.2 =
      w.2 ++ (submittedReview (i, ((taskBoard P).exec w.1 i).2)).toList.map
        (fun row => (row, w.1.files)) := congrArg (w.2 ++ ·) (sightOf_eq _ _ _)
  refine ⟨exec_dated i h.dated, fun r hr => ?_, fun x hx => ?_⟩
  · change r ∈ ((taskBoard P).exec w.1 i).1.store.reviews at hr
    rw [hrev] at hr
    rw [hlog]
    rcases List.mem_append.mp hr with hr | hr
    · obtain ⟨files, hf⟩ := h.seen r hr
      exact ⟨files, List.mem_append_left _ hf⟩
    · exact ⟨w.1.files, List.mem_append_right _ (List.mem_map.mpr ⟨r, hr, rfl⟩)⟩
  · change x.1 ∈ ((taskBoard P).exec w.1 i).1.store.reviews
    rw [hrev]
    rw [hlog] at hx
    rcases List.mem_append.mp hx with hx | hx
    · exact List.mem_append_left _ (h.rows x hx)
    · obtain ⟨row, hrow, rfl⟩ := List.mem_map.mp hx
      exact List.mem_append_right _ hrow

theorem watched_logged (h : (watchedBoard P).Reachable w) : Logged w := by
  refine h.invariant Logged (fun w hw => ?_) fun w i hw _ => exec_logged i hw
  obtain ⟨hd, hlog⟩ := hw
  have hstart : (taskBoard P).Reachable w.1 := ⟨w.1, [], hd, .nil w.1⟩
  have hempty : w.1.store = .empty := hd
  refine ⟨reachable_dated hstart, ?_, ?_⟩
  · rw [hempty]
    exact fun r hr => (List.not_mem_nil hr).elim
  · rw [hlog]
    exact fun x hx => (List.not_mem_nil hx).elim

-- what a completed task binds is on the disk
theorem CompletesTask.matches (h : CompletesTask P c w.1 t done) (hs : w.1.store.Dated) :
    ∀ r ∈ w.1.store.recordsOf t.scope t.taskId, r.Matches w.1.files := by
  obtain ⟨a, s', hcall, ht⟩ := h.call
  obtain ⟨hscope, htask⟩ := task?_key ht
  simp only [completeTask, bind_eq_ok] at hcall
  obtain ⟨id, hid, x, hx, -⟩ := hcall
  obtain ⟨rfl, -⟩ := requireIdentifier_ok hid
  simp only [inspectTask, bind_eq_ok, require_eq_ok] at hx
  obtain ⟨-, -, proof, hproof, -, hready, -⟩ := hx
  obtain ⟨hashed, hh, rfl⟩ := proofsAreLive_ok.mp hproof
  rw [hscope, htask]
  intro r hr y hy
  have hdrift : (proofCheck hashed r).drift = [] := by
    simp only [Bool.and_eq_true, List.all_eq_true, List.forall_mem_map, List.isEmpty_iff] at hready
    exact (hready.2 r hr).1
  have hcurrent := (drift_nil_iff hr (hashBound_lookup hh).2).mp hdrift
  by_cases hev : y.1 ∈ r.evidenceHashes.map Prod.fst
  · obtain ⟨z, hz, hzy⟩ := List.mem_map.mp hev
    have hsame := hs.coherent r (List.mem_filter.mp hr).1 y hy z hz hzy.symm
    rw [hashAt, ← hzy, hsame]
    exact hcurrent z (List.mem_append_right _ hz)
  · exact hcurrent y (List.mem_append_left _ (List.mem_filter.mpr ⟨hy, by simpa using hev⟩))

theorem CompletesTask.saw_iff (h : CompletesTask P c w.1 t done) (hs : w.1.store.Dated)
    (a : String) : SawSameFiles w t a ↔ SawRecordedFiles w t a := by
  have hlive := h.matches hs
  refine exists_congr fun x => and_congr_right fun _ => and_congr_right fun _ =>
    and_congr_right fun _ => forall₂_congr fun r hr => forall₂_congr fun y hy => ?_
  rw [hlive r hr y hy]

-- every standing approval of the task was given on what its proofs bind
def ApprovedOnRecord (k : String × String) (w : Desk × List Sight) : Prop :=
  ∀ t, w.1.store.task? k.1 k.2 = some t → ∀ x ∈ w.2, x.1.Approves t →
    ∀ r ∈ w.1.store.recordsOf k.1 k.2, r.Matches x.2

theorem recordsOf_key {s : TaskStore} {r : IntegrationRow} (h : r ∈ s.recordsOf k.1 k.2) :
    r ∈ s.records ∧ (r.scope, r.taskId) = k := by
  obtain ⟨hr, hk⟩ := List.mem_filter.mp h
  simp only [Bool.decide_and, Bool.and_eq_true, decide_eq_true_eq] at hk
  exact ⟨hr, Prod.ext hk.1 hk.2⟩

theorem performTask_onRecord {call : TaskCall} {s' : TaskStore} {reply : TaskReply}
    (h : performTask P c w.1.files w.1.store call = .ok (s', reply)) (hw : Logged w)
    (hguard : ReviewsBind k w (call, c)) (hk : ApprovedOnRecord k w) {t' : TaskRow}
    (ht : s'.task? k.1 k.2 = some t') {x : Sight}
    (hx : x ∈ w.2 ++ reply.verdict.toList.map (fun row => (row, w.1.files)))
    (happ : x.1.Approves t') {r : IntegrationRow} (hr : r ∈ s'.recordsOf k.1 k.2) :
    r.Matches x.2 := by
  have hkeys := hw.dated.gated.keys
  obtain ⟨hrow, hrk⟩ := recordsOf_key hr
  have htk : t'.key = k := lookup_key ht
  rcases List.mem_append.mp hx with hx | hx
  · obtain ⟨t, hold, happ'⟩ : ∃ t, w.1.store.task? k.1 k.2 = some t ∧ x.1.Approves t := by
      rcases performTask_step hkeys h with rfl | hstep
      · exact ⟨t', ht, happ⟩
      · exact approves_back hw.dated hstep (hw.rows x hx) ht happ
    rcases performTask_records hkeys h with he | ⟨a, row, rfl, -, hrec, he⟩
    · rw [TaskStore.recordsOf, he] at hr
      exact hk t hold x hx happ' r hr
    · rw [he] at hrow
      rcases List.mem_append.mp hrow with hrow | hrow
      · refine hk t hold x hx happ' r (List.mem_filter.mpr ⟨hrow, ?_⟩)
        exact (List.mem_filter.mp hr).2
      · obtain rfl := List.mem_singleton.mp hrow
        obtain ⟨hscope, htask, ⟨paths, hpaths, hafter⟩, -⟩ := recordProof_bound hrec
        intro y hy
        obtain ⟨hmem, hnow⟩ := hafter y hy
        rw [← hnow]
        refine hguard ?_ paths (by rw [hpaths]; rfl) t hold x hx happ' y.1 hmem
        rw [← hrk, hscope, htask]
  · obtain ⟨row, hv, rfl⟩ := List.mem_map.mp hx
    obtain ⟨a, rfl, hsub⟩ := performTask_verdict h (Option.mem_toList.mp hv)
    have hrecords : s'.records = w.1.store.records := by
      rcases performTask_records hkeys h with he | ⟨_, _, hc, -⟩
      · exact he
      · cases hc
    obtain ⟨hscope, hverdict, q, hq, hqs, hqid, hqt⟩ := submitReview_call hsub
    rw [TaskStore.recordsOf, hrecords] at hr
    refine hguard (by rw [hverdict, happ.verdict_eq]) q hq hqid ?_ r hr
    rw [hqs, ← hscope, ← hqt, happ.scope_eq, happ.task_eq]
    exact htk

theorem exec_onRecord (i : TaskCall × TaskCtx) (hw : Logged w) (hguard : ReviewsBind k w i)
    (hk : ApprovedOnRecord k w) : ApprovedOnRecord k ((watchedBoard P).exec w i).1 := by
  intro t ht x hx happ r hr
  change (attemptTask P w.1 i).1.store.task? k.1 k.2 = some t at ht
  change r ∈ (attemptTask P w.1 i).1.store.recordsOf k.1 k.2 at hr
  change x ∈ w.2 ++ sightOf w.1 i (attemptTask P w.1 i).2 at hx
  cases hp : performTask P i.2 w.1.files w.1.store i.1 with
  | error e =>
    simp only [attemptTask, hp, sightOf, List.append_nil] at ht hr hx
    exact hk t ht x hx happ r hr
  | ok y =>
    simp only [attemptTask, hp, sightOf] at ht hr hx
    exact performTask_onRecord hp hw hguard hk ht hx happ hr

theorem bound_onRecord (h : ((watchedBoard P).restrict (ReviewsBind k)).Reachable w) :
    ApprovedOnRecord k w := by
  have hstart (w : Desk × List Sight) (hw : (watchedBoard P).start w) :
      Logged w ∧ ApprovedOnRecord k w := by
    have hreach : (watchedBoard P).Reachable w := ⟨w, [], hw, .nil w⟩
    refine ⟨watched_logged hreach, fun t _ x hx => ?_⟩
    rw [hw.2] at hx
    cases hx
  have hstep (w : Desk × List Sight) (i : TaskCall × TaskCtx)
      (hw : Logged w ∧ ApprovedOnRecord k w) (hguard : ReviewsBind k w i) :
      Logged ((watchedBoard P).exec w i).1 ∧ ApprovedOnRecord k ((watchedBoard P).exec w i).1 :=
    ⟨exec_logged i hw.1, exec_onRecord i hw.1 hguard hw.2⟩
  have hinv := Machine.Reachable.invariant (M := (watchedBoard P).restrict (ReviewsBind k)) _
    hstart (fun w i hw ha => hstep w i hw ha.2) h
  exact hinv.2

theorem approvals_vouch_for :
    (∀ c w t done, (watchedBoard P).Reachable w → CompletesTask P c w.1 t done →
      ∀ a ∈ done.inspection.review.approvedReviewers,
        (SawSameFiles w t a ↔ SawRecordedFiles w t a)) ∧
    ∀ c w t done k, ((watchedBoard P).restrict (ReviewsBind k)).Reachable w →
      CompletesTask P c w.1 t done → t.key = k →
        ∀ a ∈ done.inspection.review.approvedReviewers, SawSameFiles w t a := by
  refine ⟨fun c w t done h hdone a _ => hdone.saw_iff (watched_logged h).dated a, ?_⟩
  rintro c w t done k h hdone rfl a ha
  have hlog := watched_logged h.of_restrict
  have hgates := hdone.gates
  rw [hgates.approved_eq] at ha
  obtain ⟨row, hrow, happ, rfl⟩ := hlog.dated.gated.mem_approvedReviewers.mp ha
  obtain ⟨files, hx⟩ := hlog.seen row hrow
  have htask : w.1.store.task? t.key.1 t.key.2 = some t := by
    rw [TaskRow.key, (task?_key hgates.task).1]
    exact hgates.task
  exact (hdone.saw_iff hlog.dated _).mpr ⟨(row, files), hx, happ, rfl,
    bound_onRecord h t htask (row, files) hx happ⟩

end Watching

theorem watched_covers {P : Platform} {d : Desk} :
    (taskBoard P).Reachable d ↔ ∃ log, (watchedBoard P).Reachable (d, log) :=
  ⟨fun h => h.logging, fun ⟨_, h⟩ => h.of_logging⟩

instance (P : Platform) (w : Desk × List Sight) (i : TaskCall × TaskCtx) :
    Decidable ((watchedBoard P).admits w i) :=
  inferInstanceAs (Decidable ((taskBoard P).admits w.1 i))

def recordChange (agentId : String) (claimed second : Nat)
    (safe : isIdentifier agentId = true := by
      first | exact isIdentifier_a | exact isIdentifier_b | decide) : TaskCall × TaskCtx :=
  onDesk agentId second (.recordProof
    { taskId := "one", leaseToken := tokenOf claimed, changeSummary := "c", tests := "t",
      changedPaths := ["src/x"], beforeHashes := [("src/x", none)] }) safe

def approvedChange : List (TaskCall × TaskCtx) :=
  [onDesk "a" 1 (.edit "src/x" (some (sampleFile 5))),
    onDesk "a" 2 (.claim
      { taskId := "one", summary := "s", writePaths := ["src"],
        approvalMode := "two_party_required" }),
    askReview "a" "b" 2 3, giveVerdict "b" .approved 3 4]

def freshApproval : List (TaskCall × TaskCtx) := approvedChange ++ [recordChange "a" 2 5]

-- the file changes after the approval and before the proof
def staleApproval : List (TaskCall × TaskCtx) :=
  approvedChange ++ [onDesk "a" 5 (.edit "src/x" (some (sampleFile 6))), recordChange "a" 2 6]

theorem completesTask_by {c : TaskCtx} {d : Desk} {a : CompleteTaskArgs} {reviewers : List String}
    (hdone : (completeTask samplePlatform c d.files a d.store).map
      (fun y => y.2.inspection.review.approvedReviewers) = .ok reviewers)
    (htask : (d.store.task? c.self.scope (strip a.taskId)).map
      (fun t => (t.approvalMode, t.key)) = some (.twoPartyRequired, ("demo", "one"))) :
    ∃ t done, CompletesTask samplePlatform c d t done ∧ t.key = ("demo", "one") ∧
      done.inspection.review.approvedReviewers = reviewers := by
  obtain ⟨t, ht, he⟩ := Option.map_eq_some_iff.mp htask
  simp only [Prod.mk.injEq] at he
  obtain ⟨x, hx, hr⟩ := ok_of_map hdone
  exact ⟨t, x.2, ⟨.inl he.1, a, x.1, hx, ht⟩, he.2, hr⟩

set_option maxRecDepth 100000 in
theorem staleApproval_completes :
    ∃ w t done, (watchedBoard samplePlatform).Reachable w ∧
      CompletesTask samplePlatform (sampleTaskCtx (sampleAgent "a") 7) w.1 t done ∧
      done.inspection.review.approvedReviewers = ["b"] ∧ t.key = ("demo", "one") ∧
      ∀ x ∈ w.2, ∃ r ∈ w.1.store.recordsOf "demo" "one", ∃ y ∈ r.afterHashes,
        hashAt x.2 y.1 ≠ hashAt w.1.files y.1 := by
  let M := watchedBoard samplePlatform
  let w := (M.play (sampleDesk, []) staleApproval).1
  have hcheck : M.AdmitsAll (sampleDesk, []) staleApproval ∧
      (completeTask samplePlatform (sampleTaskCtx (sampleAgent "a") 7) w.1.files (completion 2)
        w.1.store).map (fun y => y.2.inspection.review.approvedReviewers) = .ok ["b"] ∧
      (w.1.store.task? "demo" (strip "one")).map (fun t => (t.approvalMode, t.key)) =
        some (.twoPartyRequired, ("demo", "one")) ∧
      ∀ x ∈ w.2, ∃ r ∈ w.1.store.recordsOf "demo" "one", ∃ y ∈ r.afterHashes,
        hashAt x.2 y.1 ≠ hashAt w.1.files y.1 := by
    decide +kernel
  obtain ⟨hadm, hdone, htask, hseen⟩ := hcheck
  obtain ⟨t, done, hcompletes, hkey, hreviewers⟩ := completesTask_by hdone htask
  exact ⟨w, t, done, ⟨(sampleDesk, []), _, ⟨rfl, rfl⟩, Machine.run_play _ _ hadm⟩, hcompletes,
    hreviewers, hkey, hseen⟩

theorem stale_approval_counts :
    ∃ w t done, (watchedBoard samplePlatform).Reachable w ∧
      CompletesTask samplePlatform (sampleTaskCtx (sampleAgent "a") 7) w.1 t done ∧
      "b" ∈ done.inspection.review.approvedReviewers ∧ ¬SawSameFiles w t "b" := by
  obtain ⟨w, t, done, hreach, hdone, hreviewers, hkey, hseen⟩ := staleApproval_completes
  refine ⟨w, t, done, hreach, hdone, by rw [hreviewers]; exact List.mem_singleton_self _, ?_⟩
  rintro ⟨x, hx, -, -, hsame⟩
  obtain ⟨r, hr, y, hy, hne⟩ := hseen x hx
  obtain ⟨hscope, htask⟩ := Prod.mk.inj hkey
  rw [hscope, htask] at hsame
  exact hne (hsame r hr y hy)

set_option maxRecDepth 100000 in
theorem freshApproval_completes :
    let M := (watchedBoard samplePlatform).restrict (ReviewsBind ("demo", "one"))
    ∃ w t done, M.Reachable w ∧
      CompletesTask samplePlatform (sampleTaskCtx (sampleAgent "a") 7) w.1 t done ∧
      done.inspection.review.approvedReviewers = ["b"] ∧ t.key = ("demo", "one") := by
  intro M
  let w := (M.play (sampleDesk, []) freshApproval).1
  have hcheck : M.AdmitsAll (sampleDesk, []) freshApproval ∧
      (completeTask samplePlatform (sampleTaskCtx (sampleAgent "a") 7) w.1.files (completion 2)
        w.1.store).map (fun y => y.2.inspection.review.approvedReviewers) = .ok ["b"] ∧
      (w.1.store.task? "demo" (strip "one")).map (fun t => (t.approvalMode, t.key)) =
        some (.twoPartyRequired, ("demo", "one")) := by
    decide +kernel
  obtain ⟨hadm, hdone, htask⟩ := hcheck
  obtain ⟨t, done, hcompletes, hkey, hreviewers⟩ := completesTask_by hdone htask
  exact ⟨w, t, done, ⟨(sampleDesk, []), _, ⟨rfl, rfl⟩, Machine.run_play _ _ hadm⟩, hcompletes,
    hreviewers, hkey⟩

theorem approvals_vouch_for_runs :
    (∃ w t done, CompletesTask samplePlatform (sampleTaskCtx (sampleAgent "a") 7) w.1 t done ∧
      (SawSameFiles w t "b" ↔ SawRecordedFiles w t "b")) ∧
    ∃ w t done, CompletesTask samplePlatform (sampleTaskCtx (sampleAgent "a") 7) w.1 t done ∧
      SawSameFiles w t "b" := by
  obtain ⟨w, t, done, hreach, hdone, hreviewers, -⟩ := staleApproval_completes
  obtain ⟨w', t', done', hreach', hdone', hreviewers', hkey'⟩ := freshApproval_completes
  refine ⟨⟨w, t, done, hdone, approvals_vouch_for.1 _ w t done hreach hdone "b" ?_⟩,
    w', t', done', hdone', approvals_vouch_for.2 _ w' t' done' _ hreach' hdone' hkey' "b" ?_⟩
  · rw [hreviewers]
    exact List.mem_singleton_self _
  · rw [hreviewers']
    exact List.mem_singleton_self _

end PeerBridge
