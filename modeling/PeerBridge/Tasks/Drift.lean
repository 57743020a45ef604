import PeerBridge.Tasks.SelfApproval

namespace PeerBridge
open Checked Rows

-- the files one look at the proofs of a task hashes
def countedPaths (files : Files) (rows : List IntegrationRow) : List String :=
  ((boundPaths rows).filter (fun p => (files p).isSome)).eraseDups

def totalBytes (files : Files) (paths : List String) : Nat :=
  ((paths.filterMap files).map FileState.size).sum

structure Undrifted (files : Files) (rows : List IntegrationRow) : Prop where
  proved : rows ≠ []
  current : ∀ r ∈ rows, ∀ x ∈ r.expected, (files x.1).map FileState.sha256 = some x.2
  few : (countedPaths files rows).length ≤ maxProofFiles
  small : totalBytes files (countedPaths files rows) ≤ maxProofTotalBytes

def closurePayload (x : Inspection) : List (String × Json) :=
  [("proof_records", .arr (x.proof.checks.map (fun k => .sha k.recordSha256))),
    ("review_policy_reason", .str x.review.policyReason),
    ("approved_reviewers", .strs x.review.approvedReviewers)]

theorem ok_of_map {ε α β : Type} {f : α → β} {x : Except ε α} {b : β} (h : x.map f = .ok b) :
    ∃ a, x = .ok a ∧ f a = b := by
  cases x with
  | error e => cases h
  | ok a => exact ⟨a, rfl, Except.ok.inj h⟩

section Hashing
variable {files : Files} {paths : List String} {rows : List IntegrationRow}
  {hashed : List (String × FileState)}

theorem hashFrom_iff {n : Nat} (hn : n ≤ maxProofTotalBytes)
    (hex : ∀ p ∈ paths, (files p).isSome = true) :
    (∃ hashed, hashFrom files n paths = .ok hashed) ↔
      n + totalBytes files paths ≤ maxProofTotalBytes := by
  induction paths generalizing n with
  | nil => simp [hashFrom, totalBytes, hn]
  | cons path paths ih =>
    obtain ⟨f, hf⟩ := Option.isSome_iff_exists.mp (hex path List.mem_cons_self)
    have hsum : totalBytes files (path :: paths) = f.size + totalBytes files paths := by
      simp [totalBytes, hf]
    have hrest : ∀ p ∈ paths, (files p).isSome = true := fun p hp =>
      hex p (List.mem_cons_of_mem _ hp)
    simp only [hashFrom, bind_eq_ok, demand_eq_ok, require_eq_ok, pure_eq_ok, hsum]
    constructor
    · rintro ⟨_, g, hg, _, hle, ys, hys, -⟩
      obtain rfl := Option.some.inj (hf.symm.trans hg)
      have := (ih hle hrest).mp ⟨ys, hys⟩
      omega
    · intro hle
      have hle' : n + f.size ≤ maxProofTotalBytes := by omega
      obtain ⟨ys, hys⟩ := (ih hle' hrest).mpr (by omega)
      exact ⟨_, f, hf, (), hle', ys, hys, rfl⟩

-- what one look at the proofs of a task reads from the disk
def hashBound (files : Files) (rows : List IntegrationRow) :
    Except BridgeError (List (String × FileState)) :=
  let existing := (boundPaths rows).filter (fun p => (files p).isSome)
  if existing = [] then pure [] else hashProofFiles files existing

theorem hashBound_iff : (∃ hashed, hashBound files rows = .ok hashed) ↔
    (countedPaths files rows).length ≤ maxProofFiles ∧
      totalBytes files (countedPaths files rows) ≤ maxProofTotalBytes := by
  unfold hashBound countedPaths
  generalize hex : (boundPaths rows).filter (fun p => (files p).isSome) = existing
  by_cases hnil : existing = []
  · subst hnil
    simp [totalBytes]
  · have hsome : ∀ p ∈ existing.eraseDups, (files p).isSome = true := by
      intro p hp
      rw [List.mem_eraseDups, ← hex] at hp
      exact (List.mem_filter.mp hp).2
    have hne : existing.eraseDups ≠ [] := by
      obtain ⟨p, hp⟩ := List.exists_mem_of_ne_nil _ hnil
      exact List.ne_nil_of_mem (List.mem_eraseDups.mpr hp)
    have htotal := hashFrom_iff (n := 0) (Nat.zero_le _) hsome
    rw [Nat.zero_add] at htotal
    simp only [if_neg hnil, hashProofFiles, bind_eq_ok, require_eq_ok, ← htotal]
    constructor
    · rintro ⟨hashed, -, ⟨-, hlen⟩, hrun⟩
      exact ⟨hlen, hashed, hrun⟩
    · rintro ⟨hlen, hashed, hrun⟩
      exact ⟨hashed, (), ⟨hne, hlen⟩, hrun⟩

theorem hashBound_lookup (h : hashBound files rows = .ok hashed) :
    (∀ x ∈ hashed, files x.1 = some x.2) ∧
      ∀ p ∈ boundPaths rows, hashed.lookup p = files p := by
  simp only [hashBound] at h
  have hmem (p : String) (hp : p ∈ boundPaths rows) (f : FileState) (hf : files p = some f) :
      p ∈ (boundPaths rows).filter (fun p => (files p).isSome) := by
    rw [List.mem_filter, hf]
    exact ⟨hp, rfl⟩
  split at h
  · rename_i hnil
    obtain rfl : [] = hashed := by simpa using h
    refine ⟨fun x hx => (List.not_mem_nil hx).elim, fun p hp => ?_⟩
    cases hf : files p with
    | none => rfl
    | some f =>
      have := hmem p hp f hf
      rw [hnil] at this
      cases this
  · obtain ⟨hpaths, hall⟩ := hashProofFiles_ok h
    refine ⟨hall, fun p hp => ?_⟩
    cases hl : hashed.lookup p with
    | some f => exact (lookup_hashed hall hl).symm
    | none =>
      cases hf : files p with
      | none => rfl
      | some f =>
        have hin := List.mem_eraseDups.mpr (hmem p hp f hf)
        rw [← hpaths] at hin
        obtain ⟨x, hx, rfl⟩ := List.mem_map.mp hin
        have hno := List.lookup_eq_none_iff.mp hl x hx
        simp at hno

theorem mem_boundPaths {r : IntegrationRow} {x : String × Sha256} (hr : r ∈ rows)
    (hx : x ∈ r.expected) : x.1 ∈ boundPaths rows :=
  List.mem_eraseDups.mpr (List.mem_flatMap.mpr ⟨r, hr, List.mem_map_of_mem hx⟩)

theorem drift_nil_iff {r : IntegrationRow} (hr : r ∈ rows)
    (hlook : ∀ p ∈ boundPaths rows, hashed.lookup p = files p) :
    (proofCheck hashed r).drift = [] ↔
      ∀ x ∈ r.expected, (files x.1).map FileState.sha256 = some x.2 := by
  simp only [proofCheck, List.filterMap_eq_nil_iff]
  refine forall₂_congr fun x hx => ?_
  rw [hlook x.1 (mem_boundPaths hr hx)]
  by_cases he : (files x.1).map FileState.sha256 = some x.2 <;> simp [he]

end Hashing

section Live
variable {P : Platform} {c : TaskCtx} {files : Files} {s s' : TaskStore} {d : Desk}
  {scope taskId token : String} {t : TaskRow}

theorem proofsAreLive_ok {proof : ProofState} :
    proofsAreLive files scope taskId s = .ok proof ↔
      ∃ hashed, hashBound files (s.recordsOf scope taskId) = .ok hashed ∧
        proof = { ready := !(s.recordsOf scope taskId).isEmpty &&
                    ((s.recordsOf scope taskId).map (proofCheck hashed)).all
                      (fun x => x.drift.isEmpty && x.tests ≠ ""),
                  checks := (s.recordsOf scope taskId).map (proofCheck hashed),
                  identities := hashed.map (fun x => (x.1, x.2.identity)) } := by
  simp only [proofsAreLive, hashBound]
  split
  all_goals
    rw [bind_eq_ok]
    refine exists_congr fun hashed => and_congr_right fun _ => ?_
    rw [pure_eq_ok, eq_comm]

def TaskStore.Tested (s : TaskStore) : Prop := ∀ r ∈ s.records, r.tests ≠ ""

theorem BoardStep.tested (h : BoardStep P c files s s') (hs : s.Tested) : s'.Tested := by
  cases h with
  | lapse hl =>
    intro r hr
    rw [hl.rest] at hr
    exact hs r hr
  | claim s₁ p hc =>
    obtain ⟨log, rfl⟩ := hc.store_eq
    intro r hr
    have : r ∈ s₁.records := hr
    rw [hc.lapsed.rest] at this
    exact hs r this
  | retask hr =>
    obtain ⟨-, -, -, -, -, -, -, -, rfl⟩ := hr
    exact hs
  | presence rows he =>
    subst he
    exact hs
  | request hr =>
    obtain ⟨-, -, -, -, -, -, -, -, rfl⟩ := hr
    exact hs
  | review t row _ _ he =>
    obtain ⟨-, -, -, rfl⟩ := he
    exact hs
  | prove t token row _ _ hp he =>
    obtain ⟨a, rfl⟩ := he
    intro r hr
    rcases List.mem_append.mp hr with hr | hr
    · exact hs r hr
    · obtain rfl := List.mem_singleton.mp hr
      exact hp.tests_ne

theorem reachable_tested (h : (taskBoard P).Reachable d) : d.store.Tested := by
  have hinv : d.store.Gated ∧ d.store.Tested := by
    refine h.invariant (fun d => d.store.Gated ∧ d.store.Tested) (fun d hd => ⟨?_, ?_⟩)
      fun d i hd _ => ?_
    · have hstart : (taskBoard P).Reachable d := ⟨d, [], hd, .nil d⟩
      exact reachable_gated hstart
    · rw [show d.store = .empty from hd]
      exact fun r hr => (List.not_mem_nil hr).elim
    · rcases exec_store i hd.1.keys with he | hstep
      · exact he ▸ hd
      · exact ⟨hstep.gated hd.1, hstep.tested hd.2⟩
  exact hinv.2

theorem live_iff (hs : s.Tested) :
    (∃ proof, proofsAreLive files scope taskId s = .ok proof ∧ proof.ready = true) ↔
      Undrifted files (s.recordsOf scope taskId) := by
  have htests : ∀ r ∈ s.recordsOf scope taskId, r.tests ≠ "" := fun r hr =>
    hs r (List.mem_filter.mp hr).1
  generalize hrows : s.recordsOf scope taskId = rows at htests
  have hready (hashed : List (String × FileState)) (hh : hashBound files rows = .ok hashed) :
      (!rows.isEmpty && (rows.map (proofCheck hashed)).all
        (fun x => x.drift.isEmpty && x.tests ≠ "")) = true ↔
      rows ≠ [] ∧ ∀ r ∈ rows, ∀ x ∈ r.expected,
        (files x.1).map FileState.sha256 = some x.2 := by
    have hlook := (hashBound_lookup hh).2
    simp only [Bool.and_eq_true, Bool.not_eq_true', List.isEmpty_eq_false_iff, List.all_eq_true,
      List.forall_mem_map, List.isEmpty_iff, decide_eq_true_eq]
    refine and_congr_right fun _ => forall₂_congr fun r hr => ?_
    rw [drift_nil_iff hr hlook]
    exact and_iff_left (htests r hr)
  simp only [proofsAreLive_ok, hrows]
  constructor
  · rintro ⟨proof, ⟨hashed, hh, rfl⟩, hr⟩
    obtain ⟨hne, hcurrent⟩ := (hready hashed hh).mp hr
    obtain ⟨hfew, hsmall⟩ := hashBound_iff.mp ⟨hashed, hh⟩
    exact ⟨hne, hcurrent, hfew, hsmall⟩
  · intro h
    obtain ⟨hashed, hh⟩ := hashBound_iff.mpr ⟨h.few, h.small⟩
    exact ⟨_, ⟨hashed, hh, rfl⟩, (hready hashed hh).mpr ⟨h.proved, h.current⟩⟩

theorem closeTask_live {x : Inspection}
    (hproof : proofsAreLive files c.self.scope taskId s = .ok x.proof)
    (hlease : requireTaskLease P c.toCtx taskId token c.clock.locked s = .ok t)
    (hroom : ∃ r, event P c.toCtx "task.completed" (closurePayload x) (some taskId) s.audit =
      .ok r) :
    ∃ s' done, closeTask P c files taskId token x s = .ok (s', done) := by
  obtain ⟨hashed, hh, hp⟩ := proofsAreLive_ok.mp hproof
  obtain ⟨⟨a, chain⟩, hev⟩ := hroom
  have hlive : (s.recordsOf c.self.scope taskId).map (fun r => (r.recordId, r.recordSha256)) =
      x.proof.checks.map (fun k => (k.recordId, k.recordSha256)) := by
    rw [hp, List.map_map]
    rfl
  have hsame : x.proof.identities.all
      (fun y => unchanged files y.1 y.2) = true := by
    rw [hp, List.all_map, List.all_eq_true]
    intro y hy
    simp [unchanged, (hashBound_lookup hh).1 y hy]
  simp only [closeTask, bind_eq_ok, require_eq_ok, pure_eq_ok, TaskStore.event]
  exact ⟨_, _, t, hlease, (), hlive, (), hsame, (_, chain), ⟨(a, chain), hev, rfl⟩, rfl⟩

structure MayComplete (P : Platform) (c : TaskCtx) (d : Desk) (a : CompleteTaskArgs)
    (t : TaskRow) : Prop where
  identifier : isIdentifier (strip a.taskId) = true
  token : a.leaseToken ≠ ""
  task : d.store.task? c.self.scope (strip a.taskId) = some t
  held : Held P c.toCtx a.leaseToken c.clock.locked t
  forward : c.clock.entry ≤ c.clock.locked
  review : ∃ x, reviewSummary c (strip a.taskId) d.store = .ok x ∧ x.readyForCompletion = true
  room : ∀ x, inspectTask P c d.files (strip a.taskId) a.leaseToken d.store = .ok x →
    ∃ r, event P c.toCtx "task.completed" (closurePayload x) (some (strip a.taskId))
      d.store.audit = .ok r

theorem Held.earlier {c : Ctx} {now later : ℚ} (h : Held P c token later t) (hle : now ≤ later) :
    Held P c token now t := by
  obtain ⟨hs, e, he, hlt⟩ := h.live
  exact ⟨⟨hs, e, he, lt_of_le_of_lt hle hlt⟩, h.claimedBy, h.session, h.token⟩

end Live

theorem sampleRoom {c : Ctx} {a : Audit} {eventType : String} {id : Option String}
    (hquota : (reserveEventStorage c 1024 a).isOk = true)
    (hfresh : ∀ e ∈ a.events, e.eventId ≠ (c.eventUuid (a.lastEvent + 1)).text)
    (payload : List (String × Json)) :
    ∃ r, event samplePlatform c eventType payload id a = .ok r := by
  cases hr : reserveEventStorage c 1024 a with
  | error e =>
    rw [hr] at hquota
    cases hquota
  | ok reserved =>
    simp only [event, bind_eq_ok, require_eq_ok, pure_eq_ok]
    exact ⟨_, reserved, hr, (), hfresh, rfl⟩

-- the hash the latest record of a path binds it to
def newestBinding (rows : List IntegrationRow) (path : String) : Option Sha256 :=
  (rows.filter (fun r => path ∈ r.expected.map Prod.fst)).getLast?.bind
    (fun r => r.expected.lookup path)

def soloClaim : TaskCall :=
  .claim { taskId := "one", summary := "s", approvalMode := "solo_allowed" }

def provedOnce : List (TaskCall × TaskCtx) :=
  [onDesk "a" 1 (.edit "log" (some (sampleFile 5))), onDesk "a" 2 soloClaim,
    leaveEvidence "a" 2 3]

-- the evidence file is rewritten after its first proof and proved again
def provedTwice : List (TaskCall × TaskCtx) :=
  [onDesk "a" 1 (.edit "log" (some (sampleFile 5))), onDesk "a" 2 soloClaim,
    leaveEvidence "a" 2 3, onDesk "a" 4 (.edit "log" (some (sampleFile 6))),
    leaveEvidence "a" 2 5]

end PeerBridge
