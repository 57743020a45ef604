import PeerBridge.Approvals.Calls

namespace PeerBridge.Approvals
open Checked Rows

structure SettledOnce (w : World) : Prop where
  once : ∀ id ∈ w.registered, w.broker.historyIds.count id =
    if id ∈ w.broker.pendingIds then 0 else 1
  offered : ∀ r ∈ w.broker.history, ∃ d ∈ r.decision, d = .deny ∨ d ∈ r.availableDecisions
  returned : ∀ n id d, w.stage? n = some (.returned id d) → w.broker.historyIds.count id = 1 ∧
    ∃ r ∈ w.broker.history, r.approvalId = id ∧ r.decision = some d
  distinct : (w.broker.pending.map ApprovalRecord.providerRequestId).Nodup
  few : w.broker.pending.length ≤ maxPendingApprovals

-- a request call that waits has a step to take
def World.Moves (w : World) : Prop :=
  (∀ n id, w.stage? n = some (.waiting id) → w.allows (.wake n) ∨ w.allows (.timeout n)) ∧
    (∀ n id now, w.stage? n = some (.timedOut id) → w.allows (.expire n now)) ∧
    ∀ n id, w.stage? n = some (.settled id) → w.allows (.read n)

def Broker.Offers (b : Broker) (id decision : String) : Prop :=
  ∀ r ∈ b.find? id, ∃ d ∈ Decision.parse? decision, d = .deny ∨ d ∈ r.availableDecisions

def Answer.isRaised : Answer → Bool
  | .raised _ => true
  | _ => false

def Answer.isFalse : Answer → Bool
  | .flag false => true
  | _ => false

-- what a call that settles an approval answers
def Answers (S : Session) (w : World) (i : Step) : Prop :=
  match i with
  | .expire n _ => ∀ id ∈ w.stageOf n Stage.timedOut?,
      ((S.step w i).2.isRaised = true ↔ id ∈ w.broker.historyIds) ∧
        (id ∈ w.broker.historyIds → (S.step w i).1.broker = w.broker)
  | .read _ => (S.step w i).2.isRaised = false
  | .resolve id decision _ => id ∈ w.registered →
      ((S.step w i).2.isRaised = true ↔
        id ∈ w.broker.historyIds ∨ ¬w.broker.Offers id decision) ∧
      (id ∈ w.broker.historyIds → (S.step w i).1 = w) ∧
      ((S.step w i).2.isRaised = true → (S.step w i).1.broker.history = w.broker.history ∧
        (S.step w i).1.broker.pending.Perm w.broker.pending)
  | .cancelNext n _ => ∀ next ∈ w.stageOf n Stage.cancelling?,
      next.1 ∉ w.broker.pendingIds → (S.step w i).1.broker = w.broker
  | .cancelProviderRequest _ pid =>
      ((S.step w i).2.isFalse = true ↔ ∀ r ∈ w.broker.pending, r.providerRequestId ≠ pid) ∧
        (S.step w i).1.broker = w.broker
  | .cancelFound n _ => ∀ id ∈ w.stageOf n Stage.withdrawing?,
      ((S.step w i).2.isFalse = true ↔ id ∈ w.broker.historyIds) ∧
        (id ∈ w.broker.historyIds → (S.step w i).1.broker = w.broker)
  | _ => True

-- no wait that ran out comes to an approval that was settled meanwhile
def Timely (w : World) : Step → Prop
  | .expire n _ => ∀ id ∈ w.stageOf n Stage.timedOut?, id ∈ w.broker.pendingIds
  | .resolve id decision _ => w.broker.Offers id decision
  | _ => True

section Results
variable {S : Session} {w : World} {id : String} {now : Utc}

theorem World.Sound.pending_iff (hw : w.Sound) (hid : w.broker.known id) :
    id ∈ w.broker.historyIds ↔ id ∉ w.broker.pendingIds :=
  ⟨fun hh hp => hw.broker.apart id hp hh, fun hp => hid.resolve_left hp⟩

theorem World.Sound.once (hw : w.Sound) : SettledOnce w := by
  refine ⟨fun id hid => ?_, hw.broker.decided, fun n id d hn => ?_, hw.broker.providers,
    hw.broker.few⟩
  · split
    · rename_i hp
      exact List.count_eq_zero.mpr (hw.broker.apart id hp)
    · rename_i hp
      exact List.count_eq_one_of_mem hw.broker.history_nodup
        ((hw.pending_iff ((hw.registered id).mp hid)).mpr hp)
  · obtain ⟨r, hr, rfl, hd⟩ := hw.returned n id d hn
    exact ⟨List.count_eq_one_of_mem hw.broker.history_nodup (List.mem_map_of_mem hr),
      r, hr, rfl, hd⟩

theorem World.moves (w : World) : w.Moves := by
  refine ⟨fun n id hn => ?_, fun n id now hn => ?_, fun n id hn => ?_⟩
  · have hstage : w.stageOf n Stage.waiting? = some id := by
      rw [World.stageOf, hn]
      rfl
    by_cases hr : id ∈ w.broker.resolved
    · exact .inl ⟨id, hstage, hr⟩
    · exact .inr ⟨id, hstage, hr⟩
  · change (w.stageOf n Stage.timedOut?).isSome = true
    rw [World.stageOf, hn]
    rfl
  · change (w.stageOf n Stage.settled?).isSome = true
    rw [World.stageOf, hn]
    rfl

-- a denial finds its approval unless that was settled
theorem deny_cases (hw : w.Sound) (hid : w.broker.known id) (state : Option ApprovalState) :
    (id ∈ w.broker.historyIds ∧ S.finalize id .deny state now w.broker =
        (w.broker, .error (.key "approval request is not pending"))) ∨
      (id ∉ w.broker.historyIds ∧ ∃ b r, S.finalize id .deny state now w.broker = (b, .ok r)) := by
  cases hf : w.broker.find? id with
  | none =>
    exact .inl ⟨(hw.pending_iff hid).mpr (find?_eq_none.mp hf), finalize_none hf⟩
  | some r =>
    have hp : id ∈ w.broker.pendingIds := find?_isSome.mp (by rw [hf]; rfl)
    exact .inr ⟨hw.broker.apart id hp, _, _, finalize_some hf (.inl rfl)⟩

theorem expire_answers (hw : w.Sound) (n : Nat) (now : Utc) : Answers S w (.expire n now) := by
  intro id hid
  have hstage := stageOf_approvalId (timedOut_stage hid) rfl
  have hknown : w.broker.known id :=
    (hw.registered id).mp ((mem_registered hw.callers).mpr ⟨n, hstage⟩)
  rw [Session.step, Option.mem_def.mp hid, Option.elim_some, Session.expireStep]
  rcases deny_cases hw hknown (some .expired) with ⟨hh, he⟩ | ⟨hh, b, r, he⟩
  · rw [he]
    exact ⟨iff_of_true rfl hh, fun _ => rfl⟩
  · rw [he]
    exact ⟨iff_of_false Bool.false_ne_true hh, fun h => absurd h hh⟩

theorem cancelFound_answers (hw : w.Sound) (n : Nat) (now : Utc) :
    Answers S w (.cancelFound n now) := by
  intro id hid
  have hknown := hw.withdrawing n id (withdrawing_stage hid)
  rw [Session.step, Option.mem_def.mp hid, Option.elim_some, Session.cancelFoundStep]
  rcases deny_cases hw hknown (some .cancelled) with ⟨hh, he⟩ | ⟨hh, b, r, he⟩
  · rw [he]
    exact ⟨iff_of_true rfl hh, fun _ => rfl⟩
  · rw [he]
    exact ⟨iff_of_false Bool.false_ne_true hh, fun h => absurd h hh⟩

theorem cancelNext_answers (n : Nat) (now : Utc) : Answers S w (.cancelNext n now) := by
  intro next hnext hp
  rw [Session.step, Option.mem_def.mp hnext, Option.elim_some, Session.cancelNextStep,
    finalize_none (find?_eq_none.mpr hp)]
  rfl

theorem cancelProvider_answers (hw : w.Sound) (n : Nat) (pid : String) :
    Answers S w (.cancelProviderRequest n pid) := by
  have hnone : (if isApprovalId pid = true then w.broker.providerRequest? pid else none) = none ↔
      ∀ r ∈ w.broker.pending, r.providerRequestId ≠ pid := by
    split
    · simp [Broker.providerRequest?]
    · rename_i hbad
      refine iff_of_true rfl fun r hr he => hbad ?_
      rw [← he]
      exact (hw.broker.named r hr).2
  simp only [Answers, Session.step, World.cancelProviderStep, ← hnone]
  split
  · rename_i he
    exact ⟨iff_of_true rfl he, rfl⟩
  · rename_i id he
    exact ⟨iff_of_false Bool.false_ne_true (by rw [he]; exact Option.some_ne_none id), rfl⟩

theorem read_answers (hw : w.Sound) {n : Nat} (ha : w.allows (.read n)) :
    Answers S w (.read n) := by
  obtain ⟨id, hid⟩ := Option.isSome_iff_exists.mp ha
  obtain ⟨q, -, -, d, -, he⟩ := readStep_eq hw (settled_stage hid)
  simp only [Answers, Session.step, hid, Option.elim_some, he]
  rfl

theorem resolve_settled (hp : id ∉ w.broker.pendingIds) (decision : String) (now : Utc) :
    ∃ e, S.resolve id decision now w.broker = (w.broker, .error e) := by
  unfold Session.resolve
  split
  · exact ⟨_, rfl⟩
  · split
    · exact ⟨_, rfl⟩
    · exact ⟨_, finalize_none (find?_eq_none.mpr hp)⟩

theorem resolve_answers (hw : w.Sound) (id decision : String) (now : Utc) :
    Answers S w (.resolve id decision now) := by
  intro hid
  have hknown := (hw.registered id).mp hid
  by_cases hp : id ∈ w.broker.pendingIds
  · have hh := hw.broker.apart id hp
    obtain ⟨r, hr⟩ := Option.isSome_iff_exists.mp (find?_isSome.mpr hp)
    have hrid : r.approvalId = id := lookup_key hr
    have hvalid : isApprovalId id = true := hrid ▸ (hw.broker.named r (lookup_mem hr)).1
    have hoffers : w.broker.Offers id decision ↔
        ∃ d ∈ Decision.parse? decision, d = .deny ∨ d ∈ r.availableDecisions := by
      simp [Broker.Offers, hr]
    have hres : S.resolve id decision now w.broker = (Decision.parse? decision).elim
        (w.broker, .error (.value "invalid approval decision"))
        (fun d => S.finalize id d none now w.broker) := by
      rw [Session.resolve, hvalid]
      cases Decision.parse? decision <;> rfl
    simp only [Session.step, hoffers, hh, false_or, hres]
    cases hd : Decision.parse? decision with
    | none => simp [Answer.isRaised]
    | some d =>
      by_cases ho : d = .deny ∨ d ∈ r.availableDecisions
      · simp only [Option.elim_some, finalize_some hr ho]
        simp [Answer.isRaised, ho]
      · simp only [Option.elim_some, finalize_unavailable hr ho]
        have hperm := perm_pop hw.broker.pending_nodup hr
        simp [Answer.isRaised, ho, hperm]
  · have hh := (hw.pending_iff hknown).mpr hp
    obtain ⟨e, he⟩ := resolve_settled (S := S) hp decision now
    simp only [Session.step, he]
    exact ⟨iff_of_true rfl (.inl hh), fun _ => trivial, fun _ => ⟨trivial, .refl _⟩⟩

theorem answers (hw : w.Sound) {i : Step} (ha : w.allows i) : Answers S w i := by
  cases i with
  | expire n now => exact expire_answers hw n now
  | read n => exact read_answers hw ha
  | resolve id decision now => exact resolve_answers hw id decision now
  | cancelNext n now => exact cancelNext_answers n now
  | cancelProviderRequest n pid => exact cancelProvider_answers hw n pid
  | cancelFound n now => exact cancelFound_answers hw n now
  | request | wake | timeout | cancelAll => trivial

def World.Unraised (w : World) : Prop := ∀ n id e, w.stage? n ≠ some (.raised id e)

theorem World.Unraised.with {b : Broker} {n : Nat} {stage : Stage} (hw : w.Unraised)
    (hs : ∀ id e, stage ≠ .raised id e) : (w.with b n stage).Unraised := by
  intro m id e hm
  rw [stage?_with] at hm
  split at hm
  · exact hs id e (Option.some.inj hm)
  · exact hw m id e hm

theorem step_unraised {i : Step} (hw : w.Sound) (ha : w.allows i) (ht : Timely w i)
    (hu : w.Unraised) : (S.step w i).1.Unraised := by
  cases i with
  | request n a uuid now =>
    simp only [Session.step, Session.requestStep]
    split <;> exact hu.with (fun _ _ h => by cases h)
  | wake n =>
    obtain ⟨id, hid, -⟩ := ha
    rw [Session.step, Option.mem_def.mp hid, Option.elim_some]
    exact hu.with (fun _ _ h => by cases h)
  | timeout n =>
    obtain ⟨id, hid, -⟩ := ha
    rw [Session.step, Option.mem_def.mp hid, Option.elim_some]
    exact hu.with (fun _ _ h => by cases h)
  | expire n now =>
    obtain ⟨id, hid⟩ := Option.isSome_iff_exists.mp ha
    have hp : id ∈ w.broker.pendingIds := ht id hid
    obtain ⟨r, hr⟩ := Option.isSome_iff_exists.mp (find?_isSome.mpr hp)
    rw [Session.step, hid, Option.elim_some, Session.expireStep, finalize_some hr (.inl rfl)]
    exact hu.with (fun _ _ h => by cases h)
  | read n =>
    obtain ⟨id, hid⟩ := Option.isSome_iff_exists.mp ha
    obtain ⟨q, -, -, d, -, he⟩ := readStep_eq hw (settled_stage hid)
    rw [Session.step, hid, Option.elim_some, he]
    exact hu.with (fun _ _ h => by cases h)
  | resolve id decision now =>
    simp only [Session.step]
    split <;> exact hu
  | cancelAll n => exact hu.with (fun _ _ h => by cases h)
  | cancelNext n now =>
    obtain ⟨next, hnext⟩ := Option.isSome_iff_exists.mp ha
    rw [Session.step, hnext, Option.elim_some, Session.cancelNextStep]
    split <;> exact hu.with (fun _ _ h => by cases h)
  | cancelProviderRequest n pid =>
    simp only [Session.step, World.cancelProviderStep]
    split <;> exact hu.with (fun _ _ h => by cases h)
  | cancelFound n now =>
    obtain ⟨id, hid⟩ := Option.isSome_iff_exists.mp ha
    rw [Session.step, hid, Option.elim_some, Session.cancelFoundStep]
    split <;> exact hu.with (fun _ _ h => by cases h)

theorem timely_unraised (h : ((approvalBroker S).restrict Timely).Reachable w) : w.Unraised := by
  have hstart (w : World) (hw : (approvalBroker S).start w) : w.Sound ∧ w.Unraised := by
    have hreach : (approvalBroker S).Reachable w := ⟨w, [], hw, .nil w⟩
    refine ⟨reachable_sound hreach, fun n id e hn => ?_⟩
    rw [World.stage?, hw.2] at hn
    cases hn
  have hstep (w : World) (i : Step) (hw : w.Sound ∧ w.Unraised) (ha : w.allows i)
      (ht : Timely w i) : (S.step w i).1.Sound ∧ (S.step w i).1.Unraised :=
    ⟨step_sound hw.1 ha, step_unraised hw.1 ha ht hw.2⟩
  have hinv := Machine.Reachable.invariant (M := (approvalBroker S).restrict Timely) _
    hstart (fun w i hw ha => hstep w i hw ha.1 ha.2) h
  exact hinv.2

theorem approvals_settle_once :
    (∀ w, (approvalBroker S).Reachable w →
      SettledOnce w ∧ w.Moves ∧ ∀ i, w.allows i → Answers S w i) ∧
    ∀ w, ((approvalBroker S).restrict Timely).Reachable w → w.Unraised ∧
      ∀ id decision now, id ∈ w.registered → Timely w (.resolve id decision now) →
        ((S.step w (.resolve id decision now)).2.isRaised = true ↔
          id ∈ w.broker.historyIds) := by
  refine ⟨fun w h => ?_, fun w h => ⟨timely_unraised h, fun id decision now hid ht => ?_⟩⟩
  · have hw := reachable_sound h
    exact ⟨hw.once, w.moves, fun i ha => answers hw ha⟩
  · have hres := (resolve_answers (S := S) (reachable_sound h.of_restrict) id decision now hid).1
    rw [hres]
    exact or_iff_left (not_not.mpr ht)

end Results

def sampleSession : Session :=
  { platform := samplePlatform, safeText := fun n t => String.ofList (t.toList.take n),
    sessionId := "session", adapterId := "adapter", mode := .approvalRequired }

def openWorld : World := { broker := .empty, callers := [] }

def sampleApproval : String := "approval-" ++ (Uuid.ofNat 7).text

def askOnce : Step :=
  .request 1 { providerRequestId := "p", actionKind := "shell", title := "t", detail := "d" }
    (.ofNat 7) 0

-- the human decides between the end of the wait and the expiry
def lateDecision : List Step :=
  [askOnce, .timeout 1, .resolve sampleApproval "allow-once" 1, .expire 1 2]

def timelyDecision : List Step :=
  [askOnce, .resolve sampleApproval "allow-once" 1, .wake 1, .read 1]

set_option maxRecDepth 100000 in
theorem decided_request_raises :
    ∃ w, (approvalBroker sampleSession).Reachable w ∧ sampleApproval ∈ w.registered ∧
      w.broker.history.map (fun r => (r.approvalId, r.decision)) =
        [(sampleApproval, some .allowOnce)] ∧
      w.stage? 1 = some (.raised sampleApproval (.key "approval request is not pending")) := by
  let M := approvalBroker sampleSession
  let w := (M.play openWorld lateDecision).1
  have hcheck : M.AdmitsAll openWorld lateDecision ∧ sampleApproval ∈ w.registered ∧
      w.broker.history.map (fun r => (r.approvalId, r.decision)) =
        [(sampleApproval, some .allowOnce)] ∧
      w.stage? 1 = some (.raised sampleApproval (.key "approval request is not pending")) := by
    decide +kernel
  exact ⟨w, ⟨openWorld, _, ⟨rfl, rfl⟩, Machine.run_play _ _ hcheck.1⟩, hcheck.2⟩

instance (b : Broker) (id decision : String) : Decidable (b.Offers id decision) :=
  inferInstanceAs (Decidable (∀ r ∈ b.find? id, ∃ d ∈ Decision.parse? decision, _))

instance (w : World) : ∀ i, Decidable (Timely w i)
  | .expire n _ => inferInstanceAs (Decidable (∀ id ∈ w.stageOf n Stage.timedOut?, _))
  | .resolve id decision _ => inferInstanceAs (Decidable (w.broker.Offers id decision))
  | .request _ _ _ _ | .wake _ | .timeout _ | .read _ | .cancelAll _ | .cancelNext _ _
  | .cancelProviderRequest _ _ | .cancelFound _ _ => isTrue trivial

set_option maxRecDepth 100000 in
theorem approvals_settle_once_in_time :
    ∃ w, w.stage? 1 = some (.returned sampleApproval .allowOnce) ∧
      (SettledOnce w ∧ w.Moves ∧ ∀ i, w.allows i → Answers sampleSession w i) ∧
      w.Unraised ∧
      ((sampleSession.step w (.resolve sampleApproval "deny" 9)).2.isRaised = true ↔
        sampleApproval ∈ w.broker.historyIds) := by
  let M := (approvalBroker sampleSession).restrict Timely
  let w := (M.play openWorld timelyDecision).1
  have hcheck : M.AdmitsAll openWorld timelyDecision ∧
      w.stage? 1 = some (.returned sampleApproval .allowOnce) ∧ sampleApproval ∈ w.registered ∧
      Timely w (.resolve sampleApproval "deny" 9) := by
    decide +kernel
  obtain ⟨hadm, hstage, hid, ht⟩ := hcheck
  have hreach : M.Reachable w := ⟨openWorld, _, ⟨rfl, rfl⟩, Machine.run_play _ _ hadm⟩
  have hguarded := approvals_settle_once.2 w hreach
  exact ⟨w, hstage, approvals_settle_once.1 w hreach.of_restrict, hguarded.1,
    hguarded.2 _ _ _ hid ht⟩

end PeerBridge.Approvals
