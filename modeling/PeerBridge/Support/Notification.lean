import PeerBridge.Lib.Machine
import PeerBridge.Lib.Tenure
import Mathlib.Logic.Function.Basic

namespace PeerBridge.Support

-- a statement or an object call answers, fails before it runs, or runs and loses its answer
inductive Reply where
  | answered | failed | lost
deriving DecidableEq

def Reply.ran : Reply → Bool
  | .failed => false
  | _ => true

end PeerBridge.Support

namespace PeerBridge.Notification


variable {τ : Type}

inductive Status where
  | legacyUnknown | pending | failed | sent
deriving DecidableEq

def maxNotificationAttempts : Nat := 12

def notificationClaimTtlMs : Nat := 5 * 60 * 1000

structure CaseRow (τ : Type) where
  notificationStatus : Status
  notificationAttemptCount : Nat
  notificationLastAttemptUtc : Option Nat
  notificationSentUtc : Option Nat
  notificationClaimTokenSha256 : Option τ
  notificationClaimExpiresUtc : Option Nat
deriving DecidableEq

def CaseRow.unsent (row : CaseRow τ) : Bool :=
  row.notificationStatus = .pending || row.notificationStatus = .failed

def CaseRow.claimable (row : CaseRow τ) (utc : Nat) : Bool :=
  row.unsent && decide (row.notificationAttemptCount < maxNotificationAttempts) &&
    (row.notificationClaimTokenSha256.isNone ||
      row.notificationClaimExpiresUtc.any (· ≤ utc))

def claimNotificationAttempt (row : CaseRow τ) (token : τ) (attemptedUtc : Nat) :
    CaseRow τ × Option τ :=
  if row.claimable attemptedUtc then
    ({ row with
        notificationClaimTokenSha256 := some token
        notificationClaimExpiresUtc := some (attemptedUtc + notificationClaimTtlMs) }, some token)
  else (row, none)

theorem claimed_token {row : CaseRow τ} {token u : τ} {utc : Nat}
    (h : (claimNotificationAttempt row token utc).2 = some u) :
    u = token ∧ row.claimable utc = true := by
  unfold claimNotificationAttempt at h
  split at h
  · next hc => exact ⟨(Option.some.inj h).symm, hc⟩
  · cases h

def CaseRow.current (row : CaseRow τ) : Option (Tenure.Claim τ) :=
  row.notificationClaimTokenSha256.bind fun token =>
    row.notificationClaimExpiresUtc.map fun expires => ⟨token, expires⟩

inductive Caller where
  | intake
  | retry (now : Nat)
deriving DecidableEq

inductive Stage (τ : Type) where
  | idle
  | selecting (now : Nat)
  | preparing (now : Nat)
  | claiming (caller : Caller) (attemptedUtc : Nat)
  | reserving (caller : Caller) (token : τ) (attemptedUtc : Nat)
  | releasing (token : τ)
  | notifying (token : τ) (attemptedUtc : Nat)
  | recording (token : τ) (sent : Bool) (attemptedUtc : Nat)
  | claimingUnavailable (now : Nat) (caught : Bool)
  | recordingUnavailable (token : τ) (now : Nat) (caught : Bool)
deriving DecidableEq

-- what the scheduled retry does with an exception; an intake request ends with it
def Caller.thrown : Caller → Stage τ
  | .intake => .idle
  | .retry now => .claimingUnavailable now true

def thrownUnavailable (now : Nat) : Bool → Stage τ
  | true => .idle
  | false => .claimingUnavailable now true

def Stage.token : Stage τ → Option τ
  | .reserving _ token _ => some token
  | .releasing token => some token
  | .notifying token _ => some token
  | .recording token _ _ => some token
  | .recordingUnavailable token _ _ => some token
  | _ => none

def Stage.undelivered : Stage τ → Option τ
  | .reserving _ token _ => some token
  | .releasing token => some token
  | _ => none

def Stage.claimUtc : Stage τ → Option Nat
  | .claiming _ utc => some utc
  | .claimingUnavailable now _ => some now
  | _ => none

def Caller.Timely (clock : Nat) : Caller → Prop
  | .intake => True
  | .retry now => now ≤ clock

def Stage.Timely (clock : Nat) : Stage τ → Prop
  | .selecting now => now ≤ clock
  | .preparing now => now ≤ clock
  | .claiming caller utc => caller.Timely clock ∧ utc ≤ clock
  | .reserving caller _ _ => caller.Timely clock
  | .claimingUnavailable now _ => now ≤ clock
  | .recordingUnavailable _ now _ => now ≤ clock
  | _ => True

theorem Caller.thrown_timely {clock : Nat} {caller : Caller} (h : caller.Timely clock) :
    (caller.thrown : Stage τ).Timely clock := by
  cases caller with
  | intake => trivial
  | retry now => exact h

theorem thrownUnavailable_timely {clock now : Nat} (h : now ≤ clock) (caught : Bool) :
    (thrownUnavailable now caught : Stage τ).Timely clock := by
  cases caught with
  | true => trivial
  | false => exact h

@[simp] theorem Caller.thrown_token (caller : Caller) :
    (caller.thrown : Stage τ).token = none := by
  cases caller <;> rfl

@[simp] theorem thrownUnavailable_token (now : Nat) (caught : Bool) :
    (thrownUnavailable now caught : Stage τ).token = none := by
  cases caught <;> rfl

theorem Stage.undelivered_token {s : Stage τ} {t : τ} (h : s.undelivered = some t) :
    s.token = some t := by
  cases s <;> first | exact h | cases h

theorem Stage.claimUtc_token {s : Stage τ} {utc : Nat} (h : s.claimUtc = some utc) :
    s.token = none := by
  cases s <;> first | rfl | cases h

theorem Stage.Timely.mono {s : Stage τ} {a b : Nat} (h : s.Timely a) (hab : a ≤ b) :
    s.Timely b := by
  have caller {c : Caller} (hc : c.Timely a) : c.Timely b := by
    cases c with
    | intake => trivial
    | retry now => exact Nat.le_trans hc hab
  cases s with
  | idle => trivial
  | selecting now => exact Nat.le_trans h hab
  | preparing now => exact Nat.le_trans h hab
  | claiming c utc => exact ⟨caller h.1, Nat.le_trans h.2 hab⟩
  | reserving c token utc => exact caller h
  | releasing token => trivial
  | notifying token utc => trivial
  | recording token sent utc => trivial
  | claimingUnavailable now caught => exact Nat.le_trans h hab
  | recordingUnavailable token now caught => exact Nat.le_trans h hab

structure World (τ : Type) where
  clock : Nat
  row : CaseRow τ
  stage : Nat → Stage τ
  issued : List (Tenure.Claim τ)
  settled : List τ
  started : List τ

variable (w : World τ)

def World.claim (token : τ) (utc : Nat) : World τ :=
  if w.row.claimable utc then
    { w with
      row := (claimNotificationAttempt w.row token utc).1
      issued := ⟨token, utc + notificationClaimTtlMs⟩ :: w.issued }
  else w

variable {w} in
theorem World.claim_refused {token : τ} {utc : Nat} (h : ¬ w.row.claimable utc = true) :
    w.claim token utc = w := if_neg h

structure CaseRow.Coherent (row : CaseRow τ) : Prop where
  paired : row.notificationClaimTokenSha256.isSome = row.notificationClaimExpiresUtc.isSome
  counted : row.notificationAttemptCount ≤ maxNotificationAttempts
  claimed : ∀ t, row.notificationClaimTokenSha256 = some t →
    row.unsent = true ∧ row.notificationAttemptCount < maxNotificationAttempts

theorem CaseRow.Coherent.current {row : CaseRow τ} (h : row.Coherent) {t : τ}
    (ht : row.notificationClaimTokenSha256 = some t) :
    ∃ c, row.current = some c ∧ c.token = t := by
  have hp := h.paired
  rw [ht] at hp
  obtain ⟨e, he⟩ := Option.isSome_iff_exists.mp hp.symm
  exact ⟨⟨t, e⟩, by simp [CaseRow.current, ht, he], rfl⟩

theorem CaseRow.current_token {row : CaseRow τ} {c : Tenure.Claim τ} (h : row.current = some c) :
    row.notificationClaimTokenSha256 = some c.token ∧
      row.notificationClaimExpiresUtc = some c.expires := by
  unfold CaseRow.current at h
  rcases ht : row.notificationClaimTokenSha256 with _ | t
  · simp [ht] at h
  · rcases he : row.notificationClaimExpiresUtc with _ | e
    · simp [ht, he] at h
    · obtain rfl : (⟨t, e⟩ : Tenure.Claim τ) = c := by simpa [ht, he] using h
      exact ⟨rfl, rfl⟩

theorem claimable_expired {row : CaseRow τ} {utc : Nat} (h : row.claimable utc = true)
    {c : Tenure.Claim τ} (hc : row.current = some c) : c.expires ≤ utc := by
  obtain ⟨ht, he⟩ := CaseRow.current_token hc
  simpa [CaseRow.claimable, ht, he] using (Bool.and_eq_true_iff.mp h).2

theorem claimable_room {row : CaseRow τ} {utc : Nat} (h : row.claimable utc = true) :
    row.unsent = true ∧ row.notificationAttemptCount < maxNotificationAttempts := by
  simp only [CaseRow.claimable, Bool.and_eq_true, decide_eq_true_eq] at h
  exact h.1

theorem World.claim_row {token : τ} {utc : Nat} (h : w.row.claimable utc = true) :
    (w.claim token utc).row = { w.row with
      notificationClaimTokenSha256 := some token
      notificationClaimExpiresUtc := some (utc + notificationClaimTtlMs) } ∧
    (w.claim token utc).issued = ⟨token, utc + notificationClaimTtlMs⟩ :: w.issued := by
  simp [World.claim, claimNotificationAttempt, h]

@[simp] theorem World.claim_rest {token : τ} {utc : Nat} :
    (w.claim token utc).clock = w.clock ∧ (w.claim token utc).stage = w.stage ∧
      (w.claim token utc).settled = w.settled ∧ (w.claim token utc).started = w.started := by
  unfold World.claim
  split <;> exact ⟨rfl, rfl, rfl, rfl⟩

theorem current_none {row : CaseRow τ} (h : row.notificationClaimTokenSha256 = none) :
    row.current = none := by
  simp [CaseRow.current, h]

variable [DecidableEq τ]

def CaseRow.heldBy (row : CaseRow τ) (token : τ) : Bool :=
  row.unsent && decide (row.notificationClaimTokenSha256 = some token)

-- the second component is whether the row changed; the source throws when it did not
def recordNotificationAttempt (row : CaseRow τ) (token : τ) (sent : Bool) (attemptedUtc : Nat) :
    CaseRow τ × Bool :=
  if row.heldBy token then
    ({ notificationStatus := if sent then .sent else .failed
       notificationAttemptCount := row.notificationAttemptCount + 1
       notificationLastAttemptUtc := some attemptedUtc
       notificationSentUtc :=
         if sent then some (row.notificationSentUtc.getD attemptedUtc)
         else row.notificationSentUtc
       notificationClaimTokenSha256 := none
       notificationClaimExpiresUtc := none }, true)
  else (row, false)

def releaseNotificationClaim (row : CaseRow τ) (token : τ) : CaseRow τ × Bool :=
  if row.heldBy token then
    ({ row with
        notificationClaimTokenSha256 := none
        notificationClaimExpiresUtc := none }, true)
  else (row, false)

def World.record (token : τ) (sent : Bool) (utc : Nat) : World τ :=
  if w.row.heldBy token then
    { w with
      row := (recordNotificationAttempt w.row token sent utc).1
      settled := token :: w.settled }
  else w

def World.release (token : τ) : World τ :=
  if w.row.heldBy token then
    { w with
      row := (releaseNotificationClaim w.row token).1
      settled := token :: w.settled }
  else w

def World.deliver (token : τ) : World τ := { w with started := token :: w.started }

inductive Event (τ : Type) where
  | select (reply : Support.Reply)
  | bundleReady
  | bundleUnavailable
  | fault
  | claim (token : τ) (reply : Support.Reply)
  | capacity (granted : Bool)
  | delivered (sent : Bool)
  | write (reply : Support.Reply)
  | crash
deriving DecidableEq

def World.next : Stage τ → Event τ → Option (World τ × Stage τ)
  | .idle, _ => none
  | _, .crash => some (w, .idle)
  | .selecting now, .select reply =>
    some (w, if reply = .answered && w.row.claimable now then .preparing now else .idle)
  | .preparing now, .bundleReady => some (w, .claiming (.retry now) w.clock)
  | .preparing now, .bundleUnavailable => some (w, .claimingUnavailable now false)
  | .preparing now, .fault => some (w, .claimingUnavailable now true)
  | .claiming caller utc, .claim token reply =>
    some (if reply.ran then w.claim token utc else w,
      if reply ≠ .answered then caller.thrown
      else match (claimNotificationAttempt w.row token utc).2 with
        | some token => .reserving caller token utc
        | none => .idle)
  | .reserving _ token utc, .capacity true => some (w.deliver token, .notifying token utc)
  | .reserving _ token _, .capacity false => some (w, .releasing token)
  | .reserving caller _ _, .fault => some (w, caller.thrown)
  | .releasing token, .write reply =>
    some (if reply.ran then w.release token else w, .idle)
  | .notifying token utc, .delivered sent => some (w, .recording token sent utc)
  | .recording token sent utc, .write reply =>
    some (if reply.ran then w.record token sent utc else w, .idle)
  | .claimingUnavailable now caught, .claim token reply =>
    some (if reply.ran then w.claim token now else w,
      if reply ≠ .answered then thrownUnavailable now caught
      else match (claimNotificationAttempt w.row token now).2 with
        | some token => .recordingUnavailable token now caught
        | none => .idle)
  | .recordingUnavailable token now caught, .write reply =>
    some (if reply.ran then w.record token false now else w,
      if reply = .answered && (recordNotificationAttempt w.row token false now).2 then .idle
      else thrownUnavailable now caught)
  | _, _ => none

inductive Action (τ : Type) where
  | tick (ms : Nat)
  | intake (run : Nat)
  | schedule (run : Nat)
  | step (run : Nat) (event : Event τ)
deriving DecidableEq

def World.put (run : Nat) (stage : Stage τ) : World τ :=
  { w with stage := Function.update w.stage run stage }

def World.exec : Action τ → World τ
  | .tick ms => { w with clock := w.clock + ms }
  | .intake run => w.put run (.claiming .intake w.clock)
  | .schedule run => w.put run (.selecting w.clock)
  | .step run event =>
    match w.next (w.stage run) event with
    | some (w', stage) => w'.put run stage
    | none => w

-- claim tokens are digests of random UUIDs: no two claims share one
def World.freshFor : Event τ → Bool
  | .claim token _ => decide (token ∉ w.issued.map Tenure.Claim.token)
  | _ => true

def World.admits : Action τ → Bool
  | .tick _ => true
  | .intake run => decide (w.stage run = .idle)
  | .schedule run => decide (w.stage run = .idle)
  | .step run event => (w.next (w.stage run) event).isSome && w.freshFor event

-- a stored case before its first notification attempt: pending, or sent with the upload itself
def opening (clock : Nat) (row : CaseRow τ) : World τ :=
  ⟨clock, row, fun _ => .idle, [], [], []⟩

def Stored (row : CaseRow τ) : Prop :=
  row.notificationAttemptCount ≤ maxNotificationAttempts ∧
    row.notificationClaimTokenSha256 = none ∧ row.notificationClaimExpiresUtc = none

def protocol : Machine (World τ) (Action τ) Unit where
  start w := ∃ clock row, Stored row ∧ w = opening clock row
  admits w a := w.admits a = true
  exec w a := (w.exec a, ())

def World.ledger : Tenure.Ledger τ := ⟨w.clock, w.row.current, w.issued, w.settled⟩

-- what one step of a run can do to the case
inductive Passage (w : World τ) (s : Stage τ) : Event τ → World τ → Stage τ → Prop
  | quiet {e : Event τ} {s' : Stage τ} (token : ∀ t, s'.token = some t → s.token = some t)
      (undelivered : ∀ t, s'.undelivered = some t → s.undelivered = some t) : Passage w s e w s'
  | claim {s' : Stage τ} (t : τ) (utc : Nat) (reply : Support.Reply) (ran : reply.ran = true)
      (at_ : s.claimUtc = some utc) (fresh : t ∉ w.ledger.tokens)
      (claimable : w.row.claimable utc = true) (token : ∀ u, s'.token = some u → u = t) :
      Passage w s (.claim t reply) (w.claim t utc) s'
  | record {e : Event τ} {s' : Stage τ} (t : τ) (sent : Bool) (utc : Nat)
      (holds : s.token = some t) (held : w.row.heldBy t = true) (token : s'.token = none) :
      Passage w s e (w.record t sent utc) s'
  | release {e : Event τ} (t : τ) (holds : s.undelivered = some t)
      (held : w.row.heldBy t = true) : Passage w s e (w.release t) .idle
  | deliver (caller : Caller) (t : τ) (utc : Nat) (stage : s = .reserving caller t utc) :
      Passage w s (.capacity true) (w.deliver t) (.notifying t utc)

variable {w : World τ} {s s' : Stage τ} {w' : World τ} {e : Event τ}

theorem Passage.still (token : s'.token = none) : Passage w s e w s' :=
  .quiet (fun t h => by simp [token] at h)
    (fun t h => by have := Stage.undelivered_token h; simp [token] at this)

theorem World.record_refused {token : τ} {sent : Bool} {utc : Nat}
    (h : ¬ w.row.heldBy token = true) : w.record token sent utc = w := if_neg h

theorem World.release_refused {token : τ} (h : ¬ w.row.heldBy token = true) :
    w.release token = w := if_neg h

theorem claiming_passage {utc : Nat} {reply : Support.Reply} (hs : s.claimUtc = some utc) (token : τ)
    (fresh : w.freshFor (.claim token reply) = true) {thrown : Stage τ} (hthrown : thrown.token = none) (granted : τ → Stage τ)
    (hgranted : ∀ t, (granted t).token = some t) :
    Passage w s (.claim token reply) (if reply.ran then w.claim token utc else w)
      (if reply ≠ .answered then thrown
       else match (claimNotificationAttempt w.row token utc).2 with
        | some token => granted token
        | none => .idle) := by
  by_cases hc : w.row.claimable utc = true
  · have hgrant : (claimNotificationAttempt w.row token utc).2 = some token := by
      simp [claimNotificationAttempt, hc]
    rw [hgrant]
    cases reply with
    | answered =>
      refine .claim token utc _ rfl hs (of_decide_eq_true fresh) hc fun u hu => ?_
      have hu : (granted token).token = some u := hu
      rw [hgranted] at hu
      exact (Option.some.inj hu).symm
    | failed => exact .still hthrown
    | lost =>
      refine .claim token utc _ rfl hs (of_decide_eq_true fresh) hc fun u hu => ?_
      have hu : thrown.token = some u := hu
      simp [hthrown] at hu
  · have hgrant : (claimNotificationAttempt w.row token utc).2 = none := by
      simp [claimNotificationAttempt, hc]
    rw [hgrant, World.claim_refused hc, ite_self]
    refine .still ?_
    split
    · exact hthrown
    · rfl

theorem recording_passage {token : τ} (hs : s.token = some token) (sent : Bool) (utc : Nat)
    (reply : Support.Reply) (hs' : s'.token = none) :
    Passage w s e (if reply.ran then w.record token sent utc else w) s' := by
  by_cases hh : w.row.heldBy token = true
  · cases reply with
    | answered => exact .record token sent utc hs hh hs'
    | failed => exact .still hs'
    | lost => exact .record token sent utc hs hh hs'
  · rw [World.record_refused hh, ite_self]
    exact .still hs'

theorem releasing_passage {token : τ} (hs : s.undelivered = some token) (reply : Support.Reply) :
    Passage w s e (if reply.ran then w.release token else w) .idle := by
  by_cases hh : w.row.heldBy token = true
  · cases reply with
    | answered => exact .release token hs hh
    | failed => exact .still rfl
    | lost => exact .release token hs hh
  · rw [World.release_refused hh, ite_self]
    exact .still rfl

theorem next_passage (h : w.next s e = some (w', s')) (hf : w.freshFor e = true) :
    Passage w s e w' s' := by
  unfold World.next at h
  split at h
  · cases h
  · cases h
    exact .still rfl
  · cases h
    refine .still ?_
    split <;> rfl
  · cases h
    exact .still rfl
  · cases h
    exact .still rfl
  · cases h
    exact .still rfl
  · cases h
    exact claiming_passage rfl _ hf (Caller.thrown_token _) _ fun _ => rfl
  · cases h
    exact .deliver _ _ _ rfl
  · cases h
    exact .quiet (fun _ h => h) (fun _ h => h)
  · cases h
    exact .still (Caller.thrown_token _)
  · cases h
    exact releasing_passage rfl _
  · cases h
    exact .quiet (fun _ h => h) (fun _ h => h)
  · cases h
    exact recording_passage rfl _ _ _ rfl
  · cases h
    exact claiming_passage rfl _ hf (thrownUnavailable_token _ _) _ fun _ => rfl
  · cases h
    refine recording_passage rfl _ _ _ ?_
    split
    · rfl
    · exact thrownUnavailable_token _ _
  · cases h

theorem next_timely (h : w.next s e = some (w', s')) (hs : s.Timely w.clock) :
    s'.Timely w.clock := by
  unfold World.next at h
  split at h <;> cases h
  case h_2 => trivial
  case h_3 =>
    split
    · exact hs
    · trivial
  case h_4 => exact ⟨hs, Nat.le_refl _⟩
  case h_5 => exact hs
  case h_6 => exact hs
  case h_7 =>
    split
    · exact Caller.thrown_timely hs.1
    · split
      · exact hs.1
      · trivial
  case h_8 => trivial
  case h_9 => trivial
  case h_10 => exact Caller.thrown_timely hs
  case h_11 => trivial
  case h_12 => trivial
  case h_13 => trivial
  case h_14 =>
    split
    · exact thrownUnavailable_timely hs _
    · split
      · exact hs
      · trivial
  case h_15 =>
    split
    · trivial
    · exact thrownUnavailable_timely hs _

theorem heldBy_iff {row : CaseRow τ} {token : τ} : row.heldBy token = true ↔
    row.unsent = true ∧ row.notificationClaimTokenSha256 = some token := by
  simp [CaseRow.heldBy]

@[simp] theorem World.record_rest {token : τ} {sent : Bool} {utc : Nat} :
    (w.record token sent utc).clock = w.clock ∧ (w.record token sent utc).stage = w.stage ∧
      (w.record token sent utc).issued = w.issued ∧
      (w.record token sent utc).started = w.started := by
  unfold World.record
  split <;> exact ⟨rfl, rfl, rfl, rfl⟩

@[simp] theorem World.release_rest {token : τ} :
    (w.release token).clock = w.clock ∧ (w.release token).stage = w.stage ∧
      (w.release token).issued = w.issued ∧ (w.release token).started = w.started := by
  unfold World.release
  split <;> exact ⟨rfl, rfl, rfl, rfl⟩

theorem World.record_row {token : τ} {sent : Bool} {utc : Nat}
    (h : w.row.heldBy token = true) :
    (w.record token sent utc).row.notificationAttemptCount = w.row.notificationAttemptCount + 1 ∧
    (w.record token sent utc).row.notificationClaimTokenSha256 = none ∧
    (w.record token sent utc).row.notificationClaimExpiresUtc = none ∧
    (w.record token sent utc).settled = token :: w.settled := by
  simp [World.record, recordNotificationAttempt, h]

theorem World.release_row {token : τ} (h : w.row.heldBy token = true) :
    (w.release token).row.notificationAttemptCount = w.row.notificationAttemptCount ∧
    (w.release token).row.notificationClaimTokenSha256 = none ∧
    (w.release token).row.notificationClaimExpiresUtc = none ∧
    (w.release token).settled = token :: w.settled := by
  simp [World.release, releaseNotificationClaim, h]

theorem settle_ledger {t : τ} (hrow : w.row.Coherent) (held : w.row.heldBy t = true)
    (hclock : w'.clock = w.clock) (hissued : w'.issued = w.issued)
    (htoken : w'.row.notificationClaimTokenSha256 = none)
    (hsettled : w'.settled = t :: w.settled) : Tenure.Step w.ledger w'.ledger := by
  obtain ⟨c, hc, rfl⟩ := hrow.current (heldBy_iff.mp held).2
  have h := Tenure.Step.settle (l := w.ledger) c hc
  simpa [World.ledger, hclock, hissued, hsettled, current_none htoken] using h

theorem Passage.ledger (h : Passage w s e w' s') (hrow : w.row.Coherent)
    (hs : s.Timely w.clock) : Tenure.Step w.ledger w'.ledger := by
  cases h with
  | quiet _ _ => exact .idle
  | claim t utc _ _ at_ fresh claimable _ =>
    have hutc : utc ≤ w.clock := by
      cases s with
      | claiming caller at' =>
        obtain rfl : at' = utc := by simpa [Stage.claimUtc] using at_
        exact hs.2
      | claimingUnavailable now caught =>
        obtain rfl : now = utc := by simpa [Stage.claimUtc] using at_
        exact hs
      | _ => cases at_
    have hstep := Tenure.Step.grant (l := w.ledger) ⟨t, utc + notificationClaimTtlMs⟩ fresh
      fun d hd => Nat.le_trans (claimable_expired claimable hd) hutc
    obtain ⟨hr, hi⟩ := @World.claim_row _ w t _ claimable
    simpa [World.ledger, hr, hi, CaseRow.current] using hstep
  | record t sent utc _ held _ =>
    obtain ⟨_, ht, _, hset⟩ := @World.record_row _ _ w _ sent utc held
    exact settle_ledger hrow held w.record_rest.1 w.record_rest.2.2.1 ht hset
  | release t _ held =>
    obtain ⟨_, ht, _, hset⟩ := w.release_row held
    exact settle_ledger hrow held w.release_rest.1 w.release_rest.2.2.1 ht hset
  | deliver caller t utc _ => exact .idle

theorem Passage.coherent (h : Passage w s e w' s') (hrow : w.row.Coherent) :
    w'.row.Coherent := by
  cases h with
  | quiet _ _ => exact hrow
  | claim t utc _ _ _ _ claimable _ =>
    have hroom := claimable_room claimable
    rw [(w.claim_row claimable).1]
    exact ⟨rfl, hrow.counted, fun _ _ => hroom⟩
  | record t sent utc _ held _ =>
    obtain ⟨hcount, ht, he, _⟩ := @World.record_row _ _ w _ sent utc held
    have hroom := (hrow.claimed t (heldBy_iff.mp held).2).2
    exact ⟨by rw [ht, he]; rfl, by omega, fun u hu => by simp [ht] at hu⟩
  | release t _ held =>
    obtain ⟨hcount, ht, he, _⟩ := w.release_row held
    exact ⟨by rw [ht, he]; rfl, hcount ▸ hrow.counted, fun u hu => by simp [ht] at hu⟩
  | deliver caller t utc _ => exact hrow

end PeerBridge.Notification
