import PeerBridge.Support.Notification

namespace PeerBridge.Notification
variable {τ : Type} {w w' w₀ : World τ} {s s' : Stage τ}

structure Inv (w : World τ) : Prop where
  sound : Tenure.Sound w.ledger
  coherent : w.row.Coherent
  timely : ∀ i, (w.stage i).Timely w.clock
  held : ∀ i t, (w.stage i).token = some t → t ∈ w.ledger.tokens
  alone : ∀ i j t, (w.stage i).token = some t → (w.stage j).token = some t → i = j
  undelivered : ∀ i t, (w.stage i).undelivered = some t → t ∉ w.started
  started : ∀ t ∈ w.started, t ∈ w.ledger.tokens

theorem opening_inv {clock : Nat} {row : CaseRow τ} (h : Stored row) : Inv (opening clock row) := by
  obtain ⟨hcount, ht, he⟩ := h
  refine ⟨⟨List.nodup_nil, ?_, by simp [opening, World.ledger], ?_⟩, ⟨?_, hcount, ?_⟩, ?_, ?_, ?_,
    ?_, ?_⟩
  · intro c hc
    have hc : row.current = some c := hc
    simp [current_none ht] at hc
  · rintro c ⟨hc, _⟩
    simp [opening, World.ledger] at hc
  · simp [opening, ht, he]
  · intro t h
    simp [opening, ht] at h
  · intro i
    trivial
  · intro i t h
    cases h
  · intro i j t h
    cases h
  · intro i t h
    cases h
  · intro t h
    cases h

@[simp] theorem put_ledger (i : Nat) (s : Stage τ) : (w.put i s).ledger = w.ledger := rfl

theorem put_token {i j : Nat} {t : τ} (h : ((w.put i s).stage j).token = some t) :
    j = i ∧ s.token = some t ∨ j ≠ i ∧ (w.stage j).token = some t := by
  by_cases hj : j = i
  · subst hj
    exact .inl ⟨rfl, by simpa [World.put] using h⟩
  · exact .inr ⟨hj, by simpa [World.put, hj] using h⟩

theorem tick_inv {ms : Nat} (hinv : Inv w) : Inv { w with clock := w.clock + ms } :=
  ⟨(Tenure.Step.tick ms).sound hinv.sound, hinv.coherent,
    fun i => (hinv.timely i).mono (Nat.le_add_right _ ms), hinv.held, hinv.alone,
    hinv.undelivered, hinv.started⟩

theorem one_unexpired_claim (hinv : Inv w) {c d : Tenure.Claim τ} (hc : w.ledger.Outstanding c)
    (hd : w.ledger.Outstanding d) (hcu : w.clock < c.expires) (hdu : w.clock < d.expires) :
    c = d :=
  hinv.sound.unique hc hd hcu hdu

variable [DecidableEq τ] {e : Event τ}

theorem Passage.stage (h : Passage w s e w' s') : w'.stage = w.stage ∧ w'.clock = w.clock := by
  cases h with
  | quiet _ _ => exact ⟨rfl, rfl⟩
  | claim _ _ _ _ _ _ _ _ => exact ⟨w.claim_rest.2.1, w.claim_rest.1⟩
  | record _ _ _ _ _ _ => exact ⟨w.record_rest.2.1, w.record_rest.1⟩
  | release _ _ _ => exact ⟨w.release_rest.2.1, w.release_rest.1⟩
  | deliver _ _ _ _ => exact ⟨rfl, rfl⟩

theorem Passage.started (h : Passage w s e w' s') :
    w'.started = w.started ∨ ∃ t, s.undelivered = some t ∧ w'.started = t :: w.started ∧
      s'.undelivered = none := by
  cases h with
  | quiet _ _ => exact .inl rfl
  | claim _ _ _ _ _ _ _ _ => exact .inl w.claim_rest.2.2.2
  | record _ _ _ _ _ _ => exact .inl w.record_rest.2.2.2
  | release _ _ _ => exact .inl w.release_rest.2.2.2
  | deliver _ t _ hs => exact .inr ⟨t, hs ▸ rfl, rfl, rfl⟩

-- a token a run holds after its step is its own already or one just issued
theorem Passage.token (h : Passage w s e w' s') {t : τ} (ht : s'.token = some t) :
    s.token = some t ∨ t ∉ w.ledger.tokens ∧ t ∈ w'.ledger.tokens := by
  cases h with
  | quiet token _ => exact .inl (token t ht)
  | claim u utc _ _ _ fresh claimable token =>
    obtain rfl := token t ht
    refine .inr ⟨fresh, ?_⟩
    rw [World.ledger, (w.claim_row claimable).2]
    exact List.mem_cons_self
  | record _ _ _ _ _ token => simp [token] at ht
  | release _ _ _ => cases ht
  | deliver _ u _ hs =>
    obtain rfl : u = t := by simpa [Stage.token] using ht
    exact .inl (hs ▸ rfl)

theorem Passage.undelivered (h : Passage w s e w' s') {t : τ} (ht : s'.undelivered = some t) :
    w'.started = w.started ∧ (s.undelivered = some t ∨ t ∉ w.ledger.tokens) := by
  cases h with
  | quiet _ undelivered => exact ⟨rfl, .inl (undelivered t ht)⟩
  | claim u utc _ _ _ fresh _ token =>
    obtain rfl := token t (Stage.undelivered_token ht)
    exact ⟨w.claim_rest.2.2.2, .inr fresh⟩
  | record _ _ _ _ _ token =>
    have h := Stage.undelivered_token ht
    simp [token] at h
  | release _ _ _ => cases ht
  | deliver _ _ _ _ => cases ht

theorem passage_inv {i : Nat} (h : Passage w (w.stage i) e w' s') (ht : s'.Timely w.clock)
    (hinv : Inv w) : Inv (w'.put i s') := by
  have hledger := h.ledger hinv.coherent (hinv.timely i)
  obtain ⟨hstage, hclock⟩ := h.stage
  have hold {j : Nat} {t : τ} (hj : (w.stage j).token = some t) : t ∈ w'.ledger.tokens :=
    hledger.tokens (hinv.held j t hj)
  -- the run's new token is not one another run holds
  have hnew {j : Nat} {t : τ} (hj : j ≠ i) (hs : s'.token = some t) :
      (w.stage j).token ≠ some t := by
    intro hother
    rcases h.token hs with hown | ⟨hfresh, _⟩
    · exact hj (hinv.alone j i t hother hown)
    · exact hfresh (hinv.held j t hother)
  refine ⟨hledger.sound hinv.sound, h.coherent hinv.coherent, ?_, ?_, ?_, ?_, ?_⟩
  · intro j
    show (Function.update w'.stage i s' j).Timely w'.clock
    rw [hstage, hclock]
    by_cases hj : j = i
    · subst hj
      simpa using ht
    · simpa [hj] using hinv.timely j
  · intro j t hj
    rcases put_token hj with ⟨rfl, hs⟩ | ⟨_, hs⟩
    · rcases h.token hs with hown | ⟨_, hissued⟩
      · exact hold hown
      · exact hissued
    · rw [hstage] at hs
      exact hold hs
  · intro j k t hj hk
    rcases put_token hj with ⟨rfl, hs⟩ | ⟨hji, hs⟩ <;>
      rcases put_token hk with ⟨rfl, hs'⟩ | ⟨hki, hs'⟩
    · rfl
    · exact absurd (hstage ▸ hs') (hnew hki hs)
    · exact absurd (hstage ▸ hs) (hnew hji hs')
    · exact hinv.alone j k t (hstage ▸ hs) (hstage ▸ hs')
  · intro j t hj
    show t ∉ w'.started
    by_cases hji : j = i
    · subst hji
      have hs : s'.undelivered = some t := by simpa [World.put] using hj
      obtain ⟨hstarted, hown | hfresh⟩ := h.undelivered hs
      · exact hstarted ▸ hinv.undelivered _ t hown
      · exact hstarted ▸ fun hm => hfresh (hinv.started t hm)
    · have hs : (w.stage j).undelivered = some t := by
        simpa [World.put, hji, hstage] using hj
      rcases h.started with hstarted | ⟨u, hu, hstarted, _⟩
      · exact hstarted ▸ hinv.undelivered j t hs
      · rw [hstarted]
        rintro hm
        rcases List.mem_cons.mp hm with rfl | hm
        · exact hji (hinv.alone j i t (Stage.undelivered_token hs) (Stage.undelivered_token hu))
        · exact hinv.undelivered j t hs hm
  · intro t hm
    rcases h.started with hstarted | ⟨u, hu, hstarted, _⟩
    · exact hledger.tokens (hinv.started t (hstarted ▸ hm))
    · have hm : t ∈ u :: w.started := hstarted ▸ hm
      rcases List.mem_cons.mp hm with rfl | hm
      · exact hold (Stage.undelivered_token hu)
      · exact hledger.tokens (hinv.started t hm)

theorem begin_inv {i : Nat} (htoken : s.token = none) (ht : s.Timely w.clock) (hinv : Inv w) :
    Inv (w.put i s) :=
  passage_inv (e := .crash) (.still htoken) ht hinv

-- an admitted action lets time pass, starts a run, or takes one passage of a run
theorem exec_cases {a : Action τ} (ha : w.admits a = true) :
    (∃ ms, w.exec a = { w with clock := w.clock + ms }) ∨
    (∃ i s, w.exec a = w.put i s ∧ s.token = none ∧ s.Timely w.clock) ∨
    (∃ i e w' s', a = .step i e ∧ w.next (w.stage i) e = some (w', s') ∧ w.exec a = w'.put i s' ∧
      Passage w (w.stage i) e w' s') := by
  cases a with
  | tick ms => exact .inl ⟨ms, rfl⟩
  | intake run => exact .inr (.inl ⟨run, _, rfl, rfl, trivial, Nat.le_refl _⟩)
  | schedule run => exact .inr (.inl ⟨run, _, rfl, rfl, Nat.le_refl w.clock⟩)
  | step run e =>
    obtain ⟨hn, hf⟩ := Bool.and_eq_true_iff.mp ha
    obtain ⟨⟨w', s'⟩, hn⟩ := Option.isSome_iff_exists.mp hn
    exact .inr (.inr ⟨run, e, w', s', rfl, hn, by simp [World.exec, hn], next_passage hn hf⟩)

theorem exec_inv {a : Action τ} (hinv : Inv w) (ha : w.admits a = true) : Inv (w.exec a) := by
  rcases exec_cases ha with ⟨ms, h⟩ | ⟨i, s, h, htoken, ht⟩ | ⟨i, e, w', s', _, hn, h, hp⟩
  · exact h ▸ tick_inv hinv
  · exact h ▸ begin_inv htoken ht hinv
  · exact h ▸ passage_inv hp (next_timely hn (hinv.timely i)) hinv

theorem run_inv {tr : List (Action τ × Unit)} (h : protocol.Run w tr w') (hinv : Inv w) :
    Inv w' :=
  h.preserves Inv (fun _ _ => exec_inv) hinv

theorem start_inv (h : protocol.start w) : Inv w := by
  obtain ⟨clock, row, hrow, rfl⟩ := h
  exact opening_inv hrow

theorem exec_superseded {a : Action τ} (hinv : Inv w) (ha : w.admits a = true) {t : τ}
    (ht : t ∈ w.ledger.tokens) (hn : ¬ w.ledger.Held t) :
    t ∈ (w.exec a).ledger.tokens ∧ ¬ (w.exec a).ledger.Held t := by
  rcases exec_cases ha with ⟨ms, h⟩ | ⟨i, s, h, _, _⟩ | ⟨i, e, w', s', _, _, h, hp⟩
  · exact h ▸ ⟨ht, hn⟩
  · exact h ▸ ⟨ht, hn⟩
  · have hstep := hp.ledger hinv.coherent (hinv.timely i)
    exact h ▸ ⟨hstep.tokens ht, hstep.superseded ht hn⟩

theorem run_superseded {tr : List (Action τ × Unit)} (h : protocol.Run w tr w') (hinv : Inv w)
    {t : τ} (ht : t ∈ w.ledger.tokens) (hn : ¬ w.ledger.Held t) :
    t ∈ w'.ledger.tokens ∧ ¬ w'.ledger.Held t :=
  (h.preserves (fun v => Inv v ∧ t ∈ v.ledger.tokens ∧ ¬ v.ledger.Held t)
    (fun _ _ hv ha => ⟨exec_inv hv.1 ha, exec_superseded hv.1 ha hv.2.1 hv.2.2⟩)
    ⟨hinv, ht, hn⟩).2

theorem Passage.fenced (h : Passage w s e w' s') (hrow : w.row.Coherent) {t : τ}
    (ht : s.token = some t) (hn : ¬ w.ledger.Held t) : w'.row = w.row := by
  have lost {u : τ} (hu : s.token = some u) (held : w.row.heldBy u = true) : False := by
    obtain rfl : u = t := Option.some.inj (hu.symm.trans ht)
    exact hn (hrow.current (heldBy_iff.mp held).2)
  cases h with
  | quiet _ _ => rfl
  | claim _ _ _ _ at_ _ _ _ => simp [Stage.claimUtc_token at_] at ht
  | record _ _ _ holds held _ => exact (lost holds held).elim
  | release _ holds held => exact (lost (Stage.undelivered_token holds) held).elim
  | deliver _ _ _ _ => rfl

theorem step_fenced {i : Nat} (hinv : Inv w) (ha : w.admits (.step i e) = true) {t : τ}
    (ht : (w.stage i).token = some t) (hn : ¬ w.ledger.Held t) :
    (w.exec (.step i e)).row = w.row := by
  rcases exec_cases ha with ⟨ms, h⟩ | ⟨j, s, h, _, _⟩ | ⟨j, e', w', s', ha, _, h, hp⟩
  · exact h ▸ rfl
  · exact h ▸ rfl
  · cases ha
    exact h ▸ hp.fenced hinv.coherent ht hn

theorem Passage.sent (h : Passage w s e w' s') (hsent : w.row.notificationStatus = .sent) :
    w'.row = w.row := by
  have closed : ¬ w.row.unsent = true := by simp [CaseRow.unsent, hsent]
  cases h with
  | quiet _ _ => rfl
  | claim _ _ _ _ _ _ claimable _ => exact absurd (claimable_room claimable).1 closed
  | record _ _ _ _ held _ => exact absurd (heldBy_iff.mp held).1 closed
  | release _ _ held => exact absurd (heldBy_iff.mp held).1 closed
  | deliver _ _ _ _ => rfl

theorem exec_sent {a : Action τ} (ha : w.admits a = true)
    (hsent : w.row.notificationStatus = .sent) : (w.exec a).row = w.row := by
  rcases exec_cases ha with ⟨ms, h⟩ | ⟨i, s, h, _, _⟩ | ⟨i, e, w', s', _, _, h, hp⟩
  · exact h ▸ rfl
  · exact h ▸ rfl
  · exact h ▸ hp.sent hsent

theorem run_sent {tr : List (Action τ × Unit)} (h : protocol.Run w tr w')
    (hsent : w.row.notificationStatus = .sent) : w'.row = w.row :=
  h.preserves (fun v => v.row = w.row)
    (fun _ _ hv ha => (exec_sent ha (hv ▸ hsent)).trans hv) rfl

-- no claim replaces one whose delivery has started, and no delivery starts under a lost claim
def Undisturbed (w : World τ) : Action τ → Bool
  | .step i (.claim _ reply) =>
    !reply.ran || (w.stage i).claimUtc.all fun utc =>
      !w.row.claimable utc ||
        w.row.notificationClaimTokenSha256.all fun t => decide (t ∉ w.started)
  | .step i (.capacity true) =>
    decide ((w.stage i).token = w.row.notificationClaimTokenSha256)
  | _ => true

def World.inFlight (w : World τ) : Nat :=
  match w.row.notificationClaimTokenSha256 with
  | some t => if t ∈ w.started then 1 else 0
  | none => 0

theorem inFlight_some {t : τ} (h : w.row.notificationClaimTokenSha256 = some t) :
    w.inFlight = if t ∈ w.started then 1 else 0 := by
  simp [World.inFlight, h]

theorem inFlight_none (h : w.row.notificationClaimTokenSha256 = none) : w.inFlight = 0 := by
  simp [World.inFlight, h]

theorem inFlight_le : w.inFlight ≤ 1 := by
  unfold World.inFlight
  split
  · split <;> omega
  · omega

def Counted (w : World τ) : Prop :=
  w.started.length ≤ w.row.notificationAttemptCount + w.inFlight

theorem Counted.bound (h : Counted w) (hrow : w.row.Coherent) :
    w.started.length ≤ maxNotificationAttempts := by
  have hle : w.inFlight ≤ 1 := inFlight_le
  unfold Counted at h
  rcases ht : w.row.notificationClaimTokenSha256 with _ | t
  · have := hrow.counted
    rw [inFlight_none ht] at h
    omega
  · have := (hrow.claimed t ht).2
    omega

theorem Passage.counted {i : Nat} (h : Passage w (w.stage i) e w' s') (hinv : Inv w)
    (hg : Undisturbed w (.step i e) = true) (hc : Counted w) : Counted w' := by
  unfold Counted at *
  cases h with
  | quiet _ _ => exact hc
  | claim t utc reply ran at_ fresh claimable _ =>
    have hquiet : w.inFlight = 0 := by
      rcases ht : w.row.notificationClaimTokenSha256 with _ | u
      · exact inFlight_none ht
      · have hu : u ∉ w.started := by simpa [Undisturbed, ran, at_, claimable, ht] using hg
        rw [inFlight_some ht, if_neg hu]
    rw [hquiet] at hc
    rw [w.claim_rest.2.2.2, (w.claim_row claimable).1]
    exact Nat.le_trans hc (Nat.le_add_right _ _)
  | record t sent utc _ held _ =>
    have hle : w.inFlight ≤ 1 := inFlight_le
    obtain ⟨hcount, _⟩ := @World.record_row _ _ w _ sent utc held
    rw [w.record_rest.2.2.2, hcount]
    omega
  | release t holds held =>
    have hquiet : w.inFlight = 0 := by
      rw [inFlight_some (heldBy_iff.mp held).2, if_neg (hinv.undelivered i t holds)]
    obtain ⟨hcount, _⟩ := w.release_row held
    rw [w.release_rest.2.2.2, hcount]
    omega
  | deliver caller t utc hs =>
    have htoken : w.row.notificationClaimTokenSha256 = some t := by
      have : (w.stage i).token = w.row.notificationClaimTokenSha256 := of_decide_eq_true hg
      rw [← this, hs]
      rfl
    have hquiet : w.inFlight = 0 := by
      rw [inFlight_some htoken, if_neg (hinv.undelivered i t (hs ▸ rfl))]
    have hflight : (w.deliver t).inFlight = 1 := by
      have hm : t ∈ (w.deliver t).started := List.mem_cons_self
      rw [inFlight_some (w := w.deliver t) htoken, if_pos hm]
    rw [hflight]
    rw [hquiet] at hc
    exact Nat.succ_le_succ hc

theorem exec_counted {a : Action τ} (hinv : Inv w) (ha : w.admits a = true)
    (hg : Undisturbed w a = true) (hc : Counted w) : Counted (w.exec a) := by
  rcases exec_cases ha with ⟨ms, h⟩ | ⟨i, s, h, _, _⟩ | ⟨i, e, w', s', rfl, _, h, hp⟩
  · exact h ▸ hc
  · exact h ▸ hc
  · exact h ▸ hp.counted hinv hg hc

theorem run_counted {tr : List (Action τ × Unit)}
    (h : (protocol.restrict fun v a => Undisturbed v a = true).Run w tr w') (hinv : Inv w)
    (hc : Counted w) : Counted w' := by
  have step (v : World τ) (a : Action τ) (hv : Inv v ∧ Counted v)
      (ha : v.admits a = true ∧ Undisturbed v a = true) : Inv (v.exec a) ∧ Counted (v.exec a) :=
    ⟨exec_inv hv.1 ha.1, exec_counted hv.1 ha.1 ha.2 hv.2⟩
  exact (h.preserves (fun v => Inv v ∧ Counted v) step ⟨hinv, hc⟩).2

theorem start_counted (h : protocol.start w) : Counted w := by
  obtain ⟨clock, row, _, rfl⟩ := h
  exact Nat.zero_le _

theorem notification_claims {tr : List (Action τ × Unit)} (h₀ : protocol.start w₀)
    (h : protocol.Run w₀ tr w) :
    (∀ c d, w.ledger.Outstanding c → w.ledger.Outstanding d → w.clock < c.expires →
      w.clock < d.expires → c = d) ∧
    (∀ t ∈ w.ledger.tokens, ¬ w.ledger.Held t → ∀ tr' w', protocol.Run w tr' w' →
      ¬ w'.ledger.Held t ∧ ∀ i e, w'.admits (.step i e) = true → (w'.stage i).token = some t →
        (w'.exec (.step i e)).row = w'.row) ∧
    (w.row.notificationStatus = .sent → ∀ tr' w', protocol.Run w tr' w' →
      w'.row.notificationStatus = .sent) ∧
    ((protocol.restrict fun v a => Undisturbed v a = true).Run w₀ tr w →
      w.started.length ≤ maxNotificationAttempts) := by
  have hinv : Inv w := run_inv h (start_inv h₀)
  refine ⟨fun c d => one_unexpired_claim hinv, ?_, ?_, ?_⟩
  · intro t ht hn tr' w' hr
    have hs := (run_superseded hr hinv ht hn).2
    exact ⟨hs, fun i e ha hi => step_fenced (run_inv hr hinv) ha hi hs⟩
  · intro hsent tr' w' hr
    rw [run_sent hr hsent]
    exact hsent
  · intro hquiet
    exact (run_counted hquiet (start_inv h₀) (start_counted h₀)).bound hinv.coherent

instance (w : World τ) (a : Action τ) : Decidable (protocol.admits w a) :=
  inferInstanceAs (Decidable (w.admits a = true))

def pendingRow : CaseRow Nat := ⟨.pending, 0, none, none, none, none⟩

theorem pending_start : protocol.start (opening 0 pendingRow) :=
  ⟨0, pendingRow, ⟨by decide, rfl, rfl⟩, rfl⟩

def recordedDelivery : List (Action Nat) :=
  [.intake 0, .step 0 (.claim 0 .answered), .step 0 (.capacity true), .step 0 (.delivered true),
    .step 0 (.write .answered)]

theorem notification_claims_sent :
    (protocol.play (opening 0 pendingRow) recordedDelivery).1.row.notificationStatus = .sent ∧
    (protocol.play (opening 0 pendingRow) recordedDelivery).1.started.length ≤
      maxNotificationAttempts := by
  have hchecked : protocol.AdmitsAll (opening 0 pendingRow) recordedDelivery ∧
      (protocol.restrict fun v a => Undisturbed v a = true).AdmitsAll (opening 0 pendingRow)
        recordedDelivery := by decide
  exact ⟨by decide, (notification_claims pending_start
    (protocol.run_play _ _ hchecked.1)).2.2.2 (Machine.run_play _ _ hchecked.2)⟩

-- each round claims, starts its delivery, crashes, and lets the claim expire
def crashedRound (round : Nat) : List (Action Nat) :=
  [.intake 0, .step 0 (.claim round .answered), .step 0 (.capacity true), .step 0 .crash,
    .tick notificationClaimTtlMs]

theorem crashed_deliveries_unbounded :
    ∃ (w₀ w : World Nat) (tr : List (Action Nat × Unit)), protocol.start w₀ ∧
      protocol.Run w₀ tr w ∧ maxNotificationAttempts < w.started.length := by
  have hchecked : protocol.AdmitsAll (opening 0 pendingRow)
        ((List.range 13).flatMap crashedRound) ∧
      maxNotificationAttempts < (protocol.play (opening 0 pendingRow)
        ((List.range 13).flatMap crashedRound)).1.started.length := by decide +kernel
  exact ⟨_, _, _, pending_start, protocol.run_play _ _ hchecked.1, hchecked.2⟩

end PeerBridge.Notification
