import PeerBridge.Preservation
import PeerBridge.Scenario

namespace PeerBridge.Starvation
open Checked Rows

-- a claim without message, room or route filter
def plainClaim (leaseSeconds maxAttempts : Int) : ClaimArgs := { leaseSeconds, maxAttempts }

def plainRequest (leaseSeconds maxAttempts : Int) : ClaimRequest :=
  { messageId := none, roomId := none, routeProfileId := none, requireRoute := false,
    leaseSeconds := clamp 30 maxLeaseSeconds leaseSeconds,
    maxAttempts := clamp 1 100 maxAttempts }

-- what the query asks of a message
structure Listed (b : Bridge) (m : Mail) (row : MessageRow) : Prop where
  mem : row ∈ m.messages
  scope : row.scope = b.scope
  addressed : addressedTo row b.agentId = true
  foreign : row.sender ≠ b.agentId
  opening : row.replyTo = none ∨ row.isPrompt = true
  pending : m.receipt? row.scope row.messageId b.agentId = none
  discussed : ∀ d ∈ row.discussionId, m.discussionIn row.scope d [.active] = true

-- what the loop asks of its dispatch
structure Due (c : Ctx) (maxAttempts : Int) (m : Mail) (row : MessageRow) : Prop where
  unfinished : ∀ d ∈ m.dispatch? row.scope row.messageId c.self.agentId, d.status.terminal = false
  retried : ∀ d ∈ m.dispatch? row.scope row.messageId c.self.agentId, d.status = .retryable →
    ∀ r ∈ m.dispatchSchedule? row.scope row.messageId c.self.agentId,
      r.notBeforeEpoch ≤ c.clock.entry
  expired : ∀ d ∈ m.dispatch? row.scope row.messageId c.self.agentId, d.status = .claimed →
    d.leaseExpiresEpoch.getD 0 ≤ c.clock.entry
  attempts : (((m.dispatch? row.scope row.messageId c.self.agentId).map
    DispatchRow.attemptCount).getD 0 : Int) < clamp 1 100 maxAttempts

structure Ready (P : Platform) (c : Ctx) (maxAttempts : Int) (s : Store) (row : MessageRow) :
    Prop where
  listed : Listed c.self s.mail row
  member : isOk (requireRoomMember c.self row.roomId c.self.agentId s.rooms) = true
  route : (evaluateRoute P c.self c.self.agentId s.rooms row).status ≠ .mismatch
  due : Due c maxAttempts s.mail row

section Candidates
variable {P : Platform} {c : Ctx} {n k : Int} {s : Store} {row : MessageRow}

theorem requireClaimRequest_plain : requireClaimRequest (plainClaim n k) = .ok (plainRequest n k) := by
  have hempty : ∀ label, optionalIdentifier "" label = .ok none := fun label => by
    rw [optionalIdentifier, if_pos (by decide +kernel)]
    rfl
  simp only [requireClaimRequest, plainClaim, hempty]
  rfl

theorem claimWhere_plain (hmem : row ∈ s.mail.messages) :
    claimWhere c.self (plainRequest n k) s.mail row = true ↔ Listed c.self s.mail row := by
  simp only [claimWhere, plainRequest, Bool.and_eq_true, Bool.or_eq_true, decide_eq_true_eq,
    Option.isNone_iff_eq_none, Bool.not_false, Bool.true_or, Option.all_none, and_true,
    Option.all_eq_true, and_assoc]
  constructor
  · rintro ⟨h1, h2, h3, h4, h5, h6⟩
    exact ⟨hmem, h1, h2, h3, h4, h5, h6⟩
  · rintro ⟨-, h1, h2, h3, h4, h5, h6⟩
    exact ⟨h1, h2, h3, h4, h5, h6⟩

theorem dispatchReady_sealed (epoch : ℚ) (limit : Int) (d : Option DispatchRow)
    {r : Option RetryScheduleRow}
    (hr : ∀ x ∈ r, (sealSchedule P x).scheduleSha256 = x.scheduleSha256) :
    ∃ ready, dispatchReady P epoch limit d r = .ok ready ∧
      (ready = true ↔ (∀ x ∈ d, x.status.terminal = false) ∧
        (∀ x ∈ d, x.status = .retryable → ∀ y ∈ r, y.notBeforeEpoch ≤ epoch) ∧
        (∀ x ∈ d, x.status = .claimed → x.leaseExpiresEpoch.getD 0 ≤ epoch) ∧
        ((d.map DispatchRow.attemptCount).getD 0 : Int) < limit) := by
  have hsealed : r.all (fun x => (sealSchedule P x).scheduleSha256 = x.scheduleSha256) = true := by
    simpa [Option.all_eq_true] using hr
  unfold dispatchReady
  simp only [hsealed]
  cases d with
  | none => exact ⟨_, rfl, by simp⟩
  | some x =>
    by_cases hterminal : x.status.terminal = true
    · exact ⟨false, by simp [hterminal], by simp [hterminal]⟩
    · by_cases hretry : x.status = .retryable ∧ r.any (fun y => epoch < y.notBeforeEpoch) = true
      · refine ⟨false, by simp [hretry, require, bind, Except.bind], ?_⟩
        obtain ⟨hstatus, hlate⟩ := hretry
        obtain ⟨y, hy, hlate⟩ := (Option.any_eq_true _ _).mp hlate
        simp only [Bool.false_eq_true, false_iff]
        rintro ⟨-, hdue, -⟩
        exact absurd (hdue x rfl hstatus y hy) (not_le.mpr (by simpa using hlate))
      · by_cases hheld : x.status = .claimed ∧ epoch < x.leaseExpiresEpoch.getD 0
        · refine ⟨false, by simp [hheld, require, bind, Except.bind], ?_⟩
          simp only [Bool.false_eq_true, false_iff]
          rintro ⟨-, -, hexpired, -⟩
          exact absurd (hexpired x rfl hheld.1) (not_le.mpr hheld.2)
        · refine ⟨decide ((x.attemptCount : Int) < limit), ?_, ?_⟩
          · have hnoretry : ¬ (some x.status = some .retryable ∧
                r.any (fun y => epoch < y.notBeforeEpoch) = true) :=
              fun h => hretry ⟨Option.some.inj h.1, h.2⟩
            have hfree : ¬ (some x.status = some .claimed ∧
                epoch < x.leaseExpiresEpoch.getD 0) := fun h => hheld ⟨Option.some.inj h.1, h.2⟩
            exact (if_neg hterminal).trans ((if_neg hnoretry).trans (if_neg hfree))
          · simp only [decide_eq_true_eq, Option.mem_some_iff, forall_eq']
            refine ⟨fun hlimit => ⟨by simpa using hterminal, fun hstatus y hy => ?_,
              fun hstatus => ?_, hlimit⟩, fun h => h.2.2.2⟩
            · by_contra hlate
              exact hretry ⟨hstatus, (Option.any_eq_true _ _).mpr
                ⟨y, hy, by simpa using not_le.mp hlate⟩⟩
            · exact not_lt.mp (fun hlive => hheld ⟨hstatus, hlive⟩)

theorem dispatchReady_total (hs : ∀ r ∈ s.mail.retrySchedules,
      (sealSchedule P r).scheduleSha256 = r.scheduleSha256) :
    ∃ ready, dispatchReady P c.clock.entry (clamp 1 100 k)
        (s.mail.dispatch? row.scope row.messageId c.self.agentId)
        (s.mail.dispatchSchedule? row.scope row.messageId c.self.agentId) = .ok ready ∧
      (ready = true ↔ Due c k s.mail row) := by
  have hsealed : ∀ x ∈ s.mail.dispatchSchedule? row.scope row.messageId c.self.agentId,
      (sealSchedule P x).scheduleSha256 = x.scheduleSha256 := by
    intro x hx
    obtain ⟨d, -, hd⟩ := Option.bind_eq_some_iff.mp hx
    exact hs x (lookup_mem hd)
  obtain ⟨ready, hok, hiff⟩ := dispatchReady_sealed c.clock.entry (clamp 1 100 k)
    (s.mail.dispatch? row.scope row.messageId c.self.agentId) hsealed
  refine ⟨ready, hok, hiff.trans ?_⟩
  constructor
  · rintro ⟨h1, h2, h3, h4⟩
    exact ⟨h1, h2, h3, h4⟩
  · rintro ⟨h1, h2, h3, h4⟩
    exact ⟨h1, h2, h3, h4⟩

theorem considerCandidate_total (hs : ∀ r ∈ s.mail.retrySchedules,
      (sealSchedule P r).scheduleSha256 = r.scheduleSha256)
    (hlisted : Listed c.self s.mail row) :
    ∃ ready, considerCandidate P c (plainRequest n k) s row = .ok ready ∧
      (ready = true ↔ Ready P c k s row) := by
  obtain ⟨ready, hready, hdue⟩ := @dispatchReady_total _ c k _ row hs
  by_cases hmember : isOk (requireRoomMember c.self row.roomId c.self.agentId s.rooms) = true
  · by_cases hroute : (evaluateRoute P c.self c.self.agentId s.rooms row).status = .mismatch
    · refine ⟨false, by simp [considerCandidate, hmember, hroute, plainRequest], ?_⟩
      simp only [Bool.false_eq_true, false_iff]
      exact fun h => h.route hroute
    · refine ⟨ready, ?_, hdue.trans ⟨fun h => ⟨hlisted, hmember, hroute, h⟩, Ready.due⟩⟩
      simpa [considerCandidate, hmember, hroute, plainRequest, requireRoute, require, bind,
        Except.bind] using hready
  · refine ⟨false, by simp [considerCandidate, hmember], ?_⟩
    simp only [Bool.false_eq_true, false_iff]
    exact fun h => hmember h.member

theorem selectCandidate_plain (hs : ∀ r ∈ s.mail.retrySchedules,
      (sealSchedule P r).scheduleSha256 = r.scheduleSha256) {rows : List MessageRow}
    (hlisted : ∀ row ∈ rows, Listed c.self s.mail row) :
    (selectCandidate P c (plainRequest n k) s rows = .ok none ∧
      ∀ row ∈ rows, ¬ Ready P c k s row) ∨
    ∃ before row after, rows = before ++ row :: after ∧ (∀ x ∈ before, ¬ Ready P c k s x) ∧
      Ready P c k s row ∧ selectCandidate P c (plainRequest n k) s rows = .ok (some row) := by
  induction rows with
  | nil => exact .inl ⟨rfl, by simp⟩
  | cons row rows ih =>
    obtain ⟨hrow, hrows⟩ := List.forall_mem_cons.mp hlisted
    obtain ⟨ready, hready, hiff⟩ := considerCandidate_total (n := n) (k := k) hs hrow
    cases ready with
    | true =>
      refine .inr ⟨[], row, rows, rfl, by simp, hiff.mp rfl, ?_⟩
      simp [selectCandidate, hready, bind, Except.bind, pure, Except.pure]
    | false =>
      have hnot : ¬ Ready P c k s row := fun h => by simpa using hiff.mpr h
      have hnext : selectCandidate P c (plainRequest n k) s (row :: rows) =
          selectCandidate P c (plainRequest n k) s rows := by
        simp [selectCandidate, hready, bind, Except.bind]
      rw [hnext]
      rcases ih hrows with ⟨hnone, hall⟩ | ⟨before, x, after, rfl, hbefore, hx, hsome⟩
      · exact .inl ⟨hnone, List.forall_mem_cons.mpr ⟨hnot, hall⟩⟩
      · exact .inr ⟨row :: before, x, after, rfl, List.forall_mem_cons.mpr ⟨hnot, hbefore⟩, hx, hsome⟩

end Candidates

-- every message the query would give without its cut, in the order of its sequence
def listing (c : Ctx) (n k : Int) (m : Mail) : List MessageRow :=
  m.messages.filter (claimWhere c.self (plainRequest n k) m)

-- the audit entry of the claim
def logClaim (P : Platform) (c : Ctx) (n k : Int) (s : Store) (row : MessageRow) :
    Except BridgeError (Store × Sha256) :=
  let dispatch := claimedDispatch P c (plainRequest n k) s.mail row
  (s.withMail (s.mail.putDispatch dispatch)).event P c "message.dispatch_claimed"
    [("message_id", .str row.messageId), ("room_id", .str row.roomId),
      ("attempt_count", .int dispatch.attemptCount),
      ("lease_expires_epoch", .epoch dispatch.leaseExpiresEpoch),
      ("dispatch_sha256", .sha dispatch.dispatchSha256)] (some row.taskId)

def InReach (P : Platform) (c : Ctx) (n k : Int) (s : Store) : Prop :=
  ∃ before row after, listing c n k s.mail = before ++ row :: after ∧
    before.length < claimScanLimit ∧ (∀ x ∈ before, ¬ Ready P c k s x) ∧ Ready P c k s row ∧
    ∃ x, logClaim P c n k s row = .ok x

section Claims
variable {P : Platform} {c : Ctx} {n k : Int} {s : Store} {w : World}

theorem first_unique {α : Type} {p : α → Prop} {xs ys us vs : List α} {x u : α}
    (hxs : ∀ y ∈ xs, ¬ p y) (hx : p x) (hus : ∀ y ∈ us, ¬ p y) (hu : p u)
    (h : xs ++ x :: ys = us ++ u :: vs) : x = u := by
  induction xs generalizing us with
  | nil =>
    cases us with
    | nil => exact List.head_eq_of_cons_eq h
    | cons z us =>
      obtain rfl := List.head_eq_of_cons_eq h
      exact absurd hx (hus x List.mem_cons_self)
  | cons z xs ih =>
    obtain ⟨hz, hxs⟩ := List.forall_mem_cons.mp hxs
    cases us with
    | nil =>
      obtain rfl := List.head_eq_of_cons_eq h
      exact absurd hu hz
    | cons w us => exact ih hxs (List.forall_mem_cons.mp hus).2 (List.tail_eq_of_cons_eq h)

theorem claim_plain (hs : ∀ r ∈ s.mail.retrySchedules,
      (sealSchedule P r).scheduleSha256 = r.scheduleSha256) :
    (∃ s' g, claimMessageDispatch P c (plainClaim n k) s = .ok (s', some g)) ↔
      InReach P c n k s := by
  have hcut : claimCandidates c.self (plainRequest n k) s.mail =
      (listing c n k s.mail).take claimScanLimit := rfl
  have hlisted : ∀ row ∈ (listing c n k s.mail).take claimScanLimit, Listed c.self s.mail row := by
    intro row hrow
    obtain ⟨hmem, hwhere⟩ := List.mem_filter.mp (List.mem_of_mem_take hrow)
    exact (claimWhere_plain hmem).mp hwhere
  simp only [claimMessageDispatch, requireClaimRequest_plain, bind_eq_ok, Except.ok.injEq,
    exists_eq_left', hcut]
  rcases selectCandidate_plain (n := n) (k := k) hs hlisted with
    ⟨hnone, hall⟩ | ⟨before, row, after, hrows, hbefore, hready, hsome⟩
  · constructor
    · rintro ⟨s', g, selected, hsel, h⟩
      obtain rfl := Except.ok.inj (hnone.symm.trans hsel)
      simp only [bind_eq_ok, pure_eq_ok, Prod.mk.injEq] at h
      obtain ⟨-, -, -, hclaimed⟩ := h
      cases hclaimed
    · rintro ⟨before, row, after, hlist, hlen, -, hready, -⟩
      refine absurd hready (hall row ?_)
      obtain ⟨m, hm⟩ : ∃ m, claimScanLimit = before.length + (m + 1) :=
        ⟨claimScanLimit - before.length - 1, by omega⟩
      rw [hlist, hm, List.take_length_add_append, List.take_succ_cons]
      exact List.mem_append_right _ List.mem_cons_self
  · constructor
    · rintro ⟨s', g, selected, hsel, h⟩
      obtain rfl := Except.ok.inj (hsome.symm.trans hsel)
      simp only [bind_eq_ok] at h
      obtain ⟨x, hx, -⟩ := h
      refine ⟨before, row, after ++ (listing c n k s.mail).drop claimScanLimit, ?_, ?_, hbefore,
        hready, x, hx⟩
      · rw [← List.cons_append, ← List.append_assoc, ← hrows, List.take_append_drop]
      · have hlen := congrArg List.length hrows
        rw [List.length_take, List.length_append, List.length_cons] at hlen
        omega
    · rintro ⟨before', row', after', hlist, hlen, hbefore', hready', x, hx⟩
      obtain rfl : row = row' := by
        refine @first_unique _ _ _ (after ++ (listing c n k s.mail).drop claimScanLimit) _ after' _ _
          hbefore hready hbefore' hready' ?_
        rw [← hlist, ← List.cons_append, ← List.append_assoc, ← hrows, List.take_append_drop]
      exact ⟨x.1, _, some row, hsome, by
        simp only [bind_eq_ok]
        exact ⟨x, hx, rfl⟩⟩

def claimsSome (r : Except BridgeError Reply) : Prop := ∃ g, r = .ok (.claimed (some g))

instance : DecidablePred claimsSome
  | .ok (.claimed (some g)) => isTrue ⟨g, rfl⟩
  | .ok (.claimed none) | .ok .done | .ok (.completed _) | .ok (.advanced _) | .error _ =>
    isFalse (by
      rintro ⟨g, hg⟩
      cases hg)

theorem exec_claim : claimsSome ((mailbox P).exec w (.claim (plainClaim n k), c)).2 ↔
    ∃ s g, claimMessageDispatch P c (plainClaim n k) w.store = .ok (s, some g) := by
  cases hx : claimMessageDispatch P c (plainClaim n k) w.store with
  | error e => simp [claimsSome, mailbox, attempt, perform, replyWith, hx, bind, Except.bind]
  | ok x =>
    obtain ⟨s, g⟩ := x
    simp [claimsSome, mailbox, attempt, perform, replyWith, hx, bind, Except.bind, pure,
      Except.pure]

-- a message that could be claimed is claimed, or an earlier one is
theorem claim_starves_iff (hw : (mailbox P).Reachable w) (c : Ctx) (leaseSeconds maxAttempts : Int) :
    ((∃ row, Ready P c maxAttempts w.store row) →
      claimsSome ((mailbox P).exec w (.claim (plainClaim leaseSeconds maxAttempts), c)).2) ↔
    ((∃ row, Ready P c maxAttempts w.store row) →
      InReach P c leaseSeconds maxAttempts w.store) := by
  rw [exec_claim, claim_plain (reachable_wf hw).mail.sealed]

end Claims

end PeerBridge.Starvation
