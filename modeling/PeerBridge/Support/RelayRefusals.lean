import PeerBridge.Support.RelayDelivery

namespace PeerBridge.Relay
open Interrupt Rows

-- the reads and writes of properties succeed
structure Calm (w : Weather) : Prop where
  readSecret : w.readSecret = .done
  readAll : w.readAll = .done
  readCase : w.readCase = .done
  readDay : w.readDay = .done
  readUnresolved : w.readUnresolved = .done
  readEmail : w.readEmail = .done
  migrate : ∀ c, w.migrate c = .done
  expire : ∀ c, w.expire c = .done
  expireDay : ∀ d, w.expireDay d = .done
  opening : w.opening = .done
  sent : w.sent = .done
  uncertain : w.uncertain = .done

-- the checks of doPost between the clean-up and the pending marker
def examine (w : Weather) (a : Accepted) : Request (Option CaseState × Nat) := do
  let stored ← Interrupt.read w.readCase (fun s => caseOf a.caseId s.cases)
  let prior ← admitCase w a stored
  let dayCount ← Interrupt.read w.readDay (fun s => s.dayCount w.day)
  require (prior.isSome = true ∨ dayCount < maxNewCasesPerUtcDay) (.failed "daily_quota_reached")
  Interrupt.read w.readQuota (fun _ => ())
  require (w.quota.any (fun n => decide (protectedMailQuotaReserve < n)) = true)
    (.failed "protected_notification_capacity_reserved")
  requireCapacity w prior
  pure (prior, dayCount)

def destination (w : Weather) : String := String.ofList (trimBlanks w.supportEmail.toList)

section Parts
variable (S : Services)

-- the pending marker, and the mail
def dispatch (w : Weather) (a : Accepted) (opened : Option CaseState × Nat) : Request Reply := do
  let replyEmail := if S.isEmail (cleanLine a.replyEmail 320) then cleanLine a.replyEmail 320 else ""
  w.opening.act (openDelivery w a opened.1 opened.2)
  Interrupt.read w.readEmail (fun _ => ())
  require (S.isEmail (destination w) = true) (.failed "support_destination_unavailable")
  sendAndSettle w a (pendingState w a opened.1) (messageOf a (destination w) replyEmail)

theorem deliver_eq (w : Weather) (a : Accepted) :
    deliver S w a = cleanupExpiredState S w >>= fun _ => examine w a >>= dispatch S w a := by
  simp only [deliver, examine, dispatch, bind_assoc, pure_bind, destination]
  rfl

-- the properties after the clean-up, which a request reaches under the lock
def swept (w : Weather) (contents : Contents) (s : Script) : Script :=
  match (readRequest S w contents s).2 with
  | .ok _ => if w.locked = true then (cleanupExpiredState S w s).1 else s
  | .error _ => s

def sends (j : List Effect) : Nat := j.countP (fun e => match e with | .mail _ _ => true | _ => false)

structure Untouched (base t : Script) : Prop where
  cases : ∀ c, caseOf c t.cases = caseOf c base.cases
  daily : t.daily = base.daily
  unresolved : unresolvedDeliveryCount t.cases = unresolvedDeliveryCount base.cases

-- an error without a send has changed nothing but what the clean-up did
def LeavesNoTrace (w : Weather) (contents : Contents) (s : Script) : Prop :=
  ∀ code, (doPost S w contents s).2 = .error (.answered (.failed code)) →
    sends (doPost S w contents s).1.journal = sends s.journal →
    Untouched (swept S w contents s) (doPost S w contents s).1

-- the request passes every check that stands before the pending marker
def Opens (w : Weather) (contents : Contents) (s : Script) : Prop :=
  w.locked = true ∧ ∃ a opened, (readRequest S w contents s).2 = .ok a ∧
    (examine w a (cleanupExpiredState S w s).1).2 = .ok opened

end Parts

section Reading
variable {S : Services} {w : Weather}

theorem decodeAndVerifyBundle_steady (encoded expectedSha : String) :
    Steady (decodeAndVerifyBundle S encoded expectedSha) := by
  refine (Steady.require _ _).bind fun _ => ?_
  split
  · exact .answer _
  · exact (Steady.require _ _).bind fun _ => (Steady.require _ _).bind fun _ => .pure _

theorem readRequest_steady (contents : Contents) : Steady (readRequest S w contents) := by
  unfold readRequest
  split
  · exact .answer _
  · refine (Steady.require _ _).bind fun _ => ?_
    split
    · exact .answer _
    · refine (Steady.require _ _).bind fun _ => (Steady.require _ _).bind fun _ =>
        (Steady.require _ _).bind fun _ => ?_
      refine Steady.bind ((Steady.require _ _).bind fun _ => (Steady.read _ _).bind fun _ =>
        .require _ _) fun _ => ?_
      refine (decodeAndVerifyBundle_steady _ _).bind fun _ => ?_
      exact (Steady.require _ _).bind fun _ => .pure _

theorem admitCase_steady (a : Accepted) (stored : Option Stored) :
    Steady (admitCase w a stored) := by
  unfold admitCase
  split
  · exact .pure _
  · exact .answer _
  · exact (Steady.require _ _).bind fun _ => .answer _
  · exact (Steady.require _ _).bind fun _ => (Steady.require _ _).bind fun _ =>
      (Steady.require _ _).bind fun _ => (Steady.require _ _).bind fun _ => .pure _

theorem requireCapacity_steady (prior : Option CaseState) : Steady (requireCapacity w prior) := by
  unfold requireCapacity
  split
  · exact .pure _
  · exact (Steady.read _ _).bind fun _ => .require _ _

theorem examine_steady (a : Accepted) : Steady (examine w a) := by
  refine (Steady.read _ _).bind fun stored => (admitCase_steady a stored).bind fun prior => ?_
  refine (Steady.read _ _).bind fun _ => (Steady.require _ _).bind fun _ => ?_
  refine (Steady.read _ _).bind fun _ => (Steady.require _ _).bind fun _ => ?_
  exact (requireCapacity_steady prior).bind fun _ => .pure _

end Reading

section Sweeping
variable {S : Services} {w : Weather}

theorem sends_snoc (j : List Effect) (e : Effect) :
    sends (j ++ [e]) = sends j + sends [e] := List.countP_append

theorem cleanupCase_calm (hw : Calm w) (n : Nat) (q : String × Stored) :
    Meets (fun s => sends s.journal = n) (cleanupCase w q) (fun _ s => sends s.journal = n)
      (fun _ => False) (fun _ => False) := by
  unfold cleanupCase
  split
  · exact .pure fun _ h => h
  · rw [hw.migrate]
    exact fun s h => (sends_snoc s.journal _).trans h
  · split
    · rw [hw.expire]
      exact fun s h => (sends_snoc s.journal _).trans h
    · exact .pure fun _ h => h

theorem cleanupDay_calm (hw : Calm w) (n : Nat) (q : String × Nat) :
    Meets (fun s => sends s.journal = n) (cleanupDay S w q) (fun _ s => sends s.journal = n)
      (fun _ => False) (fun _ => False) := by
  unfold cleanupDay
  split
  · exact .pure fun _ h => h
  · split
    · rw [hw.expireDay]
      exact fun _ h => h
    · exact .pure fun _ h => h

theorem cleanup_calm (hw : Calm w) (n : Nat) :
    Meets (fun s => sends s.journal = n) (cleanupExpiredState S w) (fun _ s => sends s.journal = n)
      (fun _ => False) (fun _ => False) := by
  unfold cleanupExpiredState
  rw [hw.readAll]
  have hread : Meets (fun s => sends s.journal = n)
      (Interrupt.read .done (fun s => (s.cases, s.daily)) : Request (Cases × _))
      (fun _ s => sends s.journal = n) (fun _ => False) (fun _ => False) := fun _ h => h
  refine hread.bind fun values => ?_
  refine (Meets.eachRest (I := fun _ (s : Script) => sends s.journal = n)
    (fun q _ => cleanupCase_calm hw n q) values.1).bind fun _ => ?_
  exact Meets.eachRest (I := fun _ (s : Script) => sends s.journal = n)
    (fun q _ => cleanupDay_calm hw n q) values.2

theorem cleanup_run (hw : Calm w) (s : Script) :
    cleanupExpiredState S w s = ((cleanupExpiredState S w s).1, .ok ()) ∧
      sends (cleanupExpiredState S w s).1.journal = sends s.journal := by
  have h := cleanup_calm (S := S) hw _ s rfl
  match hr : cleanupExpiredState S w s with
  | (t, .ok ()) =>
    rw [hr] at h
    exact ⟨rfl, h⟩
  | (t, .error .thrown) =>
    rw [hr] at h
    exact h.elim
  | (t, .error .crashed) =>
    rw [hr] at h
    exact h.elim
  | (t, .error (.answered r)) =>
    rw [hr] at h
    exact h.elim

theorem deliver_run (hw : Calm w) (a : Accepted) (s : Script) :
    deliver S w a s = (examine w a >>= dispatch S w a) (cleanupExpiredState S w s).1 := by
  rw [deliver_eq, bind_apply, (cleanup_run hw s).1]

end Sweeping

section Dispatch
variable {S : Services} {w : Weather} {a : Accepted} {opened : Option CaseState × Nat}

theorem dispatch_undeliverable (hw : Calm w) (hd : S.isEmail (destination w) = false) (s : Script) :
    dispatch S w a opened s = (openDelivery w a opened.1 opened.2 true true s,
      .error (.answered (.failed "support_destination_unavailable"))) := by
  simp only [dispatch, bind_apply, hw.opening, Bulk.act, act, hw.readEmail, Interrupt.read,
    require, hd]
  rfl

theorem grows_act {o : Outcome} {f : Script → Script} {n : Nat}
    (hf : ∀ s, n < sends s.journal → n < sends (f s).journal) :
    Meets (fun s => n < sends s.journal) (act o f : Request Unit) (fun _ s => n < sends s.journal)
      (fun s => n < sends s.journal) (fun s => n < sends s.journal) :=
  .act (fun _ s h => hf s h) (fun _ s h => hf s h) (fun _ h => h) (fun s h => ⟨h, hf s h⟩)

theorem sends_writeState (c : String) (k : CaseState) (s : Script) (n : Nat)
    (h : n < sends s.journal) : n < sends (writeState c k s).journal := by
  change n < sends (s.journal ++ [_])
  rw [sends_snoc]
  exact Nat.lt_add_right _ h

theorem giveUp_sends (w : Weather) (c : String) (k : CaseState) (code : String) (n : Nat) :
    Meets (fun s => n < sends s.journal) (giveUp w c k code : Request Unit)
      (fun _ s => n < sends s.journal) (fun s => n < sends s.journal)
      (fun s => n < sends s.journal) := by
  refine Meets.bind (Meets.rescue (T := fun s => n < sends s.journal) ?_ (.pure fun _ h => h))
    fun _ => .answer fun _ h => h
  exact grows_act fun s => sends_writeState c _ s n

theorem sendAndSettle_sends (k : CaseState) (message : Message) (s : Script) :
    sends s.journal < sends (sendAndSettle w a k message s).1.journal := by
  refine Meets.always (P := fun t => t = s) (I := fun t => sends s.journal < sends t.journal)
    (Q := fun _ t => sends s.journal < sends t.journal) ?_ (fun _ _ h => h) rfl
  refine Meets.bind (Q := fun _ t => sends s.journal < sends t.journal) ?_ fun _ => ?_
  · rintro t rfl
    change sends t.journal < sends (t.journal ++ [_])
    rw [sends_snoc]
    exact Nat.lt_add_one _
  · refine Meets.bind (Meets.rescue (T := fun t => sends s.journal < sends t.journal)
      (grows_act fun _ h => h) (giveUp_sends _ _ _ _ _)) fun _ => ?_
    refine Meets.bind (Meets.rescue (T := fun t => sends s.journal < sends t.journal)
      (grows_act fun t => sends_writeState _ _ t _) (giveUp_sends _ _ _ _ _)) fun _ => ?_
    exact .pure fun _ h => h

theorem openDelivery_journal (dayCount : Nat) (prior : Option CaseState) (s : Script) :
    (openDelivery w a prior dayCount true true s).journal =
      s.journal ++ [.put .post a.caseId (deliveryState (pendingState w a prior))] := by
  simp only [openDelivery, Script.perform]
  cases prior <;> rfl

theorem dispatch_deliverable (hw : Calm w) (hd : S.isEmail (destination w) = true) (s : Script) :
    sends s.journal < sends (dispatch S w a opened s).1.journal := by
  simp only [dispatch, bind_apply, hw.opening, Bulk.act, act, hw.readEmail, Interrupt.read,
    require, hd]
  refine Nat.lt_of_le_of_lt ?_ (sendAndSettle_sends _ _ _)
  change sends s.journal ≤ sends (openDelivery w a opened.1 opened.2 true true s).journal
  rw [openDelivery_journal, sends_snoc]
  exact Nat.le_add_right _ _

end Dispatch

section Admission
variable {S : Services} {w : Weather} {a : Accepted} {s : Script}

-- the marker of an unfinished delivery closes the case to a request
theorem admitCase_open (stored : Option Stored) :
    Meets (fun _ => True) (admitCase w a stored)
      (fun _ _ => ∀ v ∈ stored, v.state ≠ some .pending) (fun _ => True) (fun _ => True) := by
  unfold admitCase
  split
  · rename_i hs
    rw [Option.map_eq_none_iff.mp hs]
    exact .pure fun _ _ => nofun
  · exact .answer fun _ _ => trivial
  · exact (Meets.check fun _ _ => trivial).bind fun _ => .answer fun _ _ => trivial
  · rename_i c hp
    obtain ⟨v, rfl, hv⟩ := Option.map_eq_some_iff.mp hp
    refine (Meets.check fun _ _ => trivial).bind fun _ => ?_
    refine (Meets.check fun _ _ => trivial).bind fun _ => Meets.given fun hstate => ?_
    refine (Meets.check fun _ _ => trivial).bind fun _ => ?_
    refine (Meets.check fun _ _ => trivial).bind fun _ => .pure fun _ _ u hu => ?_
    obtain rfl := Option.some.inj hu
    rw [(parse_known hv).1]
    exact fun hpending => hstate.1 (Option.some.inj hpending)

theorem examine_open (hw : Calm w) {opened : Option CaseState × Nat}
    (h : (examine w a s).2 = .ok opened) :
    ∀ v ∈ caseOf a.caseId s.cases, v.state ≠ some .pending := by
  rw [examine, bind_apply, hw.readCase] at h
  change (((admitCase w a (caseOf a.caseId s.cases)) >>= _) s).2 = _ at h
  rw [bind_apply] at h
  have hadmitted := admitCase_open (w := w) (a := a) (caseOf a.caseId s.cases) s trivial
  match hr : admitCase w a (caseOf a.caseId s.cases) s with
  | (t, .ok prior) =>
    rw [hr] at hadmitted
    exact hadmitted
  | (t, .error e) =>
    rw [hr] at h
    cases h

theorem doPost_run (w : Weather) (contents : Contents) (s : Script) :
    doPost S w contents s = match (readRequest S w contents s).2 with
      | .error e => (s, .error e)
      | .ok a => if w.locked = true then
          rescue (deliver S w a) (answer (.failed "delivery_failed")) s
        else (s, .error (.answered (.failed "receiver_busy"))) := by
  have hsame := readRequest_steady (S := S) (w := w) contents s
  rw [doPost, bind_apply]
  match hr : readRequest S w contents s with
  | (t, .error e) =>
    rw [hr] at hsame
    obtain rfl : t = s := hsame
    rfl
  | (t, .ok a) =>
    rw [hr] at hsame
    obtain rfl : t = s := hsame
    exact require_bind_apply _ _ t

theorem Untouched.refl (s : Script) : Untouched s s := ⟨fun _ => rfl, rfl, rfl⟩

theorem openDelivery_touches (hopen : ∀ v ∈ caseOf a.caseId s.cases, v.state ≠ some .pending)
    (prior : Option CaseState) (dayCount : Nat) :
    ¬ Untouched s (openDelivery w a prior dayCount true true s) := by
  intro h
  have hcase := h.cases a.caseId
  have hcases : (openDelivery w a prior dayCount true true s).cases =
      upsert Prod.fst (a.caseId, deliveryState (pendingState w a prior)) s.cases := by
    have hinitial : (openDelivery w a prior dayCount true true s).initial = s.initial := by
      cases prior <;> rfl
    rw [Script.cases, hinitial, openDelivery_journal, replay_snoc]
    rfl
  rw [hcases, caseOf_upsert, if_pos rfl] at hcase
  exact hopen _ hcase.symm rfl

/-- An unusable destination is found out after the pending marker is set. -/
theorem leavesNoTrace_iff (hw : Calm w) (contents : Contents) (s : Script) :
    LeavesNoTrace S w contents s ↔
      S.isEmail (destination w) = true ∨ ¬ Opens S w contents s := by
  rw [LeavesNoTrace, doPost_run, swept]
  cases hr : (readRequest S w contents s).2 with
  | error e =>
    have hclosed : ¬ Opens S w contents s := by
      rintro ⟨-, a, _, ha, -⟩
      rw [hr] at ha
      cases ha
    exact ⟨fun _ => .inr hclosed, fun _ _ _ _ => .refl s⟩
  | ok a =>
    dsimp only
    by_cases hlock : w.locked = true
    · rw [if_pos hlock, if_pos hlock]
      have hopens : Opens S w contents s ↔
          ∃ opened, (examine w a (cleanupExpiredState S w s).1).2 = .ok opened := by
        constructor
        · rintro ⟨-, b, opened, hb, ho⟩
          rw [hr] at hb
          cases hb
          exact ⟨opened, ho⟩
        · rintro ⟨opened, ho⟩
          exact ⟨hlock, a, opened, hr, ho⟩
      have hsame := examine_steady (w := w) a (cleanupExpiredState S w s).1
      rw [hopens, rescue, deliver_run hw, bind_apply]
      rcases hx : examine w a (cleanupExpiredState S w s).1 with ⟨t, (_ | _ | r) | opened⟩
      · rw [hx] at hsame
        refine ⟨fun _ => .inr (by rintro ⟨_, ⟨⟩⟩), fun _ _ _ _ => ?_⟩
        exact hsame ▸ .refl t
      · refine ⟨fun _ => .inr (by rintro ⟨_, ⟨⟩⟩), fun _ _ h => by cases h⟩
      · rw [hx] at hsame
        refine ⟨fun _ => .inr (by rintro ⟨_, ⟨⟩⟩), fun _ _ _ _ => ?_⟩
        exact hsame ▸ .refl t
      · rw [hx] at hsame
        obtain rfl : t = (cleanupExpiredState S w s).1 := hsame
        dsimp only
        cases hd : S.isEmail (destination w) with
        | false =>
          rw [dispatch_undeliverable hw hd]
          refine ⟨fun h => ?_, ?_⟩
          · have hopen := examine_open hw (congrArg Prod.snd hx)
            refine absurd (h _ rfl ?_) (openDelivery_touches hopen _ _)
            rw [openDelivery_journal, sends_snoc]
            exact (cleanup_run hw s).2
          · rintro (h | h)
            · cases h
            · exact absurd ⟨opened, rfl⟩ h
        | true =>
          refine ⟨fun _ => .inl rfl, fun _ code _ hsends => ?_⟩
          have hmail := @dispatch_deliverable _ _ a opened hw hd
            (cleanupExpiredState S w s).1
          rw [(cleanup_run hw s).2] at hmail
          refine absurd hsends (Nat.ne_of_gt ?_)
          generalize dispatch S w a opened (cleanupExpiredState S w s).1 = run at hmail ⊢
          rcases run with ⟨u, (_ | _ | _) | _⟩ <;> exact hmail
    · rw [if_neg hlock, if_neg hlock]
      exact ⟨fun _ => .inr (fun h => hlock h.1), fun _ _ _ _ => .refl s⟩

end Admission

def homelessServices : Services := { sampleServices with isEmail := fun t => t ≠ "" }

def homelessWeather : Weather := { sampleWeather .done .done with supportEmail := "" }

theorem sampleWeather_calm (mail : Outcome) : Calm (sampleWeather mail .done) :=
  ⟨rfl, rfl, rfl, rfl, rfl, rfl, fun _ => rfl, fun _ => rfl, fun _ => rfl, rfl, rfl, rfl⟩

theorem leavesNoTrace_iff_delivered :
    LeavesNoTrace sampleServices (sampleWeather .done .done) (.text 1000 (some sampleEnvelope))
        emptyScript ↔
      sampleServices.isEmail (destination (sampleWeather .done .done)) = true ∨
        ¬ Opens sampleServices (sampleWeather .done .done) (.text 1000 (some sampleEnvelope))
          emptyScript :=
  leavesNoTrace_iff (sampleWeather_calm .done) _ _

def failureCode : Except (Stop Reply) Reply → Option String
  | .error (.answered (.failed code)) => some code
  | _ => none

theorem failureCode_some {r : Except (Stop Reply) Reply} {code : String}
    (h : failureCode r = some code) : r = .error (.answered (.failed code)) := by
  unfold failureCode at h
  split at h
  · rw [Option.some.inj h]
  · cases h

theorem refused_request_stays_pending :
    ¬ LeavesNoTrace homelessServices homelessWeather (.text 1000 (some sampleEnvelope))
      emptyScript := by
  intro h
  have hchecked : ∀ base, base = (swept homelessServices homelessWeather
      (.text 1000 (some sampleEnvelope)) emptyScript) → unresolvedDeliveryCount base.cases = 0 := by
    intro base hbase
    rw [hbase]
    decide +kernel
  have hrun : ∀ r, r = doPost homelessServices homelessWeather
      (.text 1000 (some sampleEnvelope)) emptyScript →
      failureCode r.2 = some "support_destination_unavailable" ∧ sends r.1.journal = 0 ∧
        unresolvedDeliveryCount r.1.cases = 1 := by
    intro r hr
    rw [hr]
    decide +kernel
  obtain ⟨hcode, hsends, hcount⟩ := hrun _ rfl
  have hsame := (h _ (failureCode_some hcode) hsends).unresolved
  rw [hcount, hchecked _ rfl] at hsame
  cases hsame

end PeerBridge.Relay
