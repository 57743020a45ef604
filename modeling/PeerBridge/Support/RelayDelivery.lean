import PeerBridge.Support.Relay
import PeerBridge.Lib.Machine
import PeerBridge.Lib.Upsert
import Mathlib.Data.List.Induction

namespace PeerBridge.Relay
open Interrupt Rows

inductive Call where
  | post (w : Weather) (contents : Contents)
  | reconcile (w : OperatorWeather) (caseId expectedSha action : String)

def runCall (S : Services) : Call → Request Reply
  | .post w contents => doPost S w contents
  | .reconcile w caseId expectedSha action => reconcileDelivery w caseId expectedSha action

abbrev Result := Except (Stop Reply) Reply

def Stored.state : Stored → Option DeliveryState
  | .legacy _ => some .sent
  | .record _ state _ _ _ _ => some state
  | .unreadable => none

def Stored.attempts : Stored → Nat
  | .record _ _ _ _ attempts _ => positive attempts 1
  | .legacy _ | .unreadable => 1

-- every request holds the script lock
def relay (S : Services) : Machine Script Call Result where
  start s := s.journal = [] ∧ (s.initial.map Prod.fst).Nodup ∧
    ∀ q ∈ s.initial, q.2.state = some .sent
  admits _ _ := True
  exec s i := runCall S i s

def isMail (caseId : String) : Effect → Bool
  | .mail c _ => c = caseId
  | _ => false

-- sends for a case since its record was last deleted
def countMail (caseId : String) (n : Nat) : Effect → Nat
  | .mail c _ => if c = caseId then n + 1 else n
  | .delete c => if c = caseId then 0 else n
  | .put _ _ _ => n

def mails (caseId : String) (j : List Effect) : Nat := j.foldl (countMail caseId) 0

def approves (caseId : String) : Effect → Bool
  | .put .operator c v => c = caseId && v.state = some .retryReady
  | _ => false

-- whether a send for the case is allowed
def arm (caseId : String) (b : Bool) : Effect → Bool
  | .mail c _ => if c = caseId then false else b
  | .delete c => if c = caseId then true else b
  | e@(.put _ _ _) => b || approves caseId e

def armed (caseId : String) (j : List Effect) : Bool := j.foldl (arm caseId) true

section Journals
variable (c : String) (initial : Cases) (j : List Effect) (e : Effect)

@[simp] theorem replay_snoc : replay initial (j ++ [e]) = e.apply (replay initial j) := by
  simp [replay]

@[simp] theorem mails_snoc : mails c (j ++ [e]) = countMail c (mails c j) e := by simp [mails]

@[simp] theorem armed_snoc : armed c (j ++ [e]) = arm c (armed c j) e := by simp [armed]

end Journals

def IsSent (caseId : String) (cases : Cases) : Prop :=
  (caseOf caseId cases).bind Stored.state = some .sent

structure Legal (kept : Prop) (initial : Cases) (j : List Effect) (e : Effect) : Prop where
  mail : ∀ c m, e = .mail c m → armed c j = true
  capped : ∀ c, mails c (j ++ [e]) ≤ maxDeliveryAttempts
  unresolved : unresolvedDeliveryCount (replay initial (j ++ [e])) ≤ maxUnresolvedDeliveries
  sent : kept → ∀ c, IsSent c (replay initial j) → IsSent c (replay initial (j ++ [e])) ∨
    e = .delete c
  expired : ∀ c, e = .delete c → IsSent c (replay initial j)

inductive Lawful (kept : Prop) (initial : Cases) : List Effect → Prop
  | nil (h : unresolvedDeliveryCount initial ≤ maxUnresolvedDeliveries) : Lawful kept initial []
  | snoc {j : List Effect} {e : Effect} (h : Lawful kept initial j)
      (he : Legal kept initial j e) : Lawful kept initial (j ++ [e])

theorem Lawful.legal {kept : Prop} {initial : Cases} {j pre post : List Effect} {e : Effect}
    (h : Lawful kept initial j) (hj : j = pre ++ e :: post) : Legal kept initial pre e := by
  induction h generalizing post with
  | nil => simp at hj
  | @snoc j e' h he ih =>
    rcases List.eq_nil_or_concat post with rfl | ⟨post', e'', rfl⟩
    · obtain ⟨rfl, he'⟩ := List.append_inj' hj rfl
      cases he'
      exact he
    · rw [List.concat_eq_append, ← List.cons_append, ← List.append_assoc] at hj
      exact ih (List.append_inj' hj rfl).1

theorem armed_mid {c : String} {m : Message} {pre mid : List Effect}
    (h : armed c (pre ++ .mail c m :: mid) = true) (hd : .delete c ∉ mid) :
    ∃ e ∈ mid, approves c e = true := by
  induction mid using List.reverseRecOn with
  | nil =>
    rw [armed_snoc] at h
    simp [arm] at h
  | append_singleton mid e ih =>
    rw [← List.cons_append, ← List.append_assoc, armed_snoc] at h
    have hmid : .delete c ∉ mid := fun hm => hd (List.mem_append_left _ hm)
    have hlast : e ≠ .delete c := fun he => hd (by simp [he])
    cases he : approves c e with
    | true => exact ⟨e, by simp, he⟩
    | false =>
      have hrest : armed c (pre ++ .mail c m :: mid) = true := by
        cases e with
        | put writer c' v => simpa [arm, he] using h
        | delete c' =>
          have hne : c' ≠ c := fun hc => hlast (by rw [hc])
          simpa [arm, hne] using h
        | mail c' m' =>
          by_cases hc : c' = c
          · simp [arm, hc] at h
          · simpa [arm, hc] using h
      obtain ⟨e', hm, ha⟩ := ih hrest hmid
      exact ⟨e', List.mem_append_left _ hm, ha⟩

theorem mails_append {c : String} (pre seg : List Effect) (hd : .delete c ∉ seg) :
    mails c (pre ++ seg) = mails c pre + seg.countP (isMail c) := by
  induction seg using List.reverseRecOn with
  | nil => simp
  | append_singleton seg e ih =>
    have hseg : .delete c ∉ seg := fun hm => hd (List.mem_append_left _ hm)
    have hlast : e ≠ .delete c := fun he => hd (by simp [he])
    rw [← List.append_assoc, mails_snoc, ih hseg, List.countP_append]
    cases e with
    | put writer c' v => simp [countMail, isMail]
    | delete c' =>
      have hne : c' ≠ c := fun hc => hlast (by rw [hc])
      simp [countMail, isMail, hne]
    | mail c' m =>
      by_cases hc : c' = c
      · simp [countMail, isMail, hc]
        omega
      · simp [countMail, isMail, hc]

theorem Lawful.mails_le {kept : Prop} {initial : Cases} {j : List Effect}
    (h : Lawful kept initial j) (c : String) : mails c j ≤ maxDeliveryAttempts := by
  cases h with
  | nil => exact Nat.zero_le _
  | snoc h he => exact he.capped c

theorem Lawful.prefix {kept : Prop} {initial : Cases} {pre post : List Effect}
    (h : Lawful kept initial (pre ++ post)) : Lawful kept initial pre := by
  induction post using List.reverseRecOn with
  | nil => simpa using h
  | append_singleton post e ih =>
    rw [← List.append_assoc] at h
    generalize hj : pre ++ post ++ [e] = j at h
    cases h with
    | nil => simp at hj
    | snoc h he =>
      rw [(List.append_inj' hj rfl).1] at ih
      exact ih h

theorem caseOf_upsert (c k : String) (v : Stored) (cases : Cases) :
    caseOf k (upsert Prod.fst (c, v) cases) = if c = k then some v else caseOf k cases := by
  simp only [caseOf, lookup_upsert]
  split <;> rfl

theorem caseOf_remove (c k : String) (cases : Cases) :
    caseOf k (cases.filter (fun q => q.1 ≠ c)) = if c = k then none else caseOf k cases := by
  simp only [caseOf, lookup_remove]
  split <;> rfl

theorem put_put (c : String) (u v : Stored) (cases : Cases) :
    upsert Prod.fst (c, v) (upsert Prod.fst (c, u) cases) = upsert Prod.fst (c, v) cases :=
  upsert_upsert (c, u) rfl

theorem lookup_of_caseOf {c : String} {v : Stored} {cases : Cases} (h : caseOf c cases = some v) :
    lookup Prod.fst c cases = some (c, v) := by
  obtain ⟨q, hq, rfl⟩ := Option.map_eq_some_iff.mp h
  rw [hq, ← lookup_key hq]

theorem Stored.unresolved_eq (v : Stored) : v.unresolved = (v.state != some .sent) := by
  cases v with
  | legacy sha256 => rfl
  | record sha256 state createdMs updatedMs attempts lastError => cases state <;> rfl
  | unreadable => rfl

theorem positive_pos (value : Option Nat) : 1 ≤ positive value 1 := by
  cases value with
  | none => exact le_rfl
  | some n => cases n <;> simp [positive, Option.filter]

theorem parse_known {nowMs : Nat} {v : Stored} {c : CaseState}
    (h : parseCaseState nowMs v = .known c) :
    v.state = some c.state ∧ v.attempts = c.attempts ∧ 1 ≤ c.attempts := by
  cases v with
  | legacy sha256 => cases h
  | unreadable => cases h
  | record sha256 state createdMs updatedMs attempts lastError =>
    cases h
    exact ⟨rfl, rfl, positive_pos attempts⟩

structure Fit (c : String) (cases : Cases) (j : List Effect) : Prop where
  fresh : caseOf c cases = none → mails c j = 0 ∧ armed c j = true
  bounded : ∀ v st, caseOf c cases = some v → v.state = some st → st ≠ .sent →
    mails c j ≤ v.attempts ∧ v.attempts ≤ maxDeliveryAttempts
  ready : ∀ v, caseOf c cases = some v → v.state = some .retryReady → armed c j = true

structure Sound (kept : Prop) (s : Script) : Prop where
  lawful : Lawful kept s.initial s.journal
  fit : ∀ c, Fit c s.cases s.journal
  keys : (s.cases.map Prod.fst).Nodup
  capacity : unresolvedDeliveryCount s.cases ≤ maxUnresolvedDeliveries

section Steps
variable {kept : Prop} {s : Script} {c : String} {v : Stored}

theorem Script.cases_perform (e : Effect) : (s.perform e).cases = e.apply s.cases := by
  simp [Script.cases, Script.perform]

theorem Sound.put {writer : Writer} (h : Sound kept s)
    (hbound : ∀ st, v.state = some st → st ≠ .sent →
      mails c s.journal ≤ v.attempts ∧ v.attempts ≤ maxDeliveryAttempts)
    (hready : v.state = some .retryReady → writer = .operator)
    (hroom : unresolvedDeliveryCount (upsert Prod.fst (c, v) s.cases) ≤ maxUnresolvedDeliveries)
    (hsent : kept → IsSent c s.cases → v.state = some .sent) :
    Sound kept (s.perform (.put writer c v)) := by
  have hcases := s.cases_perform (.put writer c v)
  refine ⟨h.lawful.snoc ⟨by simp, fun k => ?_, ?_, fun hk k hs => .inl ?_, by simp⟩, fun k => ?_, ?_, hcases ▸ hroom⟩
  · rw [mails_snoc]
    exact h.lawful.mails_le k
  · rw [replay_snoc]
    exact hroom
  · rw [replay_snoc, IsSent, Effect.apply, caseOf_upsert]
    split
    · rename_i he
      exact hsent hk (he ▸ hs)
    · exact hs
  · rw [hcases, Effect.apply]
    change Fit k _ (s.journal ++ [_])
    have hmails : mails k (s.journal ++ [.put writer c v]) = mails k s.journal := by
      rw [mails_snoc]
      rfl
    by_cases hk : c = k
    · refine ⟨fun hn => ?_, fun v' st hv hst hne => ?_, fun v' hv hst => ?_⟩ <;>
        rw [caseOf_upsert, if_pos hk] at *
      · cases hn
      · cases hv
        rw [hmails, ← hk]
        exact hbound st hst hne
      · cases hv
        rw [armed_snoc, hready hst]
        simp [arm, approves, hk, hst]
    · obtain ⟨h1, h2, h3⟩ := h.fit k
      refine ⟨fun hn => ?_, fun v' st hv hst hne => ?_, fun v' hv hst => ?_⟩ <;>
        rw [caseOf_upsert, if_neg hk] at *
      · rw [hmails, armed_snoc, arm, (h1 hn).2]
        exact ⟨(h1 hn).1, rfl⟩
      · rw [hmails]
        exact h2 v' st hv hst hne
      · rw [armed_snoc, arm, h3 v' hv hst]
        rfl
  · rw [hcases]
    exact nodup_upsert _ h.keys

theorem unresolved_put_le (h : v.state = some .sent) (cases : Cases) :
    unresolvedDeliveryCount (upsert Prod.fst (c, v) cases) ≤ unresolvedDeliveryCount cases := by
  have hv : v.unresolved = false := by simp [v.unresolved_eq, h]
  cases hl : lookup Prod.fst (Prod.fst (c, v)) cases with
  | none =>
    have hcount := countP_upsert_none (p := fun q => q.2.unresolved) hl
    simp only [hv, Bool.toNat_false] at hcount
    exact hcount.le
  | some old =>
    have hcount := countP_upsert_some (p := fun q => q.2.unresolved) hl
    simp only [hv, Bool.toNat_false] at hcount
    exact (Nat.le_add_right _ _).trans hcount.le

theorem Sound.room {old : Stored} (h : Sound kept s) (hold : caseOf c s.cases = some old)
    (hopen : old.unresolved = true) (v : Stored) :
    unresolvedDeliveryCount (upsert Prod.fst (c, v) s.cases) ≤ maxUnresolvedDeliveries := by
  have hsome : lookup Prod.fst (Prod.fst (c, v)) s.cases = some (c, old) := lookup_of_caseOf hold
  have hcount := countP_upsert_some (p := fun q => q.2.unresolved) hsome
  have hbool := Bool.toNat_le v.unresolved
  have hcap := h.capacity
  simp only [hopen, Bool.toNat_true] at hcount
  simp only [unresolvedDeliveryCount] at hcap ⊢
  omega

theorem Sound.close {writer : Writer} (h : Sound kept s) (hv : v.state = some .sent) :
    Sound kept (s.perform (.put writer c v)) :=
  h.put (fun st hst hne => absurd (Option.some.inj (hst.symm.trans hv)) hne)
    (fun hr => by rw [hv] at hr; cases hr) ((unresolved_put_le hv _).trans h.capacity)
    (fun _ _ => hv)

theorem Sound.expire (h : Sound kept s) (hs : IsSent c s.cases) :
    Sound kept (s.perform (.delete c)) := by
  have hcases := s.cases_perform (.delete c)
  have hcount : unresolvedDeliveryCount (s.cases.filter (fun q => q.1 ≠ c)) ≤
      maxUnresolvedDeliveries :=
    (List.Sublist.countP_le List.filter_sublist).trans h.capacity
  refine ⟨h.lawful.snoc ⟨by simp, fun k => ?_, ?_, fun hk k hks => ?_, ?_⟩, fun k => ?_, ?_, hcases ▸ hcount⟩
  · rw [mails_snoc, countMail]
    split
    · exact Nat.zero_le _
    · exact h.lawful.mails_le k
  · rw [replay_snoc]
    exact hcount
  · by_cases he : c = k
    · exact .inr (by rw [he])
    · refine .inl ?_
      rw [replay_snoc, IsSent, Effect.apply, caseOf_remove, if_neg he]
      exact hks
  · rintro k ⟨⟩
    exact hs
  · rw [hcases, Effect.apply]
    change Fit k _ (s.journal ++ [_])
    by_cases hk : c = k
    · refine ⟨fun _ => ?_, fun v' st hv _ _ => ?_, fun v' hv _ => ?_⟩
      · simp [countMail, arm, hk]
      · rw [caseOf_remove, if_pos hk] at hv
        cases hv
      · rw [caseOf_remove, if_pos hk] at hv
        cases hv
    · obtain ⟨h1, h2, h3⟩ := h.fit k
      refine ⟨fun hn => ?_, fun v' st hv hst hne => ?_, fun v' hv hst => ?_⟩ <;>
        rw [caseOf_remove, if_neg hk] at *
      · rw [mails_snoc, armed_snoc, countMail, arm, if_neg hk, if_neg hk]
        exact h1 hn
      · rw [mails_snoc, countMail, if_neg hk]
        exact h2 v' st hv hst hne
      · rw [armed_snoc, arm, if_neg hk]
        exact h3 v' hv hst
  · rw [hcases]
    exact h.keys.sublist (List.filter_sublist.map _)

end Steps

abbrev Keeps {α : Type} (kept : Prop) (m : Request α) : Prop :=
  Meets (Sound kept) m (fun _ => Sound kept) (Sound kept) (Sound kept)

section Passages
variable {kept : Prop} {S : Services}

theorem keeps_answer {α : Type} {r : Reply} : Keeps kept (answer r : Request α) :=
  .answer (fun _ h => h)

theorem keeps_require {c : Prop} [Decidable c] {r : Reply} : Keeps kept (require c r) :=
  .require (fun _ h _ => h) (fun _ h => h)

theorem keeps_read {α : Type} {o : Outcome} {f : Script → α} :
    Keeps kept (Interrupt.read o f) :=
  .read (fun _ h => h) (fun _ h => h) (fun _ h => h)

theorem keeps_pure {α : Type} {a : α} : Keeps kept (pure a : Request α) := .pure (fun _ h => h)

theorem decodeAndVerifyBundle_keeps (encoded expectedSha : String) :
    Keeps kept (decodeAndVerifyBundle S encoded expectedSha) := by
  refine keeps_require.bind fun _ => ?_
  split
  · exact keeps_answer
  · exact keeps_require.bind fun _ => keeps_require.bind fun _ => keeps_pure

theorem readRequest_keeps (w : Weather) (x : Contents) : Keeps kept (readRequest S w x) := by
  unfold readRequest
  split
  · exact keeps_answer
  · refine keeps_require.bind fun _ => ?_
    split
    · exact keeps_answer
    · refine keeps_require.bind fun _ => keeps_require.bind fun _ => keeps_require.bind fun _ => ?_
      refine Meets.bind (keeps_require.bind fun _ => keeps_read.bind fun _ => keeps_require)
        fun _ => ?_
      refine (decodeAndVerifyBundle_keeps _ _).bind fun _ => ?_
      exact keeps_require.bind fun _ => keeps_pure

-- the rows of the snapshot that are still to come are as they were read
structure Sweeping (kept : Prop) (rest : Cases) (s : Script) : Prop where
  sound : Sound kept s
  distinct : (rest.map Prod.fst).Nodup
  current : ∀ q ∈ rest, caseOf q.1 s.cases = some q.2

theorem Sweeping.next {rest : Cases} {q : String × Stored} {s t : Script}
    (h : Sweeping kept (q :: rest) s) (ht : Sound kept t)
    (hother : ∀ k, q.1 ≠ k → caseOf k t.cases = caseOf k s.cases) : Sweeping kept rest t := by
  have hd : q.1 ∉ rest.map Prod.fst ∧ (rest.map Prod.fst).Nodup := List.nodup_cons.mp h.distinct
  refine ⟨ht, hd.2, fun r hr => ?_⟩
  rw [hother r.1 (fun he => hd.1 (he ▸ List.mem_map_of_mem hr))]
  exact h.current r (List.mem_cons_of_mem _ hr)

theorem cleanupCase_meets (w : Weather) (q : String × Stored) (rest : Cases) :
    Meets (Sweeping kept (q :: rest)) (cleanupCase w q) (fun _ => Sweeping kept rest)
      (Sound kept) (Sound kept) := by
  unfold cleanupCase
  split
  · exact .pure fun s h => h.next h.sound (fun _ _ => rfl)
  · rename_i sha256 createdMs hp
    have hput : ∀ s, Sound kept s →
        Sound kept (s.perform (.put .cleanup q.1 (migrated sha256 createdMs))) :=
      fun s h => h.close rfl
    refine .act (fun _ s h => h.next (hput s h.sound) fun k hk => ?_)
      (fun _ s h => hput s h.sound) (fun s h => h.sound) (fun s h => ⟨h.sound, hput s h.sound⟩)
    rw [s.cases_perform, Effect.apply, caseOf_upsert, if_neg hk]
  · rename_i c hp
    split
    · rename_i hc
      have hdelete : ∀ s, Sweeping kept (q :: rest) s → Sound kept (s.perform (.delete q.1)) := by
        intro s h
        refine h.sound.expire ?_
        rw [IsSent, h.current q List.mem_cons_self]
        rw [Option.bind_some, (parse_known hp).1, hc.1]
      refine .act (fun _ s h => h.next (hdelete s h) fun k hk => ?_) (fun _ s h => hdelete s h)
        (fun s h => h.sound) (fun s h => ⟨h.sound, hdelete s h⟩)
      rw [s.cases_perform, Effect.apply, caseOf_remove, if_neg hk]
    · exact .pure fun s h => h.next h.sound (fun _ _ => rfl)

theorem Sound.ofSame {s t : Script} (h : Sound kept s) (hi : t.initial = s.initial)
    (hj : t.journal = s.journal) : Sound kept t := by
  have hc : t.cases = s.cases := by rw [Script.cases, hi, hj]; rfl
  exact ⟨by rw [hi, hj]; exact h.lawful, by rw [hc, hj]; exact h.fit, hc ▸ h.keys, hc ▸ h.capacity⟩

theorem cleanupDay_keeps (w : Weather) (q : String × Nat) : Keeps kept (cleanupDay S w q) := by
  unfold cleanupDay
  split
  · exact keeps_pure
  · split
    · have hday : ∀ s, Sound kept s → Sound kept (s.removeDay q.1) := fun s h => h.ofSame rfl rfl
      exact .act (fun _ => hday) (fun _ => hday) (fun _ h => h) (fun s h => ⟨h, hday s h⟩)
    · exact keeps_pure

theorem cleanup_keeps (w : Weather) : Keeps kept (cleanupExpiredState S w) := by
  have hread : Meets (Sound kept)
      (Interrupt.read w.readAll (fun s => (s.cases, s.daily)) : Request (Cases × _))
      (fun values => Sweeping kept values.1) (Sound kept) (Sound kept) := by
    refine .read (fun s h => ⟨h, h.keys, fun q hq => ?_⟩) (fun _ h => h) (fun _ h => h)
    rw [caseOf, lookup_of_mem h.keys hq]
    rfl
  refine hread.bind fun values => ?_
  refine (Meets.eachRest (cleanupCase_meets w) values.1).bind fun _ => ?_
  exact (Meets.each (cleanupDay_keeps w)).pre (fun s h => h.sound)

-- the case a request found, before its pending marker
structure Admitted (kept : Prop) (a : Accepted) (prior : Option CaseState) (s : Script) : Prop where
  sound : Sound kept s
  armed : armed a.caseId s.journal = true
  mails : mails a.caseId s.journal ≤ (prior.map CaseState.attempts).getD 0
  attempts : (prior.map CaseState.attempts).getD 0 < maxDeliveryAttempts
  known : prior.isSome = true → ∃ v, caseOf a.caseId s.cases = some v ∧ v.unresolved = true
  fresh : prior = none → caseOf a.caseId s.cases = none

theorem admitCase_meets (w : Weather) (a : Accepted) (stored : Option Stored) :
    Meets (fun s => Sound kept s ∧ caseOf a.caseId s.cases = stored) (admitCase w a stored)
      (Admitted kept a) (Sound kept) (Sound kept) := by
  unfold admitCase
  split
  · rename_i hs
    obtain rfl := Option.map_eq_none_iff.mp hs
    refine .pure fun s h => ?_
    obtain ⟨hm, ha⟩ := (h.1.fit a.caseId).fresh h.2
    exact ⟨h.1, ha, hm.le, by decide, by simp, fun _ => h.2⟩
  · exact .answer fun _ h => h.1
  · exact (Meets.check fun _ h => h.1).bind fun _ => .answer fun _ h => h.1.1
  · rename_i c hp
    obtain ⟨v, rfl, hv⟩ := Option.map_eq_some_iff.mp hp
    refine (Meets.check fun _ h => h.1).bind fun _ => ?_
    refine (Meets.check fun _ h => h.1.1).bind fun _ => ?_
    refine (Meets.check fun _ h => h.1.1.1).bind fun _ => ?_
    refine (Meets.check fun _ h => h.1.1.1.1).bind fun _ => .pure fun s h => ?_
    obtain ⟨⟨⟨⟨⟨hsound, hcase⟩, -⟩, hopen, hcertain⟩, hunsent⟩, hlt⟩ := h
    obtain ⟨hstate, hattempts, -⟩ := parse_known hv
    have hready : c.state = .retryReady := by
      cases hc : c.state <;> simp_all
    rw [hready] at hstate
    have hfit := hsound.fit a.caseId
    have hmails := (hfit.bounded _ _ hcase hstate (by decide)).1
    exact ⟨hsound, hfit.ready _ hcase hstate, hmails.trans hattempts.le, hlt,
      fun _ => ⟨v, hcase, by simp [v.unresolved_eq, hstate]⟩, by simp⟩

structure Roomy (kept : Prop) (a : Accepted) (prior : Option CaseState) (s : Script) : Prop
    extends Admitted kept a prior s where
  room : prior = none → unresolvedDeliveryCount s.cases < maxUnresolvedDeliveries

-- the case of the request, from its pending marker on
structure Marked (kept : Prop) (c : String) (p : CaseState) (s : Script) : Prop where
  sound : Sound kept s
  mails : mails c s.journal ≤ p.attempts
  attempts : 1 ≤ p.attempts ∧ p.attempts ≤ maxDeliveryAttempts
  room : ∀ v, unresolvedDeliveryCount (upsert Prod.fst (c, v) s.cases) ≤ maxUnresolvedDeliveries
  unsent : kept → ¬ IsSent c s.cases

structure Opened (kept : Prop) (c : String) (p : CaseState) (s : Script) : Prop
    extends Marked kept c p s where
  found : caseOf c s.cases = some (deliveryState p)
  pending : p.state = .pending
  armed : armed c s.journal = true
  unused : Relay.mails c s.journal < p.attempts

theorem deliveryState_attempts {p : CaseState} (h : 1 ≤ p.attempts) :
    (deliveryState p).attempts = p.attempts := by
  simp [deliveryState, Stored.attempts, positive, Option.filter, Nat.pos_of_ne_zero,
    Nat.one_le_iff_ne_zero.mp h]

theorem requireCapacity_meets (w : Weather) (a : Accepted) (prior : Option CaseState) :
    Meets (Admitted kept a prior) (requireCapacity w prior) (fun _ => Roomy kept a prior)
      (Sound kept) (Sound kept) := by
  unfold requireCapacity
  split
  · exact .pure fun s h => { h with room := by simp }
  · refine Meets.bind (Q := fun n s => Admitted kept a none s ∧ n = unresolvedDeliveryCount s.cases)
      (.read (fun _ h => ⟨h, rfl⟩) (fun _ h => h.sound) (fun _ h => h.sound)) fun n => ?_
    refine .require (fun s h hc => ?_) (fun _ h => h.1.sound)
    obtain ⟨ha, rfl⟩ := h
    exact { ha with room := fun _ => hc }

theorem Roomy.setDay {a : Accepted} {prior : Option CaseState} {s : Script}
    (h : Roomy kept a prior s) (day : String) (count : Nat) :
    Roomy kept a prior (s.setDay day count) :=
  { h with sound := h.sound.ofSame rfl rfl }

theorem Roomy.opened {a : Accepted} {prior : Option CaseState} {s : Script}
    (h : Roomy kept a prior s) (w : Weather) :
    Opened kept a.caseId (pendingState w a prior)
      (s.perform (.put .post a.caseId (deliveryState (pendingState w a prior)))) := by
  have hattempts : (pendingState w a prior).attempts =
      (prior.map CaseState.attempts).getD 0 + 1 := by cases prior <;> rfl
  have hpos : 1 ≤ (pendingState w a prior).attempts := by omega
  have hle : (pendingState w a prior).attempts ≤ maxDeliveryAttempts := hattempts ▸ h.attempts
  have hmails := h.mails
  have hroom : ∀ v, unresolvedDeliveryCount (upsert Prod.fst (a.caseId, v) s.cases) ≤
      maxUnresolvedDeliveries := by
    intro v
    cases hp : prior with
    | none =>
      have hnone : lookup Prod.fst (Prod.fst (a.caseId, v)) s.cases = none :=
        Option.map_eq_none_iff.mp (h.fresh hp)
      have hcount := countP_upsert_none (p := fun q => q.2.unresolved) hnone
      have hbool := Bool.toNat_le v.unresolved
      have hlt := h.room hp
      simp only [unresolvedDeliveryCount] at hcount hlt ⊢
      omega
    | some c =>
      obtain ⟨old, hold, hopen⟩ := h.known (by rw [hp]; rfl)
      exact h.sound.room hold hopen v
  have hunsent : kept → IsSent a.caseId s.cases → False := by
    intro _ hs
    cases hp : prior with
    | none =>
      rw [IsSent, h.fresh hp] at hs
      cases hs
    | some c =>
      obtain ⟨old, hold, hopen⟩ := h.known (by rw [hp]; rfl)
      rw [IsSent, hold, Option.bind_some] at hs
      simp [old.unresolved_eq, hs] at hopen
  have hput : Sound kept (s.perform (.put .post a.caseId (deliveryState (pendingState w a prior)))) := by
    refine h.sound.put (fun st _ _ => ?_) (by simp [deliveryState, pendingState, Stored.state])
      (hroom _) (fun hk hs => (hunsent hk hs).elim)
    rw [deliveryState_attempts hpos]
    exact ⟨by omega, hle⟩
  have hsame : Relay.mails a.caseId (s.journal ++ [.put .post a.caseId
      (deliveryState (pendingState w a prior))]) = Relay.mails a.caseId s.journal := by
    rw [mails_snoc]
    rfl
  have hfound : caseOf a.caseId (s.perform (.put .post a.caseId
      (deliveryState (pendingState w a prior)))).cases =
      some (deliveryState (pendingState w a prior)) := by
    rw [s.cases_perform, Effect.apply, caseOf_upsert, if_pos rfl]
  refine { sound := hput, mails := ?_, attempts := ⟨hpos, hle⟩, room := fun v => ?_,
           unsent := fun _ hs => ?_, found := hfound, pending := rfl, armed := ?_, unused := ?_ }
  · exact hsame.le.trans (by omega)
  · rw [s.cases_perform, Effect.apply, put_put]
    exact hroom v
  · rw [IsSent, hfound] at hs
    cases hs
  · change Relay.armed a.caseId (s.journal ++ [_]) = true
    rw [armed_snoc, arm, h.armed, Bool.true_or]
  · exact lt_of_eq_of_lt hsame (by omega)

theorem Opened.mail {c : String} {p : CaseState} {s : Script} (h : Opened kept c p s)
    (m : Message) : Marked kept c p (s.perform (.mail c m)) := by
  have hcases := s.cases_perform (.mail c m)
  have hcount : Relay.mails c (s.journal ++ [.mail c m]) = Relay.mails c s.journal + 1 := by
    rw [mails_snoc, countMail, if_pos rfl]
  have hunused := h.unused
  have hattempts := h.attempts
  refine ⟨⟨h.sound.lawful.snoc ⟨?_, fun k => ?_, ?_, fun _ k hs => .inl ?_, by simp⟩, fun k => ?_,
    hcases ▸ h.sound.keys, hcases ▸ h.sound.capacity⟩, ?_, hattempts, ?_, ?_⟩
  · rintro c' m' ⟨⟩
    exact h.armed
  · by_cases hk : c = k
    · rw [← hk, hcount]
      omega
    · rw [mails_snoc, countMail, if_neg hk]
      exact h.sound.lawful.mails_le k
  · rw [replay_snoc]
    exact h.sound.capacity
  · rw [replay_snoc]
    exact hs
  · rw [hcases]
    change Fit k s.cases (s.journal ++ [_])
    obtain ⟨h1, h2, h3⟩ := h.sound.fit k
    by_cases hk : c = k
    · subst hk
      refine ⟨fun hn => ?_, fun v st hv _ _ => ?_, fun v hv hst => ?_⟩
      · rw [h.found] at hn
        cases hn
      · rw [h.found] at hv
        cases hv
        rw [hcount, deliveryState_attempts hattempts.1]
        exact ⟨hunused, hattempts.2⟩
      · rw [h.found] at hv
        cases hv
        simp [deliveryState, Stored.state, h.pending] at hst
    · refine ⟨fun hn => ?_, fun v st hv hst hne => ?_, fun v hv hst => ?_⟩
      · rw [mails_snoc, armed_snoc, countMail, arm, if_neg hk, if_neg hk]
        exact h1 hn
      · rw [mails_snoc, countMail, if_neg hk]
        exact h2 v st hv hst hne
      · rw [armed_snoc, arm, if_neg hk]
        exact h3 v hv hst
  · exact hcount.le.trans hunused
  · rw [hcases]
    exact h.room
  · rw [hcases]
    exact h.unsent

theorem Marked.uncertain {c code : String} {p : CaseState} {s : Script} (h : Marked kept c p s)
    (w : Weather) : Sound kept (writeState c
      { p with state := .uncertain, updatedMs := w.laterMs, lastError := code } s) := by
  refine h.sound.put (fun st _ _ => ?_) (by simp [deliveryState, Stored.state]) (h.room _)
    (fun hk hs => absurd hs (h.unsent hk))
  exact ⟨h.mails.trans (deliveryState_attempts h.attempts.1).ge,
    (deliveryState_attempts h.attempts.1).le.trans h.attempts.2⟩

theorem giveUp_meets {Q : Unit → Script → Prop} (w : Weather) (c code : String) (p : CaseState) :
    Meets (Marked kept c p) (giveUp w c p code) Q (Sound kept) (Sound kept) := by
  have hrecord : Meets (Marked kept c p) (recordUncertainDelivery w c p code)
      (fun _ => Sound kept) (Sound kept) (Sound kept) := by
    refine Meets.rescue (T := Sound kept) ?_ keeps_pure
    exact .act (fun _ _ h => h.uncertain w) (fun _ _ h => h.uncertain w) (fun _ h => h.sound)
      (fun _ h => ⟨h.sound, h.uncertain w⟩)
  exact hrecord.bind fun _ => .answer fun _ h => h

theorem Marked.lost {c : String} {p : CaseState} {s : Script} {v : Stored}
    (h : Marked kept c p s) (hv : v.state = some .sent) (hk : ¬ kept) :
    Marked kept c p (s.perform (.put .post c v)) := by
  refine ⟨h.sound.close hv, ?_, h.attempts, fun u => ?_, fun hn => absurd hn hk⟩
  · change Relay.mails c (s.journal ++ [_]) ≤ _
    rw [mails_snoc]
    exact h.mails
  · rw [s.cases_perform, Effect.apply, put_put]
    exact h.room u

theorem sendAndSettle_meets {w : Weather} (hw : kept → w.sent ≠ .lost) (a : Accepted)
    (p : CaseState) (m : Message) :
    Meets (Opened kept a.caseId p) (sendAndSettle w a p m) (fun _ => Sound kept) (Sound kept)
      (Sound kept) := by
  have hcall : Meets (Opened kept a.caseId p)
      (act .done (Script.perform (.mail a.caseId m)) : Request Unit)
      (fun _ => Marked kept a.caseId p) (Sound kept) (Sound kept) :=
    .act (fun _ _ h => h.mail m) (fun _ _ h => (h.mail m).sound) (fun _ h => h.sound)
      (fun _ h => ⟨h.sound, (h.mail m).sound⟩)
  have hsend : Meets (Marked kept a.caseId p) (act w.mail id : Request Unit)
      (fun _ => Marked kept a.caseId p) (Marked kept a.caseId p) (Sound kept) :=
    .act (fun _ _ h => h) (fun _ _ h => h) (fun _ h => h) (fun _ h => ⟨h.sound, h.sound⟩)
  have hsettle : Meets (Marked kept a.caseId p)
      (act w.sent (writeState a.caseId { p with state := .sent, updatedMs := w.laterMs }) :
        Request Unit) (fun _ => Sound kept) (Marked kept a.caseId p) (Sound kept) :=
    .act (fun _ _ h => h.sound.close rfl) (fun ho _ h => h.lost rfl (fun hk => hw hk ho))
      (fun _ h => h) (fun _ h => ⟨h.sound, h.sound.close rfl⟩)
  refine hcall.bind fun _ => (hsend.rescue (giveUp_meets w _ _ p)).bind fun _ => ?_
  exact (hsettle.rescue (giveUp_meets w _ _ p)).bind fun _ => keeps_pure

theorem openDelivery_meets (w : Weather) (a : Accepted) (prior : Option CaseState) (n : Nat) :
    Meets (Roomy kept a prior) (w.opening.act (openDelivery w a prior n) : Request Unit)
      (fun _ => Opened kept a.caseId (pendingState w a prior)) (Sound kept) (Sound kept) := by
  have hday : ∀ day s, Roomy kept a prior s →
      Roomy kept a prior (if (day && prior.isNone) = true then s.setDay w.day (n + 1) else s) :=
    fun day s h => by split; exacts [h.setDay _ _, h]
  have hsound : ∀ put day s, Roomy kept a prior s →
      Sound kept (openDelivery w a prior n put day s) := by
    intro put day s h
    simp only [openDelivery]
    split
    · exact ((hday day s h).opened w).sound
    · exact (hday day s h).sound
  have hopened : ∀ s, Roomy kept a prior s →
      Opened kept a.caseId (pendingState w a prior) (openDelivery w a prior n true true s) := by
    intro s h
    simp only [openDelivery, if_true]
    exact (hday true s h).opened w
  unfold Bulk.act
  split
  · exact .act (fun _ => hopened) (by simp) (fun _ h => h.sound)
      (fun s h => ⟨h.sound, hsound true true s h⟩)
  · exact .act (by simp) (fun _ => hsound _ _) (fun _ h => h.sound)
      (fun s h => ⟨h.sound, hsound _ _ s h⟩)
  · exact .act (by simp) (by simp) (fun _ h => h.sound) (fun s h => ⟨h.sound, hsound _ _ s h⟩)

theorem deliver_meets {w : Weather} (hw : kept → w.sent ≠ .lost) (a : Accepted) :
    Keeps kept (deliver S w a) := by
  refine (cleanup_keeps w).bind fun _ => ?_
  refine Meets.bind (Q := fun stored s => Sound kept s ∧ caseOf a.caseId s.cases = stored)
    (.read (fun _ h => ⟨h, rfl⟩) (fun _ h => h) (fun _ h => h)) fun stored => ?_
  refine (admitCase_meets w a stored).bind fun prior => ?_
  refine Meets.bind (Q := fun _ => Admitted kept a prior)
    (.read (fun _ h => h) (fun _ h => h.sound) (fun _ h => h.sound)) fun _ => ?_
  refine Meets.bind (Q := fun _ => Admitted kept a prior)
    (.require (fun _ h _ => h) (fun _ h => h.sound)) fun _ => ?_
  refine Meets.bind (Q := fun _ => Admitted kept a prior)
    (.read (fun _ h => h) (fun _ h => h.sound) (fun _ h => h.sound)) fun _ => ?_
  refine Meets.bind (Q := fun _ => Admitted kept a prior)
    (.require (fun _ h _ => h) (fun _ h => h.sound)) fun _ => ?_
  refine (requireCapacity_meets w a prior).bind fun _ => ?_
  refine (openDelivery_meets w a prior _).bind fun _ => ?_
  refine Meets.bind (Q := fun _ => Opened kept a.caseId (pendingState w a prior))
    (.read (fun _ h => h) (fun _ h => h.sound) (fun _ h => h.sound)) fun _ => ?_
  refine Meets.bind (Q := fun _ => Opened kept a.caseId (pendingState w a prior))
    (.require (fun _ h _ => h) (fun _ h => h.sound)) fun _ => ?_
  exact sendAndSettle_meets hw a _ _

theorem doPost_keeps {w : Weather} (hw : kept → w.sent ≠ .lost) (x : Contents) :
    Keeps kept (doPost S w x) := by
  refine (readRequest_keeps w x).bind fun a => keeps_require.bind fun _ => ?_
  exact (deliver_meets hw a).rescue keeps_answer

theorem settle_meets (w : OperatorWeather) (caseId sha256 : String) (c : CaseState) :
    Keeps kept (settle w caseId sha256 c) := by
  refine Meets.bind (Q := fun _ => Sound kept) ?_ fun _ => keeps_pure
  exact .act (fun _ _ h => h.close rfl) (fun _ _ h => h.close rfl) (fun _ h => h)
    (fun _ h => ⟨h, h.close rfl⟩)

theorem armRetry_meets {w : OperatorWeather} {caseId sha256 : String} {c : CaseState} {v : Stored}
    (hv : parseCaseState w.nowMs v = .known c) (hc : c.state ≠ .sent) :
    Meets (fun s => Sound kept s ∧ caseOf caseId s.cases = some v)
      (armRetry w caseId sha256 c) (fun _ => Sound kept) (Sound kept) (Sound kept) := by
  refine (Meets.check fun _ h => h.1).bind fun _ => ?_
  refine (Meets.check fun _ h => h.1.1).bind fun _ => ?_
  refine Meets.bind (Q := fun _ => Sound kept) ?_ fun _ => keeps_pure
  have hput : ∀ s, ((Sound kept s ∧ caseOf caseId s.cases = some v) ∧ c.state ≠ .retryReady) ∧
      c.attempts < maxDeliveryAttempts → Sound kept (s.perform (.put .operator caseId
        (deliveryState (retryState w sha256 c)))) := by
    rintro s ⟨⟨⟨h, hcase⟩, -⟩, hlt⟩
    obtain ⟨hstate, hattempts, hpos⟩ := parse_known hv
    have hopen : v.unresolved = true := by simp [v.unresolved_eq, hstate, hc]
    have hsent : ¬ IsSent caseId s.cases := fun hs => by
      rw [IsSent, hcase, Option.bind_some, hstate] at hs
      exact hc (Option.some.inj hs)
    have harmed : (deliveryState (retryState w sha256 c)).attempts = c.attempts :=
      deliveryState_attempts hpos
    refine h.put (fun st _ _ => ?_) (fun _ => rfl) (h.room hcase hopen _)
      (fun _ hs => absurd hs hsent)
    rw [harmed, ← hattempts]
    exact (h.fit caseId).bounded _ _ hcase hstate hc
  exact .act (fun _ => hput) (fun _ => hput) (fun _ h => h.1.1.1)
    (fun s h => ⟨h.1.1.1, hput s h⟩)

theorem reconcileParsed_meets (w : OperatorWeather) (caseId sha256 : String) (d : Decision)
    (v : Stored) :
    Meets (fun s => Sound kept s ∧ caseOf caseId s.cases = some v)
      (reconcileParsed w caseId sha256 d (parseCaseState w.nowMs v)) (fun _ => Sound kept)
      (Sound kept) (Sound kept) := by
  cases hp : parseCaseState w.nowMs v with
  | invalid => exact .answer fun _ h => h.1
  | legacy stored createdMs =>
    refine (Meets.check fun _ h => h.1).bind fun _ => ?_
    refine (Meets.check fun _ h => h.1.1).bind fun _ => ?_
    exact .pure fun _ h => h.1.1.1
  | known c =>
    refine Meets.bind (Q := fun _ s => Sound kept s ∧ caseOf caseId s.cases = some v)
      (.require (fun _ h _ => h) (fun _ h => h.1)) fun _ => ?_
    refine Meets.bind (Q := fun _ s => Sound kept s ∧ caseOf caseId s.cases = some v)
      (.require (fun _ h _ => h) (fun _ h => h.1)) fun _ => ?_
    refine (Meets.check fun _ h => h.1).bind fun _ => .given fun hc => ?_
    cases d with
    | markDelivered => exact (settle_meets w caseId sha256 c).pre fun _ h => h.1
    | allowRetry => exact armRetry_meets hp hc

theorem reconcileDelivery_keeps (w : OperatorWeather) (caseId expectedSha action : String) :
    Keeps kept (reconcileDelivery w caseId expectedSha action) := by
  refine keeps_require.bind fun _ => ?_
  split
  · exact keeps_answer
  · refine keeps_require.bind fun _ => ?_
    refine Meets.bind (Q := fun stored s => Sound kept s ∧
      caseOf (lower caseId) s.cases = stored)
      (.read (fun _ h => ⟨h, rfl⟩) (fun _ h => h) (fun _ h => h)) fun stored => ?_
    cases stored with
    | none => exact .answer fun _ h => h.1
    | some v => exact reconcileParsed_meets w _ _ _ v

end Passages

-- the final write of a send never takes effect and fails
def Call.Kept : Call → Prop
  | .post w _ => w.sent ≠ .lost
  | .reconcile _ _ _ _ => True

section Runs
variable {S : Services} {kept : Prop} {s : Script}

theorem sound_start (h : (relay S).start s) : Sound kept s := by
  obtain ⟨hj, hk, hs⟩ := h
  have hcases : s.cases = s.initial := by rw [Script.cases, hj]; rfl
  have hnone : ∀ q ∈ s.initial, q.2.unresolved = false := fun q hq => by
    simp [q.2.unresolved_eq, hs q hq]
  have hstate : ∀ c v, caseOf c s.cases = some v → v.state = some .sent := fun c v hv => by
    rw [hcases] at hv
    exact hs _ (lookup_mem (lookup_of_caseOf hv))
  have hcount : unresolvedDeliveryCount s.initial ≤ maxUnresolvedDeliveries := by
    rw [unresolvedDeliveryCount, List.countP_eq_zero.mpr fun q hq => by simp [hnone q hq]]
    exact Nat.zero_le _
  refine ⟨by rw [hj]; exact .nil hcount, fun c => ⟨fun _ => by rw [hj]; exact ⟨rfl, rfl⟩,
    fun v st hv hst hne => ?_, fun v hv hst => ?_⟩, hcases ▸ hk, hcases ▸ hcount⟩
  · rw [hstate c v hv] at hst
    exact absurd (Option.some.inj hst).symm hne
  · rw [hstate c v hv] at hst
    cases hst

theorem sound_step {i : Call} (h : Sound kept s) (hi : kept → i.Kept) :
    Sound kept ((relay S).exec s i).1 := by
  cases i with
  | post w x => exact (doPost_keeps hi x).always (fun _ _ h => h) h
  | reconcile w caseId expectedSha action =>
    exact (reconcileDelivery_keeps w caseId expectedSha action).always (fun _ _ h => h) h

theorem Lawful.weaken {kept' : Prop} {initial : Cases} {j : List Effect}
    (h : Lawful kept initial j) (hk : kept' → kept) : Lawful kept' initial j := by
  induction h with
  | nil h => exact .nil h
  | snoc _ he ih => exact .snoc ih { he with sent := fun hk' => he.sent (hk hk') }

theorem Sound.weaken {kept' : Prop} (h : Sound kept s) (hk : kept' → kept) : Sound kept' s :=
  { h with lawful := h.lawful.weaken hk }

theorem sound_run {s₀ : Script} {tr : List (Call × Result)} (h₀ : (relay S).start s₀)
    (hr : (relay S).Run s₀ tr s) :
    Sound (∀ e ∈ tr, e.1.Kept) s := by
  refine hr.preserves_trace (fun tr s => Sound (∀ e ∈ tr, e.1.Kept) s)
    (fun tr s i h _ => ?_) (sound_start h₀)
  have hweak : Sound (∀ e ∈ tr ++ [(i, ((relay S).exec s i).2)], e.1.Kept) s :=
    h.weaken fun hk e he => hk e (List.mem_append_left _ he)
  exact sound_step hweak fun hk => hk _ (List.mem_append_right _ (List.mem_singleton_self _))

end Runs

-- between two sends for a case its operator allowed a retry
def OncePerApproval (j : List Effect) : Prop :=
  ∀ c m m' pre mid post, j = pre ++ .mail c m :: (mid ++ .mail c m' :: post) → .delete c ∉ mid →
    ∃ v, .put .operator c v ∈ mid ∧ v.state = some .retryReady

def AttemptsBounded (j : List Effect) : Prop :=
  ∀ c pre seg post, j = pre ++ seg ++ post → .delete c ∉ seg →
    seg.countP (isMail c) ≤ maxDeliveryAttempts

def SentStays (initial : Cases) (j : List Effect) : Prop :=
  ∀ c pre e post, j = pre ++ e :: post → IsSent c (replay initial pre) → e ≠ .delete c →
    IsSent c (replay initial (pre ++ [e]))

def Bounded (initial : Cases) (j : List Effect) : Prop :=
  ∀ pre post, j = pre ++ post →
    unresolvedDeliveryCount (replay initial pre) ≤ maxUnresolvedDeliveries

theorem approves_iff {c : String} {e : Effect} :
    approves c e = true ↔ ∃ v, e = .put .operator c v ∧ v.state = some .retryReady := by
  cases e with
  | put writer c' v =>
    cases writer <;> simp [approves]
  | delete c' => simp [approves]
  | mail c' m => simp [approves]

section Journals
variable {kept : Prop} {initial : Cases} {j : List Effect}

theorem Lawful.once (h : Lawful kept initial j) : OncePerApproval j := by
  intro c m m' pre mid post hj hd
  have hsplit : j = (pre ++ .mail c m :: mid) ++ .mail c m' :: post := by simp [hj]
  obtain ⟨e, hm, ha⟩ := armed_mid ((h.legal hsplit).mail c m' rfl) hd
  obtain ⟨v, rfl, hv⟩ := approves_iff.mp ha
  exact ⟨v, hm, hv⟩

theorem Lawful.attempts (h : Lawful kept initial j) : AttemptsBounded j := by
  rintro c pre seg post rfl hd
  have hle := h.prefix.mails_le c
  rw [mails_append pre seg hd] at hle
  omega

theorem Lawful.sentStays (h : Lawful kept initial j) (hk : kept) : SentStays initial j :=
  fun c _ _ _ hj hs hd => ((h.legal hj).sent hk c hs).resolve_right hd

theorem Lawful.bounded (h : Lawful kept initial j) : Bounded initial j := by
  rintro pre post rfl
  cases h.prefix with
  | nil hcap => exact hcap
  | snoc _ he => exact he.unresolved

end Journals

theorem relay_delivers_once (S : Services) {s₀ s : Script} {tr : List (Call × Result)}
    (h₀ : (relay S).start s₀) (hr : (relay S).Run s₀ tr s) :
    OncePerApproval s.journal ∧ AttemptsBounded s.journal ∧ Bounded s.initial s.journal ∧
      (∀ c pre post, s.journal = pre ++ .delete c :: post → IsSent c (replay s.initial pre)) ∧
      ((∀ e ∈ tr, e.1.Kept) → SentStays s.initial s.journal) := by
  have hl := (sound_run h₀ hr).lawful
  exact ⟨hl.once, hl.attempts, hl.bounded,
    fun c pre post hj => (hl.legal hj).expired c rfl, hl.sentStays⟩

def sampleCase : String := String.ofList (List.replicate 32 'c')

def sampleDigest : String := String.ofList (List.replicate 64 'd')

def sampleServices : Services :=
  { hmacDigest := fun _ _ => sampleDigest, dateParse := fun _ => some 0, isEmail := fun _ => true,
    base64Decode := fun _ => some [0x50, 0x4b, 0x03, 0x04], base64Encode := fun _ => "UEsDBA==",
    sha256Hex := fun _ => sampleDigest }

def sampleWeather (mail sent : Outcome) : Weather :=
  { nowMs := 1000, laterMs := 2000, day := "1970-01-01", locked := true,
    secret := String.ofList (List.replicate 43 's'), supportEmail := "support@example.org",
    quota := some 100, mail, sent }

def sampleEnvelope : Envelope :=
  { fields := exactEnvelopeFields, schema := feedbackSchema, caseId := sampleCase,
    bundleSha256 := sampleDigest, bundleBase64 := "UEsDBA==", replyEmail := "",
    receivedUtc := "1970-01-01T00:00:00.000Z", timestamp := "1970-01-01T00:00:00.000Z",
    nonce := sampleCase, signature := sampleDigest }

def samplePost (mail sent : Outcome) : Call :=
  .post (sampleWeather mail sent) (.text 1000 (some sampleEnvelope))

def emptyScript : Script := { initial := [], journal := [], daily := [] }

theorem emptyScript_start : (relay sampleServices).start emptyScript :=
  ⟨rfl, List.nodup_nil, fun _ hq => absurd hq (List.not_mem_nil)⟩

-- the first send is uncertain, the operator allows one retry, and a repeat changes nothing
def retriedDelivery : List Call :=
  [samplePost .refused .done,
   .reconcile { nowMs := 3000, locked := true } sampleCase sampleDigest "allow_retry",
   samplePost .done .done, samplePost .done .done]

theorem relay_delivers_once_retried :
    let s := ((relay sampleServices).play emptyScript retriedDelivery).1
    s.journal.countP (isMail sampleCase) = 2 ∧ OncePerApproval s.journal ∧
      SentStays s.initial s.journal := by
  intro s
  have hchecked : s.journal.countP (isMail sampleCase) = 2 := by decide +kernel
  have hrun := Machine.run_play (M := relay sampleServices) emptyScript retriedDelivery
    ⟨trivial, trivial, trivial, trivial, trivial⟩
  obtain ⟨honce, -, -, -, hsent⟩ := relay_delivers_once sampleServices emptyScript_start hrun
  refine ⟨hchecked, honce, hsent fun e he => ?_⟩
  simp only [Machine.play, retriedDelivery, List.mem_cons, List.not_mem_nil, or_false] at he
  rcases he with rfl | rfl | rfl | rfl
  · exact (by decide : Outcome.done ≠ .lost)
  · trivial
  · exact (by decide : Outcome.done ≠ .lost)
  · exact (by decide : Outcome.done ≠ .lost)

def isDeletion : Effect → Bool
  | .delete _ => true
  | _ => false

theorem sent_state_overwritten :
    ¬ ∀ (S : Services) (s₀ s : Script) (tr : List (Call × Result)), (relay S).start s₀ →
      (relay S).Run s₀ tr s → SentStays s.initial s.journal := by
  intro h
  have hrun := Machine.run_play (M := relay sampleServices) emptyScript [samplePost .done .lost]
    ⟨trivial, trivial⟩
  have hstays := h sampleServices _ _ _ emptyScript_start hrun
  have hchecked : ∀ s, s = ((relay sampleServices).play emptyScript [samplePost .done .lost]).1 →
      s.journal.length = 4 ∧ s.journal.all (fun e => !isDeletion e) = true ∧
      (caseOf sampleCase (replay s.initial (s.journal.take 3))).bind Stored.state = some .sent ∧
      (caseOf sampleCase (replay s.initial s.journal)).bind Stored.state = some .uncertain := by
    rintro s rfl
    decide +kernel
  generalize ((relay sampleServices).play emptyScript [samplePost .done .lost]).1 = s
    at hstays hchecked
  obtain ⟨hlen, hkeep, hsent, huncertain⟩ := hchecked s rfl
  obtain ⟨e, he⟩ : ∃ e, s.journal.drop 3 = [e] :=
    List.length_eq_one_iff.mp (by rw [List.length_drop, hlen])
  have hsplit : s.journal.take 3 ++ [e] = s.journal := he ▸ List.take_append_drop 3 s.journal
  have hne : e ≠ .delete sampleCase := by
    rintro rfl
    have hmem : .delete sampleCase ∈ s.journal := hsplit ▸ by simp
    simpa [isDeletion] using List.all_eq_true.mp hkeep _ hmem
  have hlast := hstays sampleCase (s.journal.take 3) e [] hsplit.symm hsent hne
  rw [hsplit, IsSent, huncertain] at hlast
  cases hlast

end PeerBridge.Relay
