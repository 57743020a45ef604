import PeerBridge.GuidedCleanup
import PeerBridge.Progress
import PeerBridge.Leases

namespace PeerBridge
open Checked Rows

def Mail.busy (m : Mail) (scope id : String) : Bool := m.dispatches.any (m.cancellable scope id)

def Mail.Calm (m : Mail) : Prop :=
  ∀ scope id d, m.discussion? scope id = some d → d.status.isOpen = false → m.NoLiveWork scope id

def FreeStep.ends (f : FreeStep) (d : DiscussionRow) : Bool :=
  f.signal ≠ "INVALID" && (f.consensus || (!f.blocked &&
    !decide (d.maxRounds ≠ 0 ∧ d.maxRounds < f.nextEvent) &&
    !decide (d.maxMessages ≠ 0 ∧ d.maxMessages < f.messageCount + f.targets.length) &&
    f.stagnationCount < d.stagnationRounds && f.targets.isEmpty))

def RoundStep.ends (r : RoundStep) : Bool :=
  r.terminal = 0 && r.complete && r.allSignal (· ≠ "INVALID") && r.allSignal (· = "CONSENSUS")

theorem FreeStep.verdict_completed {f : FreeStep} {d : DiscussionRow} :
    (f.verdict d).1 = .completed ↔ f.ends d = true := by
  unfold FreeStep.verdict FreeStep.ends
  split_ifs <;> simp_all
  omega

theorem RoundStep.verdict_completed {r : RoundStep} {d : DiscussionRow} :
    (r.verdict d).1 = .completed ↔ r.ends = true := by
  unfold RoundStep.verdict RoundStep.ends
  split_ifs <;> simp_all

theorem FreeStep.verdict_open (f : FreeStep) (d : DiscussionRow) :
    (f.verdict d).1.isOpen = true ∨ (f.verdict d).1 = .completed := by
  unfold FreeStep.verdict
  split_ifs <;> simp [DiscussionStatus.isOpen]

theorem RoundStep.verdict_open (r : RoundStep) (d : DiscussionRow) :
    (r.verdict d).1.isOpen = true ∨ (r.verdict d).1 = .completed := by
  unfold RoundStep.verdict
  split_ifs <;> simp [DiscussionStatus.isOpen]

theorem FreeStep.outcome_closed {f : FreeStep} {scope : String} {d : DiscussionRow} {m : Mail}
    (h : (f.outcome scope d m).1.isOpen = false) : f.ends d = true := by
  rw [← FreeStep.verdict_completed (d := d)]
  refine (f.verdict_open d).resolve_left fun ho => ?_
  unfold FreeStep.outcome at h
  split_ifs at h <;> simp_all [DiscussionStatus.isOpen]

theorem RoundStep.outcome_closed {r : RoundStep} {d : DiscussionRow}
    (h : (r.outcome d).1.isOpen = false) : r.ends = true := by
  rw [← RoundStep.verdict_completed (d := d)]
  refine (r.verdict_open d).resolve_left fun ho => ?_
  unfold RoundStep.outcome at h
  split_ifs at h <;> simp_all [DiscussionStatus.isOpen]

-- the replies of the discussion end it at the next sweep
def concludes (P : Platform) (scope : String) (s : Store) (d : DiscussionRow) : Bool :=
  match discussionParticipants P scope d.discussionId s with
  | .error _ => false
  | .ok participants =>
    if (automationMode s.rooms d).any RoomMode.isFree then
      (s.mail.latestTerminal scope d.discussionId).isNone &&
      (s.mail.freeTrigger scope d.discussionId).any
        (fun response => (freeStep P scope s.mail d participants response).ends d)
    else
      !(s.mail.prompts scope d.discussionId d.currentRound).isEmpty &&
      (roundStep P scope s.mail d participants).ends

-- no discussion is closed by a policy or by its own replies while a prompt of it is taken up
def endsQuietly (P : Platform) (c : Ctx) (s : Store) : Call → Bool
  | .setRoomAutomation a =>
    (RoomMode.parse? (lower (strip a.mode))).all (fun mode => mode.automates ||
      (openDiscussions c.self.scope (strip a.roomId) s.mail).all
        (fun d => !s.mail.busy c.self.scope d.discussionId))
  | .advance a =>
    match selectDiscussions c.self a s with
    | .error _ => true
    | .ok ds => ds.all (fun d => !concludes P c.self.scope s d ||
        !s.mail.busy c.self.scope d.discussionId)
  | _ => true

section Live
variable {P : Platform} {c : Ctx} {r : Rooms} {s s' : Store} {m m' : Mail} {scope id : String}
  {d : DiscussionRow} {x : MessageRow}

theorem Mail.busy_iff : m.busy scope id = false ↔ m.NoLiveWork scope id := by
  simp [Mail.busy, Mail.NoLiveWork]

theorem noLiveWork_iff (h : m.WF P r) : m.NoLiveWork scope id ↔
    ∀ x ∈ m.ofDiscussion scope id .prompt, m.live x = false := by
  constructor
  · intro hq x hx
    obtain ⟨hm, hs, hi, hrole⟩ := mem_ofDiscussion.mp hx
    cases hd : m.dispatchOf x with
    | none => rw [Mail.live, hd]; rfl
    | some e =>
      obtain ⟨he, hk⟩ := h.toBase.dispatch_mem.mp hd
      simp only [DispatchRow.key, Prod.mk.injEq] at hk
      have hsource : m.message? scope e.messageId = some x := by
        rw [← hs, hk.2.1]
        exact h.lookup hm
      have hscope : e.scope = scope := hk.1.trans hs
      simpa [Mail.live, hd, Mail.cancellable, hscope, hsource, hi, hrole] using hq e he
  · intro hq e he
    by_contra hc
    obtain ⟨hs, ht, y, hy, hi, -⟩ := cancellable_source (by simpa using hc)
    obtain ⟨z, hz⟩ := h.dispatched e he
    obtain rfl : y = z := Option.some.inj (hy.symm.trans hz.source)
    obtain ⟨hmem, hrec, -⟩ := hz.recipient h hi
    have hyk := lookup_key hy
    obtain ⟨hys, hyid⟩ := Prod.mk.inj hyk
    have hat : m.dispatchOf y = some e :=
      h.toBase.dispatch_mem.mpr ⟨he, by rw [hrec, hys, hyid]; rfl⟩
    have hlive := hq y (by rw [← hs, ← hys]; exact hmem)
    simp [Mail.live, hat, ht] at hlive

theorem leaseCell_live :
    (leaseCell m (x.scope, x.messageId, x.recipient)).Live ↔ m.live x = true := by
  have hat : m.dispatchAt (x.scope, x.messageId, x.recipient) = m.dispatchOf x := rfl
  rw [Mail.live, ← hat]
  cases hd : m.dispatchAt (x.scope, x.messageId, x.recipient) with
  | none => simp [leaseCell_none hd, Lease.Cell.Live]
  | some e =>
    rw [leaseCell_some hd, Lease.Cell.Live]
    unfold leasePhase
    cases hs : e.status with
    | claimed => cases e.leaseTokenSha256 <;> simp [hs, DispatchStatus.terminal]
    | retryable => simp [hs, DispatchStatus.terminal]
    | failed => simp [hs, DispatchStatus.terminal]
    | completed => simp [hs, DispatchStatus.terminal]

-- a prompt is taken up only while its discussion is active, and the claim leaves it so
theorem grant_active {call : Call} {y : Reply} {t : Sha256} (h : s.WF P)
    (hp : perform P c s call = .ok (s', y)) (hx : x ∈ s.mail.ofDiscussion scope id .prompt)
    (hl : leaseLabel P (x.scope, x.messageId, x.recipient) (.ok y) = .grant t) :
    ∃ d, s'.mail.discussion? scope id = some d ∧ d.status.isOpen = true := by
  obtain ⟨hmem, hscope, hid, -⟩ := mem_ofDiscussion.mp hx
  cases call <;> simp only [perform] at hp
  case openScope =>
    simp only [pure_eq_ok, Prod.mk.injEq] at hp
    obtain ⟨-, rfl⟩ := hp
    cases hl
  case complete a =>
    obtain ⟨z, -, rfl⟩ := replyWith_ok hp
    simp only [leaseLabel] at hl
    split at hl <;> cases hl
  case claim a =>
    obtain ⟨z, hz, rfl⟩ := replyWith_ok hp
    rcases claimMessageDispatch_ok hz with ⟨rfl, -⟩ | ⟨q, row, -, hc, hm, -, rfl⟩
    · cases hl
    simp only [leaseLabel] at hl
    split at hl
    · rename_i hk
      simp only [claimedDispatch, sealDispatch, DispatchRow.key, Prod.mk.injEq] at hk
      obtain rfl : row = x := eq_of_key_eq h.mail.ids hc.mem hmem hk.2.1
      have hactive : s.mail.discussionIn scope id [.active] = true := by
        have he := hc.eligible
        simp only [claimWhere, Bool.and_eq_true] at he
        simpa [hid, hscope] using he.1.1.1.1.2
      obtain ⟨d, hd, hs⟩ := (Option.any_eq_true _ _).mp hactive
      refine ⟨d, by rw [hm]; exact hd, ?_⟩
      simp only [List.mem_singleton, decide_eq_true_eq] at hs
      rw [hs]
      rfl
    · cases hl
  all_goals
    obtain ⟨z, -, rfl⟩ := replyWith_ok hp
    cases hl

theorem live_kept {call : Call} {y : Reply} (h : s.WF P)
    (hp : perform P c s call = .ok (s', y)) (hx : x ∈ s.mail.ofDiscussion scope id .prompt)
    (hd : s'.mail.discussion? scope id = some d) (hc : d.status.isOpen = false)
    (hq : s.mail.live x = false) : s'.mail.live x = false := by
  by_contra hl
  have hstep := perform_step hp (x.scope, x.messageId, x.recipient)
  rcases hstep.live (leaseCell_live.mpr (by simpa using hl)) with hb | ⟨t, ht⟩
  · exact absurd (leaseCell_live.mp hb) (by simp [hq])
  · obtain ⟨e, he, ho⟩ := grant_active h hp hx ht
    obtain rfl := Option.some.inj (hd.symm.trans he)
    simp [hc] at ho

theorem closed_not_active {status : DiscussionStatus} (h : status.isOpen = false) :
    status ≠ .active := by
  rintro rfl
  simp [DiscussionStatus.isOpen] at h

theorem inserted_none {rows : List MessageRow} (h : Inserted P c [] rows m m') :
    m'.messages = m.messages := by
  obtain rfl : rows = [] := h.rows_eq
  rw [h.mail_eq]
  exact List.append_nil _

theorem controls_calm {extra : Nat} {action : ControlAction} {updated : DiscussionRow}
    (h : Controls P c extra d s action m updated) (hc : updated.status.isOpen = false) :
    m = cancelDiscussionDispatches P c.self.scope d.discussionId "discussion_stopped"
      (utcNow c.clock.entry) s.mail := by
  cases h with
  | stop _ => rfl
  | pause _ => simp [DiscussionStatus.isOpen] at hc
  | resume _ => simp [DiscussionStatus.isOpen] at hc
  | reopen _ _ => simp [continueLimits, DiscussionStatus.isOpen] at hc
  | extend _ _ => simp [continuedDiscussion, continueLimits, DiscussionStatus.isOpen] at hc

theorem stopForPolicy_row {ds : List DiscussionRow} {now : Utc} (scope id : String) (m : Mail) :
    (stopForPolicy P now ds m).discussion? scope id = m.discussion? scope id ∨
      ∃ d ∈ ds, d.key = (scope, id) := by
  unfold stopForPolicy
  induction ds generalizing m with
  | nil => exact .inl rfl
  | cons d ds ih =>
    rw [List.foldl_cons]
    by_cases hk : d.key = (scope, id)
    · exact .inr ⟨d, List.mem_cons_self, hk⟩
    · rcases ih (m.putDiscussion (sealDiscussion P now
          { d with status := .stopped, stopReason := some .policyChanged })) with hr | ⟨e, he, hk'⟩
      · exact .inl (hr.trans (discussion?_other (by exact hk)))
      · exact .inr ⟨e, List.mem_cons_of_mem _ he, hk'⟩

theorem setRoomAutomation_request {a : SetRoomAutomationArgs} {policy : PolicyRow}
    (h : setRoomAutomation P c a s = .ok (s', policy)) :
    RoomMode.parse? (lower (strip a.mode)) = some policy.mode ∧ policy.roomId = strip a.roomId := by
  simp only [setRoomAutomation, bind_eq_ok, require_eq_ok, demand_eq_ok, pure_eq_ok,
    Prod.mk.injEq] at h
  obtain ⟨roomId, hid, mode, hmode, ⟨_, _⟩, -, _, -, -, -, _, -, existing, hpol, ⟨_, _⟩, -, -, rfl⟩
    := h
  simp only [roomPolicy, bind_eq_ok, demand_eq_ok] at hpol
  obtain ⟨_, -, hpol⟩ := hpol
  have hkey := lookup_key hpol
  exact ⟨hmode, (Prod.mk.inj hkey).2.trans (requireIdentifier_ok hid).1⟩

-- a policy stops no discussion that has work in flight
theorem setRoomAutomation_calm {a : SetRoomAutomationArgs} {policy : PolicyRow}
    (h : setRoomAutomation P c a s = .ok (s', policy))
    (hg : endsQuietly P c s (.setRoomAutomation a) = true) (scope id : String) :
    s'.mail.discussion? scope id = s.mail.discussion? scope id ∨
      s.mail.NoLiveWork scope id := by
  obtain ⟨hmode, hroom⟩ := setRoomAutomation_request h
  obtain ⟨_, _, _, _, _, _, _, _, hm⟩ := setRoomAutomation_ok h
  simp only [endsQuietly, hmode, Option.all_some, Bool.or_eq_true, List.all_eq_true,
    Bool.not_eq_true'] at hg
  rw [hm]
  split
  · exact .inl rfl
  · rename_i hstops
    rcases stopForPolicy_row scope id s.mail with hr | ⟨d, hd, hk⟩
    · exact .inl hr
    · have hquiet := hg.resolve_left hstops d (hroom ▸ hd)
      have hscope : d.scope = c.self.scope := by
        have := (List.mem_filter.mp hd).2
        simp only [decide_eq_true_eq] at this
        exact this.1
      simp only [DiscussionRow.key, Prod.mk.injEq] at hk
      rw [← hscope, hk.1, hk.2] at hquiet
      exact .inr (Mail.busy_iff.mp hquiet)

theorem Frame.live (h : Frame scope id m m') (hx : x ∈ m.ofDiscussion scope id .prompt) :
    m'.live x = m.live x := by
  rw [Mail.live, h.dispatchOf hx, Mail.live]

theorem Frame.concludes (hw : s.mail.WF P s.rooms)
    (h : Frame scope d.discussionId s.mail s'.mail) (hr : s'.rooms = s.rooms) :
    concludes P scope s' d = concludes P scope s d := by
  simp only [PeerBridge.concludes, discussionParticipants_frame h hr, hr, h.latestTerminal,
    h.freeTrigger, h.freeStep, h.roundStep hw, h.prompts]

theorem steps_calm {mode : Option RoomMode} {a : Option Advance}
    (hmode : mode = automationMode s.rooms d) (hs : Steps P c mode d s s' a)
    (hopen : d.status.isOpen = true) {e : DiscussionRow}
    (hkey : d.key = (c.self.scope, d.discussionId))
    (hd : s.mail.discussion? c.self.scope d.discussionId = some d)
    (he : s'.mail.discussion? c.self.scope d.discussionId = some e)
    (hc : e.status.isOpen = false) :
    concludes P c.self.scope s d = true ∧
      s'.mail.ofDiscussion c.self.scope d.discussionId .prompt =
        s.mail.ofDiscussion c.self.scope d.discussionId .prompt := by
  subst hmode
  have put {m : Mail} {d' : DiscussionRow} (hm : s'.mail = m.putDiscussion d')
      (hk : d'.key = d.key) : e = d' := by
    rw [hm, Mail.discussion?_putDiscussion, if_pos (hk.trans hkey), Option.some.injEq] at he
    exact he.symm
  cases hs with
  | idle hs =>
    rw [hs, hd, Option.some.injEq] at he
    simp [← he, hopen] at hc
  | freeUnavailable _ _ hb =>
    rw [put hb.mail_eq rfl] at hc
    simp [sealDiscussion, DiscussionStatus.isOpen] at hc
  | freeFailed _ _ _ hs =>
    rw [put hs rfl] at hc
    simp [sealDiscussion, DiscussionStatus.isOpen] at hc
  | @free participants response rows f m hm hp hl ht hf hi hs =>
    rw [put hs rfl] at hc
    have hc : (f.outcome c.self.scope d s.mail).1.isOpen = false := hc
    refine ⟨?_, ?_⟩
    · have hends : f.ends d = true := FreeStep.outcome_closed hc
      rw [hf] at hends
      simp [concludes, hp, hm, hl, ht, hends]
    · rw [FreeStep.drafts, if_neg (closed_not_active hc)] at hi
      have hmessages := inserted_none hi
      rw [hs]
      exact ofDiscussion_congr hmessages
  | roundUnavailable _ _ _ hb =>
    rw [put hb.mail_eq rfl] at hc
    simp [sealDiscussion, DiscussionStatus.isOpen] at hc
  | @round participants rows r m hm hn hp hr _ hdone hi hs =>
    rw [put hs rfl] at hc
    have hc : (r.outcome d).1.isOpen = false := hc
    refine ⟨?_, ?_⟩
    · have hends : r.ends = true := RoundStep.outcome_closed (d := d) hc
      rw [hr] at hends
      simp [concludes, hp, hm, hn, hends]
    · rw [RoundStep.drafts, if_neg (closed_not_active hc)] at hi
      have hmessages := inserted_none hi
      rw [hs]
      exact ofDiscussion_congr hmessages

theorem perform_calm {call : Call} {y : Reply} (h : s.WF P)
    (hp : perform P c s call = .ok (s', y)) (hg : endsQuietly P c s call = true)
    (hq : s.mail.Calm) : s'.mail.Calm := by
  intro scope id d hd hc
  have h' : s'.WF P := perform_wf h hp
  rw [noLiveWork_iff h'.mail]
  have before {e : DiscussionRow} (he : s.mail.discussion? scope id = some e)
      (ho : e.status.isOpen = false) :
      ∀ x ∈ s.mail.ofDiscussion scope id .prompt, s.mail.live x = false :=
    (noLiveWork_iff h.mail).mp (hq scope id e he ho)
  have after (hrows : s'.mail.ofDiscussion scope id .prompt =
      s.mail.ofDiscussion scope id .prompt)
      (hb : ∀ x ∈ s.mail.ofDiscussion scope id .prompt, s.mail.live x = false) :
      ∀ x ∈ s'.mail.ofDiscussion scope id .prompt, s'.mail.live x = false := by
    intro x hx
    rw [hrows] at hx
    exact live_kept h hp hx hd hc (hb x hx)
  have he := perform_effect h hp scope id
  generalize replyTriggers scope id c (.ok y) = ts at he
  cases he with
  | moved hm => exact after (hm.rows _) (before (hm.row ▸ hd) hc)
  | closed hcl hcalm =>
    rcases hcalm with hcalm | ⟨a, rfl⟩
    · intro x hx
      rw [hcl.rows] at hx
      exact hcl.quiet hcalm x hx
    · simp only [perform] at hp
      obtain ⟨policy, hset, -⟩ := replyWith_ok hp
      rcases setRoomAutomation_calm hset hg scope id with hrow | hwork
      · exact after (hcl.rows _) (before (hrow ▸ hd) hc)
      · exact after (hcl.rows _) ((noLiveWork_iff h.mail).mp hwork)
  | answered ha => exact after ha.prompts (before (ha.row ▸ hd) hc)
  | opened ho =>
    obtain rfl := Option.some.inj (hd.symm.trans ho.row)
    simp [newDiscussion, sealDiscussion, DiscussionStatus.isOpen] at hc
  | @controlled a action e updated m _ hscope _ _ _ he hk hm =>
    subst hscope
    obtain rfl := discussion?_id he
    have hkey : updated.key = (c.self.scope, e.discussionId) := by
      rw [← lookup_key he]
      cases hk <;> rfl
    rw [hm, Mail.discussion?_putDiscussion, if_pos (by exact hkey), Option.some.injEq] at hd
    obtain rfl := controls_calm hk (by rw [← hd] at hc; exact hc)
    intro x hx
    rw [hm] at hx ⊢
    exact cancel_live h.mail hx
  | @advanced a ds ts hcall hscope hsel ht =>
    subst hcall
    cases ht with
    | passed hf => exact after (hf.rows _) (before (hf.row ▸ hd) hc)
    | @taken e s₁ s₂ b _ hid he hmem hb hr hw hs hf =>
      subst hscope hid
      have hactive : e.status.isOpen = true := by
        obtain ⟨_, _, -, -, rfl⟩ := selectDiscussions_ok hsel
        have hwhere := (List.mem_filter.mp ((List.mem_insertionSort _).mp
          (List.mem_of_mem_take hmem))).2
        simp only [advanceWhere, Bool.and_eq_true, decide_eq_true_eq] at hwhere
        rw [hwhere.1.1.2]
        rfl
      obtain ⟨hends, hrows⟩ := steps_calm (by rw [hr]) hs hactive (lookup_key he)
        (hb.row.trans he) (hf.row ▸ hd) hc
      rw [Frame.concludes h.mail hb hr] at hends
      simp only [endsQuietly, hsel, List.all_eq_true, Bool.or_eq_true, Bool.not_eq_true'] at hg
      have hquiet := (hg e hmem).resolve_left (by simp [hends])
      exact after ((hf.rows _).trans (hrows.trans (hb.rows _)))
        ((noLiveWork_iff h.mail).mp (Mail.busy_iff.mp hquiet))

theorem Fate.calm (h : ∀ scope id, Fate scope id m m') (hq : m.Calm) : m'.Calm := by
  intro scope id d hd hc
  cases h scope id with
  | kept hrow hwork => exact hwork.mpr (hq scope id d (hrow ▸ hd) hc)
  | closed _ hafter => exact hafter.quiet

theorem QueueStep.fate {call : QueueCall} {q q' : Database} {y : QueueReply}
    (h : QueueStep P c call q q' y) (scope id : String) :
    Fate scope id q.store.mail q'.store.mail := by
  cases h with
  | moved hm => exact QueueMoves.fate hm
  | granted _ hm hg =>
    rw [hg.mail_eq]
    exact QueueMoves.fate hm

end Live

def EndsQuietly (P : Platform) (o : Office) (i : OfficeCall × Ctx) : Prop :=
  match i.1 with
  | .mail call => endsQuietly P i.2 o.world.store call = true
  | .queue _ => True

instance (P : Platform) (o : Office) : (i : OfficeCall × Ctx) → Decidable (EndsQuietly P o i)
  | (.mail call, c) =>
    inferInstanceAs (Decidable (endsQuietly P c o.world.store call = true))
  | (.queue _, _) => inferInstanceAs (Decidable True)

section Runs
variable {P : Platform} {J : JsonReader} {o : Office}

theorem exec_calm {i : OfficeCall × Ctx} (ho : o.Valid P) (hg : EndsQuietly P o i)
    (hq : o.database.store.mail.Calm) :
    ((controlRoom P J).exec o i).1.database.store.mail.Calm := by
  obtain ⟨call, c⟩ := i
  cases call with
  | mail call =>
    rw [exec_mail]
    show (attempt P o.world (call, c)).1.store.mail.Calm
    exact attempt_view (call, c) hq fun s' y hp => perform_calm ho.sound.wf hp hg hq
  | queue call =>
    rcases exec_queue (P := P) (J := J) (o := o) (c := c) call with hsame | ⟨q, y, hp, he⟩
    · rw [hsame]
      exact hq
    · rw [he]
      exact Fate.calm (performQueue_step ho.sound hp).fate hq

theorem closed_discussions_quiet (h : ((controlRoom P J).restrict (EndsQuietly P)).Reachable o)
    {scope id : String} {d : DiscussionRow}
    (hd : o.database.store.mail.discussion? scope id = some d)
    (hclosed : d.status = .stopped ∨ d.status = .completed) :
    ∀ x ∈ o.database.store.mail.ofDiscussion scope id .prompt,
      ∀ e ∈ o.database.store.mail.dispatchesOf x, e.status ≠ .claimed ∧ e.status ≠ .retryable := by
  have hinv : o.Valid P ∧ o.database.store.mail.Calm := by
    refine h.invariant (fun o => o.Valid P ∧ o.database.store.mail.Calm) ?_ ?_
    · rintro _ ⟨connections, now, rfl⟩
      exact ⟨initial_valid connections now, fun scope id d hd => by cases hd⟩
    · rintro o i ⟨hv, hq⟩ ⟨-, hg⟩
      exact ⟨exec_valid hv, exec_calm hv hg hq⟩
  obtain ⟨hv, hq⟩ := hinv
  have hc : d.status.isOpen = false := by
    rcases hclosed with hs | hs <;> rw [hs] <;> rfl
  intro x hx e he
  obtain ⟨hmem, hscope, hid, hrole⟩ := mem_ofDiscussion.mp hx
  obtain ⟨he, hk⟩ := List.mem_filter.mp he
  simp only [decide_eq_true_eq] at hk
  have hsource : o.database.store.mail.message? scope e.messageId = some x := by
    rw [← hscope, hk.2]
    exact hv.sound.wf.mail.lookup hmem
  have hquiet := hq scope id d hd hc e he
  have hterminal : e.status.terminal = true := by
    simpa [Mail.cancellable, hk.1, hscope, hsource, hid, hrole] using hquiet
  constructor <;> intro hs <;> simp [hs, DispatchStatus.terminal] at hterminal

end Runs

def closingDiscussion : String := (Uuid.ofNat 1006).text

def takenUp : List (OfficeCall × Ctx) :=
  (asHuman 1 (sampleSeats ["a"] ++ [sampleAutomation "discussion", samplePost]) ++
    [sampleClaim (sampleAgent "a") 1 7]).map (fun x => (.mail x.1, x.2))

def humanStop : OfficeCall × Ctx :=
  (.mail (.control { discussionId := closingDiscussion, action := "stop" }), sampleCtx sampleHuman 8)

def policyOff : OfficeCall × Ctx := (.mail (sampleAutomation "off"), sampleCtx sampleHuman 8)

def Office.stoppedWith (o : Office) (status : DispatchStatus) : Bool :=
  (o.database.store.mail.discussion? "demo" closingDiscussion).any (fun d => d.status = .stopped) &&
  (o.database.store.mail.ofDiscussion "demo" closingDiscussion .prompt).any (fun x =>
    (o.database.store.mail.dispatchesOf x).any (fun e => e.status = status))

set_option maxRecDepth 100000 in
theorem closed_discussions_quiet_stopped :
    let M := (controlRoom samplePlatform sampleReader).restrict (EndsQuietly samplePlatform)
    let o := (M.play (.initial [] 0) (takenUp ++ [humanStop])).1
    o.stoppedWith .failed = true ∧
      ∀ x ∈ o.database.store.mail.ofDiscussion "demo" closingDiscussion .prompt,
        ∀ e ∈ o.database.store.mail.dispatchesOf x,
          e.status ≠ .claimed ∧ e.status ≠ .retryable := by
  intro M o
  have hcheck : M.AdmitsAll (.initial [] 0) (takenUp ++ [humanStop]) ∧
      o.stoppedWith .failed = true := by decide +kernel
  obtain ⟨hopen, hstopped⟩ := hcheck
  have hreach : M.Reachable o := ⟨_, _, ⟨[], 0, rfl⟩, Machine.run_play _ _ hopen⟩
  refine ⟨hstopped, ?_⟩
  generalize o = p at hreach hstopped
  simp only [Office.stoppedWith, Bool.and_eq_true] at hstopped
  obtain ⟨d, hd, hs⟩ := (Option.any_eq_true _ _).mp hstopped.1
  exact closed_discussions_quiet hreach hd (.inl (by simpa using hs))

set_option maxRecDepth 100000 in
theorem policy_change_leaves_claims :
    let M := controlRoom samplePlatform sampleReader
    ¬ ∀ (o : Office) (d : DiscussionRow), M.Reachable o →
      o.database.store.mail.discussion? "demo" closingDiscussion = some d →
      d.status = .stopped ∨ d.status = .completed →
      ∀ x ∈ o.database.store.mail.ofDiscussion "demo" closingDiscussion .prompt,
        ∀ e ∈ o.database.store.mail.dispatchesOf x,
          e.status ≠ .claimed ∧ e.status ≠ .retryable := by
  intro M h
  have hcheck : M.AdmitsAll (.initial [] 0) (takenUp ++ [policyOff]) ∧
      (M.play (.initial [] 0) (takenUp ++ [policyOff])).1.stoppedWith .claimed = true := by
    decide +kernel
  obtain ⟨hopen, hstopped⟩ := hcheck
  have hreach : M.Reachable (M.play (.initial [] 0) (takenUp ++ [policyOff])).1 :=
    ⟨_, _, ⟨[], 0, rfl⟩, Machine.run_play _ _ hopen⟩
  generalize (M.play (.initial [] 0) (takenUp ++ [policyOff])).1 = o at hreach hstopped
  simp only [Office.stoppedWith, Bool.and_eq_true] at hstopped
  obtain ⟨d, hd, hs⟩ := (Option.any_eq_true _ _).mp hstopped.1
  obtain ⟨x, hx, he⟩ := List.any_eq_true.mp hstopped.2
  obtain ⟨e, he, hclaimed⟩ := List.any_eq_true.mp he
  exact (h o d hreach hd (.inl (by simpa using hs)) x hx e he).1 (by simpa using hclaimed)

end PeerBridge
