import PeerBridge.Progress
import PeerBridge.Scenario

namespace PeerBridge
open Checked Rows

def stored (scope id : String) (m : Mail) : Nat :=
  (m.ofDiscussion scope id .prompt).length + (m.ofDiscussion scope id .response).length

-- the prompts that may still be answered
def owed (scope id : String) (m : Mail) : Nat :=
  (m.ofDiscussion scope id .prompt).countP (fun x => !m.closed x)

def withinBudget (scope id : String) (m : Mail) (maxMessages fanOut : Nat) : Bool :=
  maxMessages = 0 || stored scope id m + owed scope id m + 2 * fanOut ≤ maxMessages

def Budgeted (scope id : String) (m : Mail) : Prop :=
  ∀ d, m.discussion? scope id = some d → withinBudget scope id m d.maxMessages 0 = true

section Counts
variable {P : Platform} {c : Ctx} {s s' : Store} {scope id : String} {m m' : Mail}
  {d d' : DiscussionRow} {x : MessageRow} {rows : List MessageRow}

theorem withinBudget_iff {n k : Nat} : withinBudget scope id m n k = true ↔
    (n ≠ 0 → stored scope id m + owed scope id m + 2 * k ≤ n) := by
  rw [withinBudget, Bool.or_eq_true, decide_eq_true_eq, decide_eq_true_eq]
  tauto

theorem countP_drop {α : Type} {p q : α → Bool} {l : List α} {x : α} (hx : x ∈ l)
    (hp : p x = true) (hq : q x = false) (hle : ∀ y ∈ l, q y = true → p y = true) :
    l.countP q + 1 ≤ l.countP p := by
  obtain ⟨as, bs, rfl⟩ := List.append_of_mem hx
  have has : as.countP q ≤ as.countP p :=
    List.countP_mono_left fun y hy => hle y (List.mem_append_left _ hy)
  have hbs : bs.countP q ≤ bs.countP p :=
    List.countP_mono_left fun y hy => hle y (List.mem_append_right _ (List.mem_cons_of_mem _ hy))
  rw [List.countP_append, List.countP_append, List.countP_cons_of_neg (by simp [hq]),
    List.countP_cons_of_pos hp]
  omega

theorem owed_moves (hrows : m'.ofDiscussion scope id .prompt = m.ofDiscussion scope id .prompt)
    (hd : ∀ x ∈ m.ofDiscussion scope id .prompt, Moves (m.dispatchOf x) (m'.dispatchOf x)) :
    owed scope id m' ≤ owed scope id m := by
  rw [owed, hrows]
  refine List.countP_mono_left fun x hx hopen => ?_
  simp only [Bool.not_eq_true'] at hopen ⊢
  by_contra hc
  rw [(hd x hx).keeps_closed (Bool.eq_true_of_not_eq_false hc)] at hopen
  cases hopen

theorem Moved.budget (h : Moved scope id m m') :
    stored scope id m' = stored scope id m ∧ owed scope id m' ≤ owed scope id m :=
  ⟨by rw [stored, h.rows, h.rows, stored], owed_moves (h.rows _) h.dispatch⟩

theorem Written.budget (h : Written scope id d' rows m m') :
    stored scope id m' + owed scope id m' ≤
      stored scope id m + owed scope id m + 2 * rows.length := by
  have hold : (m.ofDiscussion scope id .prompt).countP (fun x => !m'.closed x) ≤
      owed scope id m := by
    refine List.countP_mono_left fun x hx hopen => ?_
    simp only [Bool.not_eq_true'] at hopen ⊢
    by_contra hc
    rw [(h.dispatch x hx).keeps_closed (Bool.eq_true_of_not_eq_false hc)] at hopen
    cases hopen
  have hnew : rows.countP (fun x => !m'.closed x) ≤ rows.length := List.countP_le_length
  rw [stored, owed, h.prompts, h.responses, List.length_append, List.countP_append, stored]
  omega

theorem Answered.budget {reply : MessageRow} (hb : m.Base P)
    (h : Answered c scope id x reply m m') :
    stored scope id m' + owed scope id m' ≤ stored scope id m + owed scope id m := by
  have hdrop : owed scope id m' + 1 ≤ owed scope id m := by
    rw [owed, h.prompts]
    obtain ⟨e, he, hclaimed⟩ := h.claimed
    obtain ⟨z, hz, hdone⟩ := h.completed
    have hopen : m.closed x = false := by
      show (m.dispatchOf x).any (fun e => e.status.terminal) = false
      rw [he, Option.any_some, hclaimed]
      rfl
    have hshut : m'.closed x = true := closed_dispatch.mpr ⟨z, hz, by rw [hdone]; rfl⟩
    refine countP_drop h.prompt (by simp [hopen]) (by simp [hshut]) fun y hy hy' => ?_
    simp only [Bool.not_eq_true'] at hy' ⊢
    by_contra hc
    have hkeep := (h.onward hb).closed y hy (Bool.eq_true_of_not_eq_false hc)
    have hsame : m'.closed y = m.closed y := congrArg (Option.any _) hkeep
    rw [hsame] at hy'
    exact hc hy'
  rw [stored, h.prompts, h.responses, List.length_append, List.length_singleton, stored]
  omega

theorem Budgeted.moved (h : Moved scope id m m') (hb : Budgeted scope id m) :
    Budgeted scope id m' := by
  intro d hd
  rw [h.row] at hd
  have hle := withinBudget_iff.mp (hb d hd)
  obtain ⟨hs, ho⟩ := h.budget
  exact withinBudget_iff.mpr fun hn => by
    have := hle hn
    omega

theorem Written.budgeted (h : Written scope id d' rows m m')
    (hw : withinBudget scope id m d'.maxMessages rows.length = true) : Budgeted scope id m' := by
  intro e he
  obtain rfl : d' = e := Option.some.inj (h.row.symm.trans he)
  have hle := withinBudget_iff.mp hw
  have hgrow := h.budget
  exact withinBudget_iff.mpr fun hn => by
    have := hle hn
    omega

theorem put_budgeted (hd : m.discussion? scope id = some d) (h : Moved scope id m m')
    (hk : d'.key = d.key) (hmax : d'.maxMessages = d.maxMessages) (hb : Budgeted scope id m) :
    Budgeted scope id (m'.putDiscussion d') :=
  (written_put hd hk h).budgeted (hmax ▸ hb d hd)

theorem insert_budgeted {r : Rooms} {n : Nat} {reply : Option String} {ds : List Draft}
    (h : m.WF P r) (hd : m.discussion? c.self.scope d.discussionId = some d)
    (hi : Inserted P c ds rows m m') (hrows : ∀ x ∈ rows, SeatRow c d n reply m x)
    (hk : d'.key = d.key)
    (hw : withinBudget c.self.scope d.discussionId m d'.maxMessages rows.length = true) :
    Budgeted c.self.scope d.discussionId (m'.putDiscussion d') :=
  (written_insert h hd hk hi hrows).budgeted hw

end Counts

-- how many prompts an advance of the discussion adds
def advanceFanOut (P : Platform) (c : Ctx) (mode : Option RoomMode) (d : DiscussionRow)
    (s : Store) : Nat :=
  match discussionParticipants P c.self.scope d.discussionId s with
  | .error _ => 0
  | .ok participants =>
    if mode.any RoomMode.isFree then
      match s.mail.latestTerminal c.self.scope d.discussionId,
        s.mail.freeTrigger c.self.scope d.discussionId with
      | none, some response =>
        let f := freeStep P c.self.scope s.mail d participants response
        if (f.outcome c.self.scope d s.mail).1 = .active then f.targets.length else 0
      | _, _ => 0
    else
      let r := roundStep P c.self.scope s.mail d participants
      if r.promptCount ≤ r.responses.length + r.terminal ∧ (r.outcome d).1 = .active then
        participants.length
      else 0

section Steps
variable {P : Platform} {c : Ctx} {s s' : Store} {scope id : String} {m m' : Mail}
  {d d' : DiscussionRow} {x : MessageRow} {rows : List MessageRow}

theorem steps_budgeted {mode : Option RoomMode} {a : Option Advance} (h : s.mail.WF P s.rooms)
    (hd : s.mail.discussion? c.self.scope d.discussionId = some d)
    (hs : Steps P c mode d s s' a)
    (hw : withinBudget c.self.scope d.discussionId s.mail d.maxMessages
      (advanceFanOut P c mode d s) = true)
    (hb : Budgeted c.self.scope d.discussionId s.mail) :
    Budgeted c.self.scope d.discussionId s'.mail := by
  have hnone : ∀ x ∈ ([] : List MessageRow), SeatRow c d 0 none s.mail x := by simp
  cases hs with
  | idle hs => rwa [hs]
  | freeUnavailable _ _ hk =>
    rw [hk.mail_eq]
    exact put_budgeted hd (cancel_moved _ _ _ _) rfl rfl hb
  | freeFailed _ _ _ hs =>
    rw [hs]
    exact put_budgeted hd (.refl _) rfl rfl hb
  | @free participants response rows f m hm hp hl hx hf hi hs =>
    rw [hs]
    by_cases ha : (f.outcome c.self.scope d s.mail).1 = .active
    · rw [FreeStep.drafts, if_pos ha] at hi
      have hsub : ∀ seat ∈ f.targets, seat ∈ participants := hf ▸ freeStep_targets
      have hlen : rows.length = advanceFanOut P c mode d s := by
        rw [hi.rows_eq, draftRows_length, List.length_map]
        simp only [advanceFanOut, hp, hm, hl, hx, if_true, ← hf, ha]
      exact insert_budgeted h hd hi (seat_rows h hd hp hsub hi) rfl (hlen ▸ hw)
    · rw [FreeStep.drafts, if_neg ha] at hi
      obtain rfl : rows = [] := hi.rows_eq
      exact insert_budgeted h hd hi hnone rfl (hb d hd)
  | roundUnavailable _ _ _ hk =>
    rw [hk.mail_eq]
    exact put_budgeted hd (cancel_moved _ _ _ _) rfl rfl hb
  | @round participants rows r m hm _ hp hr _ hdone hi hs =>
    rw [hs]
    by_cases ha : (r.outcome d).1 = .active
    · rw [RoundStep.drafts, if_pos ha] at hi
      have hpart : r.participants = participants := by rw [hr]; rfl
      have hrows := seat_rows h hd hp (fun seat hs => hpart ▸ hs) hi
      have hlen : rows.length = advanceFanOut P c mode d s := by
        rw [hi.rows_eq, draftRows_length, roundDrafts, List.length_map, hpart]
        simp [advanceFanOut, hp, hm, ← hr, hdone, ha]
      exact insert_budgeted h hd hi hrows rfl (hlen ▸ hw)
    · rw [RoundStep.drafts, if_neg ha] at hi
      obtain rfl : rows = [] := hi.rows_eq
      exact insert_budgeted h hd hi hnone rfl (hb d hd)

theorem controls_budgeted {updated : DiscussionRow} {now : Utc} {extra : Nat}
    {action : ControlAction} (h : s.mail.WF P s.rooms)
    (hd : s.mail.discussion? c.self.scope d.discussionId = some d)
    (hk : Controls P c extra d s action m updated)
    (hw : action = .continue → d.currentRound ≤ d.processedRound → ∀ seats,
      discussionParticipants P c.self.scope d.discussionId s = .ok seats →
        withinBudget c.self.scope d.discussionId s.mail
          (continuedDiscussion d extra seats.length seats.length).maxMessages seats.length = true)
    (hb : Budgeted c.self.scope d.discussionId s.mail) :
    Budgeted c.self.scope d.discussionId (m.putDiscussion (sealDiscussion P now updated)) := by
  cases hk with
  | pause _ => exact put_budgeted hd (.refl _) rfl rfl hb
  | resume _ => exact put_budgeted hd (.refl _) rfl rfl hb
  | stop _ => exact put_budgeted hd (cancel_moved _ _ _ _) rfl rfl hb
  | reopen _ _ => exact put_budgeted hd (.refl _) rfl rfl hb
  | @extend seats rows _ _ hx =>
    have hrows := seat_rows h hd hx.participants (fun _ hs => hs) hx.inserted
    have hlen : rows.length = seats.length := by
      rw [hx.inserted.rows_eq, draftRows_length, roundDrafts, List.length_map]
    refine insert_budgeted h hd hx.inserted hrows rfl ?_
    rw [hlen]
    exact hw rfl hx.processed seats hx.participants

theorem advanceFanOut_frame {r : Rooms} (hw : s.mail.WF P r)
    (h : Frame c.self.scope d.discussionId s.mail s'.mail) (hr : s'.rooms = s.rooms)
    (mode : Option RoomMode) :
    advanceFanOut P c mode d s' = advanceFanOut P c mode d s := by
  rw [advanceFanOut, advanceFanOut, discussionParticipants_frame h hr, h.latestTerminal,
    h.freeTrigger]
  simp only [h.freeStep, h.outcome, h.roundStep hw]

end Steps

-- a step that fans out leaves room for every reply that is still owed
def keepsBudget (P : Platform) (scope id : String) (c : Ctx) (s : Store) : Call → Bool
  | .advance a =>
    match selectDiscussions c.self a s with
    | .error _ => true
    | .ok ds => ds.all (fun d => d.key ≠ (scope, id) || withinBudget scope id s.mail d.maxMessages
        (advanceFanOut P c (automationMode s.rooms d) d s))
  | .control a =>
    match s.mail.discussion? scope id, discussionParticipants P scope id s with
    | some d, .ok seats =>
      c.self.scope ≠ scope || strip a.discussionId ≠ id ||
        ControlAction.parse? (lower (strip a.action)) ≠ some .continue ||
        d.processedRound < d.currentRound || withinBudget scope id s.mail
          (continuedDiscussion d a.extraRounds.toNat seats.length seats.length).maxMessages
          seats.length
    | _, _ => true
  | _ => true

def Thrifty (P : Platform) (scope id : String) (w : World) (i : Call × Ctx) : Prop :=
  keepsBudget P scope id i.2 w.store i.1 = true

instance (P : Platform) (scope id : String) (w : World) (i : Call × Ctx) :
    Decidable (Thrifty P scope id w i) := inferInstanceAs (Decidable (_ = true))

section Runs
variable {P : Platform} {c : Ctx} {s s' : Store} {scope id : String}

theorem opened_budgeted {p : Post} {policy : PolicyRow} {rows : List MessageRow}
    (h : Opened P c scope id p policy rows s s') : Budgeted scope id s'.mail := by
  intro d hd
  rw [h.row, Option.some.injEq] at hd
  have howed : owed scope id s'.mail ≤ rows.length := by
    rw [owed, h.prompts]
    exact List.countP_le_length
  have hstored : stored scope id s'.mail = rows.length := by
    rw [stored, h.prompts, h.responses]
    rfl
  refine withinBudget_iff.mpr fun hn => ?_
  have hcap := h.capacity
  rw [← hd] at hn ⊢
  simp only [newDiscussion, sealDiscussion] at hn ⊢
  have hfit : ¬ policy.maxMessages < 2 * rows.length := fun hlt => hcap ⟨hn, hlt⟩
  omega

theorem turn_budgeted {a : AdvanceArgs} {ds : List DiscussionRow} {ts : List MessageRow}
    (h : s.mail.WF P s.rooms) (hsel : selectDiscussions c.self a s = .ok ds)
    (ht : Turn P c scope id ds s s' ts)
    (hg : keepsBudget P scope id c s (.advance a) = true) (hb : Budgeted scope id s.mail) :
    Budgeted scope id s'.mail := by
  cases ht with
  | passed hf => exact hb.moved hf.moved
  | @taken d s₁ s₂ b hc hid hd hmem hf hr hw hs ha =>
    subst hc hid
    have hd₁ : s₁.mail.discussion? c.self.scope d.discussionId = some d := hf.row.trans hd
    have hkey : d.key = (c.self.scope, d.discussionId) := lookup_key hd
    simp only [keepsBudget, hsel, List.all_eq_true, Bool.or_eq_true, decide_eq_true_eq] at hg
    have hfits := (hg d hmem).resolve_left fun hn => hn hkey
    have hsame : withinBudget c.self.scope d.discussionId s₁.mail d.maxMessages
        (advanceFanOut P c (automationMode s.rooms d) d s₁) = true := by
      rw [advanceFanOut_frame h hf hr]
      obtain ⟨hs, ho⟩ := hf.moved.budget
      refine withinBudget_iff.mpr fun hn => ?_
      have hle := withinBudget_iff.mp hfits hn
      omega
    exact (steps_budgeted hw hd₁ hs hsame (hb.moved hf.moved)).moved ha.moved

theorem effect_budgeted {call : Call} {ts : List MessageRow} (h : s.WF P)
    (he : Effect P c scope id s s' call ts) (hg : keepsBudget P scope id c s call = true)
    (hb : Budgeted scope id s.mail) : Budgeted scope id s'.mail := by
  cases he with
  | moved he => exact hb.moved he
  | closed he _ =>
    obtain ⟨d, now, reason, hd, hd'⟩ := he.row
    intro e hde
    rw [hd', Option.some.injEq] at hde
    have hle := withinBudget_iff.mp (hb d hd)
    have hstored : stored scope id s'.mail = stored scope id s.mail := by
      rw [stored, he.rows, he.rows, stored]
    have howed := owed_moves (he.rows _) he.dispatch
    rw [← hde]
    exact withinBudget_iff.mpr fun hn => by
      have := hle hn
      show _ ≤ d.maxMessages
      omega
  | answered he =>
    intro d hd
    rw [he.row] at hd
    have hle := withinBudget_iff.mp (hb d hd)
    have hgrow := he.budget h.mail.toBase
    exact withinBudget_iff.mpr fun hn => by
      have := hle hn
      omega
  | opened he => exact opened_budgeted he
  | @controlled a action d updated m hcall hc hact hid _ hd hk hm =>
    have hkey : d.key = (scope, id) := lookup_key hd
    simp only [DiscussionRow.key, Prod.mk.injEq] at hkey
    obtain ⟨-, rfl⟩ := hkey
    subst hc hcall
    rw [hm]
    refine controls_budgeted h.mail hd hk (fun ha hproc seats hseats => ?_) hb
    subst ha
    simpa [keepsBudget, hd, hseats, hid, hact, not_lt.mpr hproc] using hg
  | advanced hcall _ hsel ht =>
    subst hcall
    exact turn_budgeted h.mail hsel ht hg hb

theorem message_budget {w : World} {d : DiscussionRow}
    (h : ((mailbox P).restrict (Thrifty P scope id)).Reachable w)
    (hd : w.store.mail.discussion? scope id = some d) (hmax : d.maxMessages ≠ 0) :
    stored scope id w.store.mail ≤ d.maxMessages := by
  have hinv : w.store.WF P ∧ Budgeted scope id w.store.mail := by
    refine h.invariant (fun w => w.store.WF P ∧ Budgeted scope id w.store.mail) ?_ ?_
    · rintro w ⟨connections, now, rfl⟩
      exact ⟨initial_wf connections, fun d hd => by cases hd⟩
    · rintro w i ⟨hw, hb⟩ ⟨-, hg⟩
      exact ⟨attempt_wf hw i, attempt_view i hb fun s' r hp =>
        effect_budgeted hw (perform_effect hw hp scope id) hg hb⟩
  have hle := withinBudget_iff.mp (hinv.2 d hd) hmax
  omega

end Runs

def budgetTalk : String := (Uuid.ofNat 1006).text

def budgetedSeat : List (Call × Ctx) :=
  asHuman 1 (sampleSeats ["a"] ++ [.setRoomAutomation
    { roomId := "r", mode := "discussion", maxMessages := 2 }, samplePost])

set_option maxRecDepth 100000 in
theorem message_budget_failed :
    let M := (mailbox samplePlatform).restrict (Thrifty samplePlatform "demo" budgetTalk)
    let w := (M.play sampleWorld (budgetedSeat ++ [sampleClaim (sampleAgent "a") 1 7,
      sampleFailure (sampleAgent "a") 1 7 8, asCoordinator 9 (.advance {})])).1
    ∃ d, w.store.mail.discussion? "demo" budgetTalk = some d ∧ d.maxMessages = 2 ∧
      stored "demo" budgetTalk w.store.mail ≤ d.maxMessages := by
  intro M w
  have hcheck : M.AdmitsAll sampleWorld (budgetedSeat ++ [sampleClaim (sampleAgent "a") 1 7,
        sampleFailure (sampleAgent "a") 1 7 8, asCoordinator 9 (.advance {})]) ∧
      (w.store.mail.discussion? "demo" budgetTalk).any (fun d => d.maxMessages = 2) = true := by
    decide +kernel
  obtain ⟨hopen, hrow⟩ := hcheck
  have hreach : M.Reachable w := ⟨sampleWorld, _, ⟨[], 0, rfl⟩, Machine.run_play _ _ hopen⟩
  rw [Option.any_eq_true] at hrow
  obtain ⟨d, hd, hm⟩ := hrow
  have hmax : d.maxMessages = 2 := by simpa using hm
  exact ⟨d, hd, hmax, message_budget hreach hd (by rw [hmax]; decide)⟩

-- the prompt of the abandoned round is answered after the human continued
def lateReply : List (Call × Ctx) :=
  budgetedSeat ++ asHuman 7 [.leaveRoom { roomId := "r", agentId := some "a" }] ++
  [asCoordinator 8 (.advance {})] ++
  asHuman 9 [.joinRoom { roomId := "r", agentId := some "a", routeProfileId := sampleRoute "a" },
    .control { discussionId := budgetTalk, action := "continue", extraRounds := 1 }] ++
  [sampleClaim (sampleAgent "a") 1 11] ++ sampleReply (sampleAgent "a") 1 11 "x" ++
  [sampleClaim (sampleAgent "a") 2 14] ++ sampleReply (sampleAgent "a") 2 14 "x"

set_option maxRecDepth 100000 in
theorem late_reply_over_budget :
    ¬ ∀ (w : World) (d : DiscussionRow), (mailbox samplePlatform).Reachable w →
      w.store.mail.discussion? "demo" budgetTalk = some d → d.maxMessages ≠ 0 →
      stored "demo" budgetTalk w.store.mail ≤ d.maxMessages := by
  intro h
  have hcheck : (mailbox samplePlatform).AdmitsAll sampleWorld lateReply ∧
      stored "demo" budgetTalk ((mailbox samplePlatform).play sampleWorld lateReply).1.store.mail =
        4 ∧
      (((mailbox samplePlatform).play sampleWorld lateReply).1.store.mail.discussion? "demo"
        budgetTalk).any (fun d => d.maxMessages = 3) = true := by decide +kernel
  obtain ⟨hopen, hstored, hrow⟩ := hcheck
  have hreach : (mailbox samplePlatform).Reachable
      ((mailbox samplePlatform).play sampleWorld lateReply).1 :=
    ⟨sampleWorld, _, ⟨[], 0, rfl⟩, Machine.run_play _ _ hopen⟩
  generalize ((mailbox samplePlatform).play sampleWorld lateReply).1 = w at hreach hstored hrow
  rw [Option.any_eq_true] at hrow
  obtain ⟨d, hd, hm⟩ := hrow
  have hmax : d.maxMessages = 3 := by simpa using hm
  have hle := h w d hreach hd (by rw [hmax]; decide)
  omega

end PeerBridge
