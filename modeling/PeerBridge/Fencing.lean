import PeerBridge.Progress
import PeerBridge.Scenario

namespace PeerBridge
open Checked Rows

def Fenced (scope id : String) (m : Mail) : Prop :=
  ∀ d, m.discussion? scope id = some d → ∀ x ∈ m.ofDiscussion scope id .prompt, ∀ n,
    x.discussionRound = some n → n ≤ d.processedRound → m.closed x = true

section Rounds
variable {P : Platform} {c : Ctx} {s s' : Store} {scope id : String} {m m' : Mail}
  {d : DiscussionRow} {x : MessageRow}

theorem Written.fenced {d' : DiscussionRow} {rows : List MessageRow}
    (h : Written scope id d' rows m m') (hd : m.discussion? scope id = some d)
    (hf : Fenced scope id m)
    (hold : ∀ x ∈ m.ofDiscussion scope id .prompt, ∀ n, x.discussionRound = some n →
      d.processedRound < n → n ≤ d'.processedRound → m'.closed x = true)
    (hrows : ∀ x ∈ rows, ∀ n, x.discussionRound = some n → d'.processedRound < n) :
    Fenced scope id m' := by
  intro e he x hx n hn hle
  obtain rfl : d' = e := Option.some.inj (h.row.symm.trans he)
  rw [h.prompts] at hx
  rcases List.mem_append.mp hx with hx | hx
  · by_cases hlt : d.processedRound < n
    · exact hold x hx n hn hlt hle
    · exact (h.dispatch x hx).keeps_closed (hf d hd x hx n hn (not_lt.mp hlt))
  · exact absurd (hrows x hx n hn) (not_lt.mpr hle)

theorem put_fenced {d' : DiscussionRow} (hd : m.discussion? scope id = some d)
    (h : Moved scope id m m') (hf : Fenced scope id m) (hk : d'.key = d.key)
    (hp : d'.processedRound = d.processedRound) : Fenced scope id (m'.putDiscussion d') :=
  (written_put hd hk h).fenced hd hf (fun x _ n _ h1 h2 => by omega) (by simp)

theorem Frame.fenced (h : Frame scope id m m') (hf : Fenced scope id m) : Fenced scope id m' := by
  intro d hd x hx n hn hle
  rw [h.row] at hd
  rw [h.rows] at hx
  exact (h.moved.dispatch x hx).keeps_closed (hf d hd x hx n hn hle)

theorem steps_fenced {mode : Option RoomMode} {a : Option Advance} (h : s.mail.WF P s.rooms)
    (hd : s.mail.discussion? c.self.scope d.discussionId = some d)
    (hmode : mode.any RoomMode.isFree = false) (hs : Steps P c mode d s s' a)
    (hguard : ∀ e, discussionParticipants P c.self.scope d.discussionId s = .error e →
      ∀ x ∈ s.mail.prompts c.self.scope d.discussionId d.currentRound,
        (s.mail.dispatchOf x).isSome = true)
    (hf : Fenced c.self.scope d.discussionId s.mail) :
    Fenced c.self.scope d.discussionId s'.mail := by
  have hok := h.discussed_at hd
  have hround : ∀ n, d.processedRound < n → n ≤ d.currentRound → n = d.currentRound := by
    have hcur := hok.current
    omega
  have hnone : ∀ x ∈ ([] : List MessageRow), SeatRow c d 0 none s.mail x := by simp
  cases hs with
  | idle hs => rwa [hs]
  | freeUnavailable hm => simp [hmode] at hm
  | freeFailed hm => simp [hmode] at hm
  | free f m hm => simp [hmode] at hm
  | @roundUnavailable e _ _ hp hb =>
    rw [hb.mail_eq]
    refine (written_put hd ?_ (cancel_moved _ _ _ _)).fenced hd hf (fun x hx n hn h1 h2 => ?_)
      (by simp)
    · exact rfl
    · have hcurrent := hround n h1 h2
      rw [hcurrent] at hn
      exact cancel_closed h _ _ hx (hguard e hp x (mem_prompts.mpr ⟨hx, hn⟩))
  | @round participants rows r m _ _ hp hr _ hdone hi hs =>
    rw [hs]
    have hpart : r.participants = participants := by rw [hr]; rfl
    have hclosed : ∀ x ∈ s.mail.prompts c.self.scope d.discussionId d.currentRound,
        s.mail.closed x = true := by
      rw [hr] at hdone
      exact round_closed h hdone
    have settled {rows : List MessageRow} {m' : Mail} (hw : Written c.self.scope d.discussionId
        (sealDiscussion P (utcNow c.clock.locked) (r.after rows.length d)) rows s.mail m')
        (hrows : ∀ x ∈ rows, x.discussionRound = some (d.currentRound + 1)) :
        Fenced c.self.scope d.discussionId m' := by
      refine hw.fenced hd hf (fun x hx n hn h1 h2 => ?_) fun x hx n hn => ?_
      · rw [hround n h1 h2] at hn
        exact (hw.dispatch x hx).keeps_closed (hclosed x (mem_prompts.mpr ⟨hx, hn⟩))
      · have heq : d.currentRound + 1 = n := Option.some.inj ((hrows x hx).symm.trans hn)
        show d.currentRound < n
        omega
    by_cases ha : (r.outcome d).1 = .active
    · rw [RoundStep.drafts, if_pos ha] at hi
      have hrows := seat_rows h hd hp (fun seat hs => hpart ▸ hs) hi
      exact settled (written_insert h hd (by exact rfl) hi hrows) fun x hx => (hrows x hx).round_eq
    · rw [RoundStep.drafts, if_neg ha] at hi
      obtain rfl : rows = [] := hi.rows_eq
      exact settled (written_insert h hd (by exact rfl) hi hnone) (by simp)

theorem controls_fenced {updated : DiscussionRow} {now : Utc} {extra : Nat}
    {action : ControlAction} (h : s.mail.WF P s.rooms)
    (hd : s.mail.discussion? c.self.scope d.discussionId = some d)
    (hc : Controls P c extra d s action m updated)
    (hf : Fenced c.self.scope d.discussionId s.mail) :
    Fenced c.self.scope d.discussionId (m.putDiscussion (sealDiscussion P now updated)) := by
  have hok := (h.discussed_at hd).processed
  cases hc with
  | pause _ => exact put_fenced hd (.refl _) hf rfl rfl
  | resume _ => exact put_fenced hd (.refl _) hf rfl rfl
  | stop _ => exact put_fenced hd (cancel_moved _ _ _ _) hf rfl rfl
  | reopen _ _ => exact put_fenced hd (.refl _) hf rfl rfl
  | @extend seats rows _ _ hx =>
    have hrows := seat_rows h hd hx.participants (fun _ hs => hs) hx.inserted
    have hw : Written c.self.scope d.discussionId
        (sealDiscussion P now (continuedDiscussion d extra seats.length rows.length)) rows s.mail
        (m.putDiscussion _) := written_insert h hd rfl hx.inserted hrows
    refine hw.fenced hd hf (fun x _ n _ h1 h2 => absurd h1 (not_lt.mpr h2)) fun x hx n hn => ?_
    have heq : d.currentRound + 1 = n := Option.some.inj ((hrows x hx).round_eq.symm.trans hn)
    show d.processedRound < n
    omega

-- the room asks for rounds, and a round that is given up leaves no prompt without a dispatch row
def moderated (scope id : String) (s : Store) : Bool :=
  (s.mail.discussion? scope id).all (fun d => automationMode s.rooms d = some .discussion)

def roundDispatched (scope id : String) (m : Mail) (d : DiscussionRow) : Bool :=
  (m.prompts scope id d.currentRound).all (fun x => (m.dispatchOf x).isSome)

def fencesRound (P : Platform) (scope id : String) (c : Ctx) (s : Store) : Call → Bool
  | .advance a =>
    match selectDiscussions c.self a s with
    | .error _ => true
    | .ok ds => ds.all (fun d => d.key ≠ (scope, id) ||
        isOk (discussionParticipants P scope id s) || roundDispatched scope id s.mail d)
  | _ => true

theorem turn_fenced {a : AdvanceArgs} {ds : List DiscussionRow} {ts : List MessageRow}
    (hsel : selectDiscussions c.self a s = .ok ds) (ht : Turn P c scope id ds s s' ts)
    (hm : moderated scope id s = true) (hg : fencesRound P scope id c s (.advance a) = true)
    (hf : Fenced scope id s.mail) : Fenced scope id s'.mail := by
  cases ht with
  | passed h => exact h.fenced hf
  | @taken d s₁ s₂ b hc hid hd hmem hb hr hw hs ha =>
    subst hc hid
    have hd₁ : s₁.mail.discussion? c.self.scope d.discussionId = some d := hb.row.trans hd
    have hkey : d.key = (c.self.scope, d.discussionId) := lookup_key hd
    rw [moderated, hd, Option.all_some, decide_eq_true_eq] at hm
    simp only [fencesRound, hsel, List.all_eq_true, Bool.or_eq_true, decide_eq_true_eq] at hg
    refine ha.fenced (steps_fenced hw hd₁ (by rw [hm]; rfl) hs (fun e he x hx => ?_)
      (hb.fenced hf))
    rw [discussionParticipants_frame hb hr] at he
    rw [hb.prompts] at hx
    rw [hb.dispatchOf (mem_prompts.mp hx).1]
    rcases hg d hmem with (hg | hg) | hg
    · exact absurd hkey hg
    · simp [he, isOk] at hg
    · exact List.all_eq_true.mp hg x hx

theorem effect_fenced {call : Call} {ts : List MessageRow} (h : s.WF P)
    (he : Effect P c scope id s s' call ts) (hm : moderated scope id s = true)
    (hg : fencesRound P scope id c s call = true) (hf : Fenced scope id s.mail) :
    Fenced scope id s'.mail := by
  cases he with
  | moved he =>
    intro d hd x hx n hn hle
    rw [he.row] at hd
    rw [he.rows] at hx
    exact (he.dispatch x hx).keeps_closed (hf d hd x hx n hn hle)
  | closed he _ =>
    obtain ⟨d, now, reason, hd, hd'⟩ := he.row
    intro e hde x hx n hn hle
    rw [hd', Option.some.injEq] at hde
    rw [he.rows] at hx
    rw [← hde] at hle
    exact (he.dispatch x hx).keeps_closed (hf d hd x hx n hn hle)
  | @answered x reply he =>
    intro d hd y hy n hn hle
    have hon := he.onward h.mail.toBase
    rw [he.row] at hd
    rw [he.prompts] at hy
    have hclosed := hf d hd y hy n hn hle
    obtain ⟨e, hde, ht⟩ := closed_dispatch.mp hclosed
    exact closed_dispatch.mpr ⟨e, (hon.closed y hy hclosed).trans hde, ht⟩
  | @opened p policy rows he =>
    intro d hd x hx n hn hle
    rw [he.row, Option.some.injEq] at hd
    rw [he.prompts] at hx
    have hone := (he.opening x hx).round_eq.symm.trans hn
    rw [← hd, ← Option.some.inj hone] at hle
    exact absurd hle (by decide : ¬ (1 : Nat) ≤ 0)
  | @controlled a action d updated m _ hc _ hid _ hd hk hmail =>
    have hkey : d.key = (scope, id) := lookup_key hd
    simp only [DiscussionRow.key, Prod.mk.injEq] at hkey
    obtain ⟨-, rfl⟩ := hkey
    subst hc
    rw [hmail]
    exact controls_fenced h.mail hd hk hf
  | advanced hcall _ hsel ht =>
    subst hcall
    exact turn_fenced hsel ht hm hg hf

-- a call by which an agent takes a prompt up or delivers its reply; a replay does neither
def takesUp (x : MessageRow) : (Call × Ctx) × Except BridgeError Reply → Bool
  | ((.claim _, _), .ok (.claimed (some g))) => g.message.key = x.key
  | ((.complete a, c), .ok (.completed y)) =>
    (c.self.scope, strip a.messageId) = x.key && !y.replay
  | _ => false

theorem claim_closed {q : ClaimRequest} {row : MessageRow} (h : s.WF P)
    (hx : x ∈ s.mail.ofDiscussion scope id .prompt) (hc : s.mail.closed x = true)
    (hq : Claimable P c q s row) : row.key ≠ x.key := by
  intro hkey
  obtain ⟨hmem, -⟩ := mem_ofDiscussion.mp hx
  obtain rfl : row = x := eq_of_key_eq h.mail.ids hq.mem hmem (Prod.mk.inj hkey).2
  have hto : addressedTo row c.self.agentId = true := by
    have hw := hq.eligible
    simp only [claimWhere, Bool.and_eq_true] at hw
    exact hw.1.1.1.1.1.1.1.1.2
  obtain ⟨e, he, ht⟩ := closed_dispatch.mp hc
  have hopen := (dispatchReady_true hq.ready).1 e
  rw [prompt_agent h.mail hx hto] at hopen
  rw [hopen he] at ht
  cases ht

theorem complete_closed {token subject body : String} {row : DispatchRow}
    {source reply : MessageRow} (h : s.WF P)
    (hx : x ∈ s.mail.ofDiscussion scope id .prompt) (hc : s.mail.closed x = true)
    (hq : Completes P c token s.mail row source reply subject body) :
    (c.self.scope, source.messageId) ≠ x.key := by
  intro hkey
  obtain ⟨hmem, -⟩ := mem_ofDiscussion.mp hx
  obtain ⟨hscope, hid⟩ := Prod.mk.inj hkey
  have hsource := hq.source_eq
  rw [hid, hscope, h.mail.lookup hmem, Option.some.injEq] at hsource
  subst hsource
  have hrow := hq.holder.lookup_eq
  rw [hscope, prompt_agent h.mail hx hq.addressed] at hrow
  obtain ⟨e, he, ht⟩ := closed_dispatch.mp hc
  have hsame : e = row := Option.some.inj (he.symm.trans hrow)
  rw [hsame, hq.claimed] at ht
  cases ht

theorem attempt_closed {w : World} {i : Call × Ctx} (h : w.store.WF P)
    (hx : x ∈ w.store.mail.ofDiscussion scope id .prompt) (hc : w.store.mail.closed x = true) :
    takesUp x (i, (attempt P w i).2) = false := by
  obtain ⟨call, c⟩ := i
  cases hp : perform P c w.store call with
  | error err =>
    rw [attempt, hp]
    cases call <;> rfl
  | ok y =>
    obtain ⟨s', r⟩ := y
    rw [attempt, hp]
    cases call <;> try rfl
    case claim a =>
      obtain ⟨o, ho, rfl⟩ := replyWith_ok hp
      rcases claimMessageDispatch_ok ho with ⟨rfl, -⟩ | ⟨q, row, -, hq, -, -, rfl⟩
      · rfl
      · exact decide_eq_false (claim_closed h hx hc hq)
    case complete a =>
      obtain ⟨y, hy, rfl⟩ := replyWith_ok hp
      rcases completeMessageDispatch_ok hy with
        ⟨hreplay, -⟩ | ⟨row, source, reply, subject, body, sha, hid, hq, -⟩
      · simp [takesUp, hreplay]
      · have hne := complete_closed h hx hc hq
        rw [hid] at hne
        simp [takesUp, hne]

end Rounds

def Moderated (P : Platform) (scope id : String) (w : World) (i : Call × Ctx) : Prop :=
  moderated scope id w.store = true ∧ fencesRound P scope id i.2 w.store i.1 = true

instance (P : Platform) (scope id : String) (w : World) (i : Call × Ctx) :
    Decidable (Moderated P scope id w i) := inferInstanceAs (Decidable (_ ∧ _))

section Runs
variable {P : Platform} {scope id : String} {w w' : World}

theorem moderated_fenced
    (h : ((mailbox P).restrict (Moderated P scope id)).Reachable w) :
    w.store.WF P ∧ Fenced scope id w.store.mail := by
  refine h.invariant (fun w => w.store.WF P ∧ Fenced scope id w.store.mail) ?_ ?_
  · rintro w ⟨connections, now, rfl⟩
    exact ⟨initial_wf connections, fun d hd => by cases hd⟩
  · rintro w i ⟨hw, hf⟩ ⟨-, hm, hg⟩
    exact ⟨attempt_wf hw i, attempt_view i hf fun s' r hp =>
      effect_fenced hw (perform_effect hw hp scope id) hm hg hf⟩

theorem rounds_fenced {d : DiscussionRow} {tr : Trace}
    (h : ((mailbox P).restrict (Moderated P scope id)).Reachable w)
    (hd : w.store.mail.discussion? scope id = some d)
    (hrun : ((mailbox P).restrict (Moderated P scope id)).Run w tr w') :
    ∀ x ∈ w'.store.mail.ofDiscussion scope id .prompt, ∀ n, x.discussionRound = some n →
      n ≤ d.processedRound → ∀ e ∈ tr, takesUp x e = false := by
  -- along the run the round stays processed, so its prompts stay closed
  let inv (tr : Trace) (v : World) : Prop :=
    (v.store.WF P ∧ Fenced scope id v.store.mail) ∧
    (∃ e, v.store.mail.discussion? scope id = some e ∧ d.processedRound ≤ e.processedRound) ∧
    ∀ x ∈ v.store.mail.ofDiscussion scope id .prompt, ∀ n, x.discussionRound = some n →
      n ≤ d.processedRound → ∀ e ∈ tr, takesUp x e = false
  have hinv : inv tr w' := by
    refine hrun.preserves_trace inv ?_ ⟨moderated_fenced h, ⟨d, hd, le_refl _⟩, by simp⟩
    rintro tr v i ⟨⟨hw, hf⟩, ⟨e, he, hle⟩, htr⟩ ⟨-, hm, hg⟩
    have hon : Onward scope id v.store.mail (attempt P v i).1.store.mail := attempt_onward hw i
    obtain ⟨e', he', -, hmono⟩ := hon.row e he
    obtain ⟨rows, hrows, hnew⟩ := hon.prompts
    refine ⟨⟨attempt_wf hw i, attempt_view i hf fun s' r hp =>
      effect_fenced hw (perform_effect hw hp scope id) hm hg hf⟩, ⟨e', he', hle.trans hmono⟩, ?_⟩
    intro x hx n hn hnd y hy
    have hx' : x ∈ v.store.mail.ofDiscussion scope id .prompt ++ rows := hrows ▸ hx
    rcases List.mem_append.mp hx' with hx | hx
    · rcases List.mem_append.mp hy with hy | hy
      · exact htr x hx n hn hnd y hy
      · rw [List.mem_singleton.mp hy]
        exact attempt_closed hw hx (hf e he x hx n hn (hnd.trans hle))
    · exact absurd (hnew e he x hx n hn) (not_lt.mpr (hnd.trans hle))
  exact hinv.2.2

end Runs

def moderatedDiscussion : String := (Uuid.ofNat 1006).text

def moderatedSeat : List (Call × Ctx) :=
  asHuman 1 (sampleSeats ["a"] ++ [sampleAutomation "discussion", samplePost])

-- the seat takes its prompt up and gives it up for good
def failedRound : List (Call × Ctx) :=
  moderatedSeat ++ [sampleClaim (sampleAgent "a") 1 7, sampleFailure (sampleAgent "a") 1 7 8,
    asCoordinator 9 (.advance {})]

set_option maxRecDepth 100000 in
theorem rounds_fenced_failed :
    let M := (mailbox samplePlatform).restrict
      (Moderated samplePlatform "demo" moderatedDiscussion)
    let w := (M.play sampleWorld failedRound).1
    let late := M.play w [sampleClaim (sampleAgent "a") 1 10]
    ∃ d, w.store.mail.discussion? "demo" moderatedDiscussion = some d ∧ d.processedRound = 1 ∧
      ∀ x ∈ late.1.store.mail.ofDiscussion "demo" moderatedDiscussion .prompt, ∀ n,
        x.discussionRound = some n → n ≤ d.processedRound →
          ∀ e ∈ late.2, takesUp x e = false := by
  intro M w late
  have hcheck : M.AdmitsAll sampleWorld failedRound ∧
      M.AdmitsAll w [sampleClaim (sampleAgent "a") 1 10] ∧
      (w.store.mail.discussion? "demo" moderatedDiscussion).any
        (fun d => d.processedRound = 1) = true := by decide +kernel
  obtain ⟨hopen, hlate, hrow⟩ := hcheck
  have hreach : M.Reachable w := ⟨sampleWorld, _, ⟨[], 0, rfl⟩, Machine.run_play _ _ hopen⟩
  rw [Option.any_eq_true] at hrow
  obtain ⟨d, hd, hr⟩ := hrow
  exact ⟨d, hd, by simpa using hr, rounds_fenced hreach hd (Machine.run_play _ _ hlate)⟩

-- the seat leaves before it takes its prompt up, and is back for the next round
def abandonedRound : List (Call × Ctx) :=
  moderatedSeat ++ asHuman 7 [.leaveRoom { roomId := "r", agentId := some "a" }] ++
  [asCoordinator 8 (.advance {})] ++
  asHuman 9 [.joinRoom { roomId := "r", agentId := some "a", routeProfileId := sampleRoute "a" },
    .control { discussionId := moderatedDiscussion, action := "continue" }]

def lateClaim : List (Call × Ctx) := [sampleClaim (sampleAgent "a") 1 11]

set_option maxRecDepth 100000 in
theorem abandoned_round_claimed :
    let M := (mailbox samplePlatform).restrict
      (fun w _ => moderated "demo" moderatedDiscussion w.store = true)
    ¬ ∀ (w w' : World) (d : DiscussionRow) (tr : Trace), M.Reachable w →
      w.store.mail.discussion? "demo" moderatedDiscussion = some d → M.Run w tr w' →
      ∀ x ∈ w'.store.mail.ofDiscussion "demo" moderatedDiscussion .prompt, ∀ n,
        x.discussionRound = some n → n ≤ d.processedRound → ∀ e ∈ tr, takesUp x e = false := by
  intro M h
  have hcheck : M.AdmitsAll sampleWorld abandonedRound ∧
      M.AdmitsAll (M.play sampleWorld abandonedRound).1 lateClaim ∧
      ((M.play sampleWorld abandonedRound).1.store.mail.discussion? "demo"
        moderatedDiscussion).any (fun d => d.processedRound = 1) = true ∧
      ((M.play (M.play sampleWorld abandonedRound).1 lateClaim).1.store.mail.ofDiscussion "demo"
        moderatedDiscussion .prompt).any (fun x => x.discussionRound = some 1 &&
          (M.play (M.play sampleWorld abandonedRound).1 lateClaim).2.any (takesUp x)) = true := by
    decide +kernel
  obtain ⟨hopen, hlate, hrow, htaken⟩ := hcheck
  have hreach : M.Reachable (M.play sampleWorld abandonedRound).1 :=
    ⟨sampleWorld, _, ⟨[], 0, rfl⟩, Machine.run_play _ _ hopen⟩
  have hrun := Machine.run_play _ _ hlate
  generalize (M.play sampleWorld abandonedRound).1 = w at hreach hrun hrow htaken
  generalize M.play w lateClaim = late at hrun htaken
  rw [Option.any_eq_true] at hrow
  obtain ⟨d, hd, hr⟩ := hrow
  obtain ⟨x, hx, ht⟩ := List.any_eq_true.mp htaken
  simp only [Bool.and_eq_true, decide_eq_true_eq, List.any_eq_true] at ht hr
  obtain ⟨hn, e, he, ht⟩ := ht
  have hfalse := h w _ d _ hreach hd hrun x hx 1 hn (le_of_eq hr.symm) e he
  exact Bool.false_ne_true (hfalse.symm.trans ht)

end PeerBridge
