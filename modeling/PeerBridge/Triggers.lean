import PeerBridge.Progress
import PeerBridge.Scenario

namespace PeerBridge
open Checked Rows

-- the reasons for which a free event stops on a response that gets no follow-up
def StopReason.spends : StopReason → Bool
  | .malformedSignal | .allAgentsBlocked | .eventLimit | .messageLimit | .stagnation
  | .contextLimit | .rootContextMissing => true
  | _ => false

def DiscussionRow.spent (d : DiscussionRow) : Bool :=
  !d.status.isOpen || (d.status = .waitingHuman && d.stopReason.any StopReason.spends)

def Consumed (ts responses : List MessageRow) (answered : MessageRow → Bool) : Prop :=
  ∀ t ∈ ts, ∀ r ∈ responses, r.sequence ≤ t.sequence → answered r = true

structure Triggered (scope id : String) (m : Mail) (ts : List MessageRow) : Prop where
  sorted : ts.Pairwise (fun t u => t.sequence < u.sequence)
  responses : ∀ t ∈ ts, t ∈ m.ofDiscussion scope id .response
  consumed : (m.discussion? scope id).any DiscussionRow.spent = true ∨
    Consumed ts (m.ofDiscussion scope id .response) (m.hasFollowup scope id)

section Steps
variable {P : Platform} {c : Ctx} {s s' : Store} {scope id : String} {m m' : Mail}
  {d d' : DiscussionRow} {x : MessageRow} {ts rows : List MessageRow}

theorem hasFollowup_grow (h : m'.ofDiscussion scope id .prompt =
    m.ofDiscussion scope id .prompt ++ rows) (hx : m.hasFollowup scope id x = true) :
    m'.hasFollowup scope id x = true := by
  rw [Mail.hasFollowup] at hx
  rw [Mail.hasFollowup, h, List.any_append, hx, Bool.true_or]

theorem Triggered.same (h : Triggered scope id m ts)
    (hrow : m'.discussion? scope id = m.discussion? scope id)
    (hrows : ∀ role, m'.ofDiscussion scope id role = m.ofDiscussion scope id role) :
    Triggered scope id m' ts := by
  refine ⟨h.sorted, fun t ht => ?_, h.consumed.imp (fun hs => ?_) fun hc => ?_⟩
  · rw [hrows]
    exact h.responses t ht
  · rw [hrow]
    exact hs
  · intro t ht r hr hle
    rw [hrows] at hr
    rw [Mail.hasFollowup, hrows]
    exact hc t ht r hr hle

theorem Triggered.shut (h : Triggered scope id m ts) (hd : m'.discussion? scope id = some d')
    (hs : d'.spent = true)
    (hrows : m'.ofDiscussion scope id .response = m.ofDiscussion scope id .response) :
    Triggered scope id m' ts := by
  refine ⟨h.sorted, fun t ht => ?_, .inl ?_⟩
  · rw [hrows]
    exact h.responses t ht
  · rw [hd, Option.any_some, hs]

theorem Triggered.live (h : Triggered scope id m ts) (hd : m.discussion? scope id = some d)
    (hs : d.spent = false) :
    Consumed ts (m.ofDiscussion scope id .response) (m.hasFollowup scope id) := by
  rcases h.consumed with hc | hc
  · rw [hd, Option.any_some, hs] at hc
    cases hc
  · exact hc

theorem Written.triggered (h : Written scope id d' rows m m') (ht : Triggered scope id m ts)
    (hc : Consumed ts (m.ofDiscussion scope id .response) (m.hasFollowup scope id)) :
    Triggered scope id m' ts := by
  refine ⟨ht.sorted, fun t hts => ?_, .inr fun t hts r hr hle => ?_⟩
  · rw [h.responses]
    exact ht.responses t hts
  · rw [h.responses] at hr
    exact hasFollowup_grow h.prompts (hc t hts r hr hle)

theorem freeTrigger_first {r : Rooms} (h : m.WF P r) (hx : m.freeTrigger scope id = some x) :
    ∀ y ∈ m.ofDiscussion scope id .response, y.sequence < x.sequence →
      m.hasFollowup scope id y = true := by
  intro y hy hlt
  obtain ⟨-, as, bs, hsplit, has⟩ := List.find?_eq_some_iff_append.mp hx
  have hsorted : (m.ofDiscussion scope id .response).Pairwise
      (fun a b => a.sequence < b.sequence) := h.sorted.sublist List.filter_sublist
  rw [hsplit] at hy hsorted
  rcases List.mem_append.mp hy with hy | hy
  · simpa using has y hy
  · rcases List.mem_cons.mp hy with rfl | hy
    · exact absurd hlt (lt_irrefl _)
    · have hlater := (List.pairwise_cons.mp (List.pairwise_append.mp hsorted).2.1).1 y hy
      exact absurd hlt (not_lt.mpr hlater.le)

theorem FreeStep.outcome_spent {f : FreeStep} (h : (f.outcome scope d m).1 ≠ .active) (n : Nat) :
    (f.after (f.outcome scope d m) n d).spent = true := by
  have hverdict : (f.verdict d).1 ≠ .active → (!(f.verdict d).1.isOpen ||
      ((f.verdict d).1 = .waitingHuman && (f.verdict d).2.any StopReason.spends)) = true := by
    intro hv
    simp only [FreeStep.verdict] at hv ⊢
    split_ifs at hv ⊢ <;> first | rfl | exact absurd rfl hv
  simp only [FreeStep.outcome] at h
  show (!(f.outcome scope d m).1.isOpen || ((f.outcome scope d m).1 = .waitingHuman &&
    (f.outcome scope d m).2.any StopReason.spends)) = true
  simp only [FreeStep.outcome]
  split_ifs at h ⊢
  · rfl
  · rfl
  · exact absurd ‹_› h
  · exact hverdict ‹_›

theorem put_triggered (hd : m.discussion? scope id = some d) (h : Moved scope id m m')
    (ht : Triggered scope id m ts) (hs : d.spent = false) (hk : d'.key = d.key) :
    Triggered scope id (m'.putDiscussion d') ts :=
  (written_put hd hk h).triggered ht (ht.live hd hs)

theorem take_triggered {r : Rooms} (h : m.WF P r)
    (hw : Written scope id d' rows m m') (ht : Triggered scope id m ts)
    (hc : Consumed ts (m.ofDiscussion scope id .response) (m.hasFollowup scope id))
    (hx : m.freeTrigger scope id = some x)
    (hnext : d'.spent = true ∨ ∃ y ∈ rows, y.replyTo = some x.messageId) :
    Triggered scope id m' (ts ++ [x]) := by
  obtain ⟨hmem, hfree⟩ := freeTrigger_some hx
  have hafter : ∀ t ∈ ts, t.sequence < x.sequence := by
    intro t hts
    by_contra hle
    have htaken := hc t hts x hmem (not_lt.mp hle)
    rw [hfree] at htaken
    cases htaken
  refine ⟨?_, fun t hts => ?_, ?_⟩
  · refine List.pairwise_append.mpr ⟨ht.sorted, List.pairwise_singleton _ _, fun t hts y hy => ?_⟩
    rw [List.mem_singleton.mp hy]
    exact hafter t hts
  · rw [hw.responses]
    rcases List.mem_append.mp hts with hts | hts
    · exact ht.responses t hts
    · rw [List.mem_singleton.mp hts]
      exact hmem
  · rcases hnext with hs | ⟨y, hy, hreply⟩
    · rw [hw.row, Option.any_some, hs]
      exact .inl rfl
    · refine .inr fun t hts r hr hle => ?_
      rw [hw.responses] at hr
      rcases List.mem_append.mp hts with hts | hts
      · exact hasFollowup_grow hw.prompts (hc t hts r hr hle)
      · rw [List.mem_singleton.mp hts] at hle
        rcases hle.lt_or_eq with hlt | heq
        · exact hasFollowup_grow hw.prompts (freeTrigger_first h hx r hr hlt)
        · have hsame : r = x :=
            h.toBase.sequence_inj (mem_ofDiscussion.mp hr).1 (mem_ofDiscussion.mp hmem).1 heq
          rw [hsame, Mail.hasFollowup, hw.prompts, List.any_eq_true]
          exact ⟨y, List.mem_append_right _ hy, by simpa using hreply⟩

theorem steps_triggered {mode : Option RoomMode} {a : Option Advance}
    (h : s.mail.WF P s.rooms) (hd : s.mail.discussion? c.self.scope d.discussionId = some d)
    (hmode : mode.any RoomMode.isFree = true) (hs : Steps P c mode d s s' a)
    (hspent : d.spent = false) (ht : Triggered c.self.scope d.discussionId s.mail ts) :
    Triggered c.self.scope d.discussionId s'.mail (ts ++ triggersOf d.discussionId a.toList) := by
  have hc := ht.live hd hspent
  have quiet {b : Advance} (hb : b.trigger = none) : triggersOf d.discussionId [b] = [] := by
    simp only [triggersOf, List.filter_cons, List.filter_nil]
    split <;> simp [hb]
  cases hs with
  | idle hs =>
    rw [hs]
    simpa [triggersOf] using ht
  | freeUnavailable _ _ hb ha =>
    rw [hb.mail_eq, Option.toList_some, quiet ha, List.append_nil]
    exact put_triggered hd (cancel_moved _ _ _ _) ht hspent rfl
  | freeFailed _ _ _ hs _ ha =>
    rw [hs, Option.toList_some, quiet ha, List.append_nil]
    exact put_triggered hd (.refl _) ht hspent rfl
  | @free participants response rows f m _ hp _ hx hf hi hs _ b ha hb =>
    have hresp : f.response = response := by rw [hf]; rfl
    have htake : triggersOf d.discussionId (some b).toList = [response] := by
      simp [triggersOf, hb, ha]
    rw [hs, htake]
    by_cases hactive : (f.outcome c.self.scope d s.mail).1 = .active
    · rw [FreeStep.drafts, if_pos hactive] at hi
      have hsub : ∀ seat ∈ f.targets, seat ∈ participants := hf ▸ freeStep_targets
      have hrows := seat_rows h hd hp hsub hi
      have hsome : rows ≠ [] := by
        have hne := FreeStep.outcome_targets hactive
        rw [hi.rows_eq]
        intro hn
        have hlen := congrArg List.length hn
        rw [draftRows_length, List.length_map] at hlen
        exact hne (List.length_eq_zero_iff.mp hlen)
      obtain ⟨y, hy⟩ := List.exists_mem_of_ne_nil rows hsome
      refine take_triggered h (written_insert h hd (by exact rfl) hi hrows) ht hc hx
        (.inr ⟨y, hy, ?_⟩)
      rw [(hrows y hy).reply_eq, hresp]
    · rw [FreeStep.drafts, if_neg hactive] at hi
      obtain rfl : rows = [] := hi.rows_eq
      have hnone : ∀ x ∈ ([] : List MessageRow), SeatRow c d 0 none s.mail x := by simp
      exact take_triggered h (written_insert h hd (by exact rfl) hi hnone) ht hc hx
        (.inl (FreeStep.outcome_spent hactive ([] : List MessageRow).length))
  | roundUnavailable hm => simp [hmode] at hm
  | round r m hm => simp [hmode] at hm

theorem controls_triggered {updated : DiscussionRow} {now : Utc} {extra : Nat}
    {action : ControlAction} (h : s.mail.WF P s.rooms)
    (hd : s.mail.discussion? c.self.scope d.discussionId = some d)
    (hk : Controls P c extra d s action m updated)
    (hreason : action = .continue → d.stopReason.any StopReason.spends = false)
    (ht : Triggered c.self.scope d.discussionId s.mail ts) :
    Triggered c.self.scope d.discussionId
      (m.putDiscussion (sealDiscussion P now updated)) ts := by
  cases hk with
  | pause hs => exact put_triggered hd (.refl _) ht (by simp [DiscussionRow.spent, hs]; rfl) rfl
  | resume hs => exact put_triggered hd (.refl _) ht (by simp [DiscussionRow.spent, hs]; rfl) rfl
  | stop _ =>
    exact ht.shut (written_put hd (by exact rfl) (cancel_moved _ _ _ _)).row (by exact rfl) rfl
  | reopen hs _ =>
    refine put_triggered hd (.refl _) ht ?_ rfl
    rcases hs with hs | hs <;> simp [DiscussionRow.spent, hs, hreason rfl] <;> rfl
  | extend hs hx =>
    have hrows := seat_rows h hd hx.participants (fun _ hs => hs) hx.inserted
    refine (written_insert h hd (by exact rfl) hx.inserted hrows).triggered ht (ht.live hd ?_)
    rcases hs with hs | hs <;> simp [DiscussionRow.spent, hs, hreason rfl] <;> rfl

end Steps

def freeRoom (scope id : String) (s : Store) : Bool :=
  (s.mail.discussion? scope id).all (fun d => (automationMode s.rooms d).any RoomMode.isFree)

-- a human continues a discussion that stopped on a response without a follow-up
def continuesSpent (scope id : String) (c : Ctx) (s : Store) : Call → Bool
  | .control a => c.self.scope = scope && strip a.discussionId = id &&
      ControlAction.parse? (lower (strip a.action)) = some .continue &&
      (s.mail.discussion? scope id).any (fun d => d.stopReason.any StopReason.spends)
  | _ => false

def Paced (scope id : String) (w : World) (i : Call × Ctx) : Prop :=
  freeRoom scope id w.store = true ∧ continuesSpent scope id i.2 w.store i.1 = false

instance (scope id : String) (w : World) (i : Call × Ctx) : Decidable (Paced scope id w i) :=
  inferInstanceAs (Decidable (_ ∧ _))

def traceTriggers (scope id : String) (tr : Trace) : List MessageRow :=
  tr.flatMap (fun e => replyTriggers scope id e.1.2 e.2)

section Runs
variable {P : Platform} {c : Ctx} {s s' : Store} {scope id : String} {ts us : List MessageRow}

theorem effect_triggered {call : Call} (h : s.WF P) (he : Effect P c scope id s s' call us)
    (hm : freeRoom scope id s = true) (hg : continuesSpent scope id c s call = false)
    (ht : Triggered scope id s.mail ts) : Triggered scope id s'.mail (ts ++ us) := by
  cases he with
  | moved he =>
    rw [List.append_nil]
    exact ht.same he.row he.rows
  | closed he _ =>
    rw [List.append_nil]
    obtain ⟨d, now, reason, -, hd⟩ := he.row
    exact ht.shut hd rfl (he.rows _)
  | @answered x reply he =>
    rw [List.append_nil]
    refine ⟨ht.sorted, fun t hts => ?_, ht.consumed.imp (fun hs => by rwa [he.row]) fun hc => ?_⟩
    · rw [he.responses]
      exact List.mem_append_left _ (ht.responses t hts)
    · intro t hts r hr hle
      rw [he.responses] at hr
      rw [Mail.hasFollowup, he.prompts]
      rcases List.mem_append.mp hr with hr | hr
      · exact hc t hts r hr hle
      · have hbound := h.mail.bound t (mem_ofDiscussion.mp (ht.responses t hts)).1
        have hnew := he.reply_row.after
        rw [List.mem_singleton.mp hr] at hle
        omega
  | @opened p policy rows he =>
    rw [List.append_nil]
    have hnil : ts = [] := by
      refine List.eq_nil_iff_forall_not_mem.mpr fun t hts => ?_
      have hmem := ht.responses t hts
      rw [h.mail.absent he.absent] at hmem
      cases hmem
    subst hnil
    exact ⟨.nil, by simp, .inr fun t hts => by cases hts⟩
  | @controlled a action d updated m hcall hc hact hid _ hd hk hmail =>
    rw [List.append_nil]
    have hkey : d.key = (scope, id) := lookup_key hd
    simp only [DiscussionRow.key, Prod.mk.injEq] at hkey
    obtain ⟨-, rfl⟩ := hkey
    subst hc hcall
    rw [hmail]
    refine controls_triggered h.mail hd hk (fun ha => ?_) ht
    subst ha
    simpa [continuesSpent, hid, hact, hd] using hg
  | @advanced a ds _ hcall _ hsel hturn =>
    cases hturn with
    | passed hf =>
      rw [List.append_nil]
      exact ht.same hf.row hf.rows
    | @taken d s₁ s₂ b hc hid hd hmem hb hr hw hs ha =>
      subst hc hid
      have hd₁ : s₁.mail.discussion? c.self.scope d.discussionId = some d := hb.row.trans hd
      have hmode : (automationMode s.rooms d).any RoomMode.isFree = true := by
        rw [freeRoom, hd, Option.all_some] at hm
        exact hm
      have hspent : d.spent = false := by
        simp [DiscussionRow.spent, selected_active hsel hmem, DiscussionStatus.isOpen]
      have hstep := steps_triggered hw hd₁ hmode hs hspent (ht.same hb.row hb.rows)
      exact hstep.same ha.row ha.rows

theorem traceTriggers_snoc (tr : Trace) (i : Call × Ctx) (out : Except BridgeError Reply) :
    traceTriggers scope id (tr ++ [(i, out)]) =
      traceTriggers scope id tr ++ replyTriggers scope id i.2 out := by
  simp [traceTriggers]

theorem attempt_triggered {w : World} (h : w.store.WF P) (i : Call × Ctx)
    (hp : Paced scope id w i) (ht : Triggered scope id w.store.mail ts) :
    Triggered scope id (attempt P w i).1.store.mail
      (ts ++ replyTriggers scope id i.2 (attempt P w i).2) := by
  unfold attempt
  split
  · rename_i s' r hperf
    exact effect_triggered h (perform_effect h hperf scope id) hp.1 hp.2 ht
  · simpa [replyTriggers] using ht

theorem responses_consumed_once {w w' : World} {tr : Trace}
    (h₀ : (mailbox P).start w) (h : ((mailbox P).restrict (Paced scope id)).Run w tr w') :
    (traceTriggers scope id tr).Pairwise (fun t u => t.sequence < u.sequence) ∧
      ∀ t ∈ traceTriggers scope id tr, t ∈ w'.store.mail.ofDiscussion scope id .response := by
  let inv (tr : Trace) (w : World) : Prop :=
    w.store.WF P ∧ Triggered scope id w.store.mail (traceTriggers scope id tr)
  have hinv : inv tr w' := by
    obtain ⟨connections, now, rfl⟩ := h₀
    refine h.preserves_trace inv ?_ ⟨initial_wf connections, .nil, by simp [traceTriggers], ?_⟩
    · rintro tr w i ⟨hw, ht⟩ ⟨-, hp⟩
      refine ⟨attempt_wf hw i, ?_⟩
      rw [traceTriggers_snoc]
      exact attempt_triggered hw i hp ht
    · exact .inr fun t hts => by simp [traceTriggers] at hts
  exact ⟨hinv.2.sorted, hinv.2.responses⟩

end Runs

def freeTalk : String := (Uuid.ofNat 1006).text

-- the reply carries no signal line, so the discussion stops and waits for the human
def malformedReply : List (Call × Ctx) :=
  asHuman 1 (sampleSeats ["a"] ++ [sampleAutomation "free", samplePost]) ++
  [sampleClaim (sampleAgent "a") 1 7] ++ sampleReply (sampleAgent "a") 1 7 "x" ++
  [asCoordinator 10 (.advance {})]

set_option maxRecDepth 100000 in
theorem responses_consumed_once_stopped :
    let M := (mailbox samplePlatform).restrict (Paced "demo" freeTalk)
    (traceTriggers "demo" freeTalk (M.play sampleWorld malformedReply).2).length = 1 ∧
      (traceTriggers "demo" freeTalk (M.play sampleWorld malformedReply).2).Pairwise
        (fun t u => t.sequence < u.sequence) := by
  intro M
  have hcheck : M.AdmitsAll sampleWorld malformedReply ∧
      (traceTriggers "demo" freeTalk (M.play sampleWorld malformedReply).2).length = 1 := by
    decide +kernel
  have hrun := Machine.run_play _ _ hcheck.1
  exact ⟨hcheck.2, (responses_consumed_once ⟨[], 0, rfl⟩ hrun).1⟩

def continuedTalk : List (Call × Ctx) :=
  malformedReply ++ asHuman 11 [.control { discussionId := freeTalk, action := "continue" }] ++
  [asCoordinator 12 (.advance {})]

set_option maxRecDepth 100000 in
theorem stopped_response_repeated :
    let M := (mailbox samplePlatform).restrict
      (fun w _ => freeRoom "demo" freeTalk w.store = true)
    ¬ ∀ (w w' : World) (tr : Trace), (mailbox samplePlatform).start w → M.Run w tr w' →
      (traceTriggers "demo" freeTalk tr).Pairwise (fun t u => t.sequence < u.sequence) := by
  intro M h
  have hcheck : M.AdmitsAll sampleWorld continuedTalk ∧
      (traceTriggers "demo" freeTalk (M.play sampleWorld continuedTalk).2).map
        MessageRow.sequence = [2, 2] := by decide +kernel
  obtain ⟨hopen, hseq⟩ := hcheck
  have hrun := Machine.run_play _ _ hopen
  have hstart : (mailbox samplePlatform).start sampleWorld := ⟨[], 0, rfl⟩
  generalize M.play sampleWorld continuedTalk = late at hrun hseq
  have hsorted := (List.pairwise_map (f := MessageRow.sequence)).mpr (h _ _ _ hstart hrun)
  rw [hseq] at hsorted
  simp at hsorted

end PeerBridge
