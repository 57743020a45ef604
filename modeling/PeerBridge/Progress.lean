import PeerBridge.Effects
import Mathlib.Data.List.Find

namespace PeerBridge
open Checked Rows

def Mail.closed (m : Mail) (x : MessageRow) : Bool := m.settled x x.recipient

-- a discussion row written together with the prompts its step fanned out
structure Written (scope id : String) (d' : DiscussionRow) (rows : List MessageRow)
    (m m' : Mail) : Prop where
  row : m'.discussion? scope id = some d'
  prompts : m'.ofDiscussion scope id .prompt = m.ofDiscussion scope id .prompt ++ rows
  responses : m'.ofDiscussion scope id .response = m.ofDiscussion scope id .response
  dispatch : ∀ x ∈ m.ofDiscussion scope id .prompt, Moves (m.dispatchOf x) (m'.dispatchOf x)
  fresh : ∀ x ∈ rows, m'.dispatchOf x = none

-- what no step of a discussion can undo
structure Onward (scope id : String) (m m' : Mail) : Prop where
  row : ∀ d, m.discussion? scope id = some d →
    ∃ d', m'.discussion? scope id = some d' ∧ d'.roomId = d.roomId ∧
      d.processedRound ≤ d'.processedRound
  prompts : ∃ rows, m'.ofDiscussion scope id .prompt = m.ofDiscussion scope id .prompt ++ rows ∧
    ∀ d, m.discussion? scope id = some d → ∀ x ∈ rows, ∀ n, x.discussionRound = some n →
      d.processedRound < n
  closed : ∀ x ∈ m.ofDiscussion scope id .prompt,
    (m.dispatchOf x).any (fun e => e.status.terminal) = true → m'.dispatchOf x = m.dispatchOf x

theorem Mail.Base.sequence_inj {P : Platform} {m : Mail} (h : m.Base P) {x y : MessageRow}
    (hx : x ∈ m.messages) (hy : y ∈ m.messages) (hs : x.sequence = y.sequence) : x = y := by
  have hnodup : (m.messages.map MessageRow.sequence).Nodup :=
    List.pairwise_map.mpr (h.sorted.imp fun hlt => ne_of_lt hlt)
  exact List.inj_on_of_nodup_map hnodup hx hy hs

section Written
variable {P : Platform} {c : Ctx} {m m₁ m' m'' : Mail} {scope id : String} {d d' : DiscussionRow}
  {rows : List MessageRow}

theorem written_put (hd : m.discussion? scope id = some d) (hk : d'.key = d.key)
    (h : Moved scope id m m₁) : Written scope id d' [] m (m₁.putDiscussion d') := by
  have hkey : d.key = (scope, id) := lookup_key hd
  refine ⟨?_, ?_, h.rows .response, h.dispatch, by simp⟩
  · rw [Mail.discussion?_putDiscussion, if_pos (hk.trans hkey)]
  · rw [List.append_nil]
    exact h.rows .prompt

theorem Inserted.undispatched {r : Rooms} {ds : List Draft} (h : m.WF P r)
    (hi : Inserted P c ds rows m m₁) : ∀ x ∈ rows, m₁.dispatchOf x = none := by
  intro x hx
  rw [hi.mail_eq]
  show m.dispatch? x.scope x.messageId x.recipient = none
  cases hl : m.dispatch? x.scope x.messageId x.recipient with
  | none => rfl
  | some e =>
    obtain ⟨hmem, hkey⟩ := h.toBase.dispatch_mem.mp hl
    simp only [DispatchRow.key, Prod.mk.injEq] at hkey
    obtain ⟨y, hy⟩ := h.dispatched e hmem
    have hsource := hy.source
    rw [hkey.1, hkey.2.1] at hsource
    obtain ⟨hym, -, hid⟩ := (message?_iff h.ids).mp hsource
    exact absurd hid (hi.fresh y hym x hx)

theorem written_insert {r : Rooms} {n : Nat} {reply : Option String} {ds : List Draft}
    (h : m.WF P r) (hd : m.discussion? c.self.scope d.discussionId = some d)
    (hk : d'.key = d.key) (hi : Inserted P c ds rows m m₁)
    (hrows : ∀ x ∈ rows, SeatRow c d n reply m x) :
    Written c.self.scope d.discussionId d' rows m (m₁.putDiscussion d') := by
  have hkey : d.key = (c.self.scope, d.discussionId) := lookup_key hd
  have hm : m₁.messages = m.messages ++ rows := by rw [hi.mail_eq]; rfl
  refine ⟨?_, ?_, ?_, fun x _ => ?_, fun x hx => hi.undispatched h x hx⟩
  · rw [Mail.discussion?_putDiscussion, if_pos (hk.trans hkey)]
  · exact ofDiscussion_add hm fun x hx =>
      ⟨(hrows x hx).scope_eq, (hrows x hx).discussion_eq, (hrows x hx).role_eq⟩
  · exact ofDiscussion_other (show DiscussionRole.prompt ≠ .response by decide) hm
      fun x hx => (hrows x hx).role_eq
  · rw [hi.mail_eq]
    exact .same _

theorem Written.then (h : Written scope id d' rows m m') (k : Frame scope id m' m'') :
    Written scope id d' rows m m'' := by
  have old {x : MessageRow} (hx : x ∈ m.ofDiscussion scope id .prompt) :
      x ∈ m'.ofDiscussion scope id .prompt := by
    rw [h.prompts]
    exact List.mem_append_left _ hx
  refine ⟨k.row.trans h.row, (k.rows _).trans h.prompts, (k.rows _).trans h.responses,
    fun x hx => ?_, fun x hx => ?_⟩
  · rw [k.dispatchOf (old hx)]
    exact h.dispatch x hx
  · have hx' : x ∈ m'.ofDiscussion scope id .prompt := by
      rw [h.prompts]
      exact List.mem_append_right _ hx
    rw [k.dispatchOf hx']
    exact h.fresh x hx

theorem Frame.written (h : Frame scope id m m') (k : Written scope id d' rows m' m'') :
    Written scope id d' rows m m'' := by
  refine ⟨k.row, k.prompts.trans ?_, k.responses.trans (h.rows _), fun x hx => ?_, k.fresh⟩
  · rw [h.rows]
  · have hx' : x ∈ m'.ofDiscussion scope id .prompt := by
      rw [h.rows]
      exact hx
    rw [← h.dispatchOf hx]
    exact k.dispatch x hx'

theorem Onward.refl (m : Mail) : Onward scope id m m :=
  ⟨fun d hd => ⟨d, hd, rfl, le_refl _⟩, ⟨[], by simp⟩, fun _ _ _ => rfl⟩

theorem Moved.onward (h : Moved scope id m m') : Onward scope id m m' := by
  refine ⟨fun d hd => ⟨d, h.row ▸ hd, rfl, le_refl _⟩, ⟨[], ?_, by simp⟩, fun x hx ht =>
    (h.dispatch x hx).closed ht⟩
  rw [List.append_nil]
  exact h.rows .prompt

theorem Closes.onward {calm : Bool} (h : Closes P scope id calm m m') : Onward scope id m m' := by
  obtain ⟨d, now, reason, hd, hd'⟩ := h.row
  refine ⟨fun e he => ⟨_, hd', ?_⟩, ⟨[], ?_, by simp⟩, fun x hx ht => (h.dispatch x hx).closed ht⟩
  · obtain rfl : d = e := Option.some.inj (hd.symm.trans he)
    exact ⟨rfl, le_refl _⟩
  · rw [List.append_nil]
    exact h.rows .prompt

theorem Answered.onward {x reply : MessageRow} (hb : m.Base P)
    (h : Answered c scope id x reply m m') : Onward scope id m m' := by
  refine ⟨fun d hd => ⟨d, h.row ▸ hd, rfl, le_refl _⟩, ⟨[], by simp [h.prompts]⟩, fun y hy ht => ?_⟩
  refine h.others y hy fun hxy => ?_
  have hmem := (mem_ofDiscussion.mp hy).1
  obtain rfl : y = x := eq_of_key_eq hb.ids hmem (mem_ofDiscussion.mp h.prompt).1 hxy
  obtain ⟨e, he, hclaimed⟩ := h.claimed
  simp [he, hclaimed, DispatchStatus.terminal] at ht

theorem Written.onward (h : Written scope id d' rows m m')
    (hd : m.discussion? scope id = some d) (hroom : d'.roomId = d.roomId)
    (hp : d.processedRound ≤ d'.processedRound)
    (hrows : ∀ x ∈ rows, ∀ n, x.discussionRound = some n → d.processedRound < n) :
    Onward scope id m m' := by
  refine ⟨fun e he => ⟨d', h.row, ?_⟩, ⟨rows, h.prompts, fun e he => ?_⟩, fun x hx ht =>
    (h.dispatch x hx).closed ht⟩
  · obtain rfl : d = e := Option.some.inj (hd.symm.trans he)
    exact ⟨hroom, hp⟩
  · obtain rfl : d = e := Option.some.inj (hd.symm.trans he)
    exact hrows

theorem put_onward (hd : m.discussion? scope id = some d) (h : Moved scope id m m₁)
    (hk : d'.key = d.key) (hroom : d'.roomId = d.roomId)
    (hp : d.processedRound ≤ d'.processedRound) : Onward scope id m (m₁.putDiscussion d') :=
  (written_put hd hk h).onward hd hroom hp (by simp)

theorem insert_onward {r : Rooms} {n : Nat} {reply : Option String} {ds : List Draft}
    (h : m.WF P r) (hd : m.discussion? c.self.scope d.discussionId = some d)
    (hi : Inserted P c ds rows m m₁) (hrows : ∀ x ∈ rows, SeatRow c d n reply m x)
    (hn : rows ≠ [] → d.processedRound < n) (hk : d'.key = d.key) (hroom : d'.roomId = d.roomId)
    (hp : d.processedRound ≤ d'.processedRound) :
    Onward c.self.scope d.discussionId m (m₁.putDiscussion d') := by
  refine (written_insert h hd hk hi hrows).onward hd hroom hp fun x hx k hk => ?_
  rw [(hrows x hx).round_eq, Option.some.injEq] at hk
  rw [← hk]
  exact hn (List.ne_nil_of_mem hx)

theorem Onward.trans (h : Onward scope id m m') (k : Onward scope id m' m'') :
    Onward scope id m m'' := by
  obtain ⟨rows, hp, hr⟩ := h.prompts
  obtain ⟨rows', hp', hr'⟩ := k.prompts
  refine ⟨fun d hd => ?_, ⟨rows ++ rows', ?_, fun d hd x hx n hn => ?_⟩, fun x hx ht => ?_⟩
  · obtain ⟨d', hd', hroom, hle⟩ := h.row d hd
    obtain ⟨d'', hd'', hroom', hle'⟩ := k.row d' hd'
    exact ⟨d'', hd'', hroom'.trans hroom, hle.trans hle'⟩
  · rw [hp', hp, List.append_assoc]
  · rcases List.mem_append.mp hx with hx | hx
    · exact hr d hd x hx n hn
    · obtain ⟨d', hd', -, hle⟩ := h.row d hd
      exact hle.trans_lt (hr' d' hd' x hx n hn)
  · have hx' : x ∈ m'.ofDiscussion scope id .prompt := by
      rw [hp]
      exact List.mem_append_left _ hx
    have hsame := h.closed x hx ht
    rw [k.closed x hx' (hsame ▸ ht), hsame]

end Written

section Steps
variable {P : Platform} {c : Ctx} {s s' : Store} {scope id : String} {d : DiscussionRow}

theorem steps_onward {mode : Option RoomMode} {a : Option Advance} (h : s.mail.WF P s.rooms)
    (hd : s.mail.discussion? c.self.scope d.discussionId = some d)
    (hs : Steps P c mode d s s' a) : Onward c.self.scope d.discussionId s.mail s'.mail := by
  have hok := (h.discussed_at hd).processed
  have hnone : ∀ x ∈ ([] : List MessageRow), SeatRow c d 0 none s.mail x := by simp
  cases hs with
  | idle hs =>
    rw [hs]
    exact .refl _
  | freeUnavailable _ _ hb =>
    rw [hb.mail_eq]
    exact put_onward hd (cancel_moved _ _ _ _) rfl rfl (le_refl _)
  | freeFailed _ _ _ hs =>
    rw [hs]
    exact put_onward hd (.refl _) rfl rfl (le_refl _)
  | @free participants response rows f m _ hp _ _ hf hi hs =>
    rw [hs]
    have hnext : f.nextEvent = d.currentRound + 1 := by rw [hf]; rfl
    have hsub : ∀ seat ∈ f.targets, seat ∈ participants := hf ▸ freeStep_targets
    have hlater : d.processedRound < f.nextEvent := by omega
    by_cases ha : (f.outcome c.self.scope d s.mail).1 = .active
    · rw [FreeStep.drafts, if_pos ha] at hi
      exact insert_onward h hd hi (seat_rows h hd hp hsub hi) (fun _ => hlater) rfl rfl hlater.le
    · rw [FreeStep.drafts, if_neg ha] at hi
      obtain rfl : rows = [] := hi.rows_eq
      exact insert_onward h hd hi hnone (fun hn => absurd rfl hn) rfl rfl hlater.le
  | roundUnavailable _ _ _ hb =>
    rw [hb.mail_eq]
    exact put_onward hd (cancel_moved _ _ _ _) rfl rfl hok
  | @round participants rows r m _ _ hp hr _ _ hi hs =>
    rw [hs]
    have hpart : r.participants = participants := by rw [hr]; rfl
    by_cases ha : (r.outcome d).1 = .active
    · rw [RoundStep.drafts, if_pos ha] at hi
      have hrows := seat_rows h hd hp (fun seat hs => hpart ▸ hs) hi
      exact insert_onward h hd hi hrows (fun _ => by omega) rfl rfl hok
    · rw [RoundStep.drafts, if_neg ha] at hi
      obtain rfl : rows = [] := hi.rows_eq
      exact insert_onward h hd hi hnone (fun hn => absurd rfl hn) rfl rfl hok

theorem controls_onward {m : Mail} {updated : DiscussionRow} {now : Utc} {extra : Nat}
    {action : ControlAction} (h : s.mail.WF P s.rooms)
    (hd : s.mail.discussion? c.self.scope d.discussionId = some d)
    (hc : Controls P c extra d s action m updated) :
    Onward c.self.scope d.discussionId s.mail
      (m.putDiscussion (sealDiscussion P now updated)) := by
  have hok := (h.discussed_at hd).processed
  cases hc with
  | pause _ => exact put_onward hd (.refl _) rfl rfl (le_refl _)
  | resume _ => exact put_onward hd (.refl _) rfl rfl (le_refl _)
  | stop _ => exact put_onward hd (cancel_moved _ _ _ _) rfl rfl (le_refl _)
  | reopen _ _ => exact put_onward hd (.refl _) rfl rfl (le_refl _)
  | extend _ hx =>
    have hrows := seat_rows h hd hx.participants (fun _ hs => hs) hx.inserted
    exact insert_onward h hd hx.inserted hrows (fun _ => by omega) rfl rfl (le_refl _)

theorem turn_onward {ds : List DiscussionRow} {ts : List MessageRow}
    (h : Turn P c scope id ds s s' ts) : Onward scope id s.mail s'.mail := by
  cases h with
  | passed hf => exact hf.moved.onward
  | @taken d s₁ s₂ a hc hid hd hm hf hr hw hs hg =>
    subst hc hid
    have hd₁ : s₁.mail.discussion? c.self.scope d.discussionId = some d := hf.row.trans hd
    exact hf.moved.onward.trans ((steps_onward hw hd₁ hs).trans hg.moved.onward)

theorem effect_onward {call : Call} {ts : List MessageRow} (h : s.WF P)
    (he : Effect P c scope id s s' call ts) : Onward scope id s.mail s'.mail := by
  cases he with
  | moved he => exact he.onward
  | closed he _ => exact he.onward
  | answered he => exact he.onward h.mail.toBase
  | @opened p policy rows he =>
    have hnone := he.absent
    refine ⟨fun d hd => by simp [hnone] at hd, ⟨rows, ?_, fun d hd => by simp [hnone] at hd⟩,
      fun x hx => ?_⟩
    · rw [h.mail.absent hnone, he.prompts, List.nil_append]
    · rw [h.mail.absent hnone] at hx
      simp at hx
  | @controlled a action d updated m _ hc _ hid _ hd hk hm =>
    have hkey : d.key = (scope, id) := lookup_key hd
    simp only [DiscussionRow.key, Prod.mk.injEq] at hkey
    obtain ⟨-, rfl⟩ := hkey
    subst hc
    rw [hm]
    exact controls_onward h.mail hd hk
  | advanced _ _ _ ht => exact turn_onward ht

theorem selected_active {a : AdvanceArgs} {ds : List DiscussionRow} {d : DiscussionRow}
    (h : selectDiscussions c.self a s = .ok ds) (hd : d ∈ ds) : d.status = .active := by
  obtain ⟨roomId, limit, -, -, rfl⟩ := selectDiscussions_ok h
  have hmem := List.mem_of_mem_take hd
  rw [advanceOrder, List.mem_insertionSort, List.mem_filter] at hmem
  have hw := hmem.2
  simp only [advanceWhere, Bool.and_eq_true, decide_eq_true_eq] at hw
  exact hw.1.1.2

end Steps

section Prompts
variable {P : Platform} {c : Ctx} {s s' : Store} {scope id : String} {m m' : Mail}
  {d : DiscussionRow} {x : MessageRow}

theorem closed_dispatch : m.closed x = true ↔
    ∃ e, m.dispatchOf x = some e ∧ e.status.terminal = true := by
  show (m.dispatchOf x).any (fun e => e.status.terminal) = true ↔ _
  rw [Option.any_eq_true]

theorem Moves.keeps_closed (h : Moves (m.dispatchOf x) (m'.dispatchOf x))
    (hc : m.closed x = true) : m'.closed x = true := by
  obtain ⟨e, he, ht⟩ := closed_dispatch.mp hc
  have hsame := h.closed (by rw [he]; simpa using ht)
  exact closed_dispatch.mpr ⟨e, hsame.trans he, ht⟩

-- a prompt has one recipient, so at most one dispatch row
theorem dispatchesOf_prompt {r : Rooms} (h : m.WF P r)
    (hx : x ∈ m.ofDiscussion scope id .prompt) :
    m.dispatchesOf x = (m.dispatchOf x).toList := by
  obtain ⟨hmem, hscope, hid, -⟩ := mem_ofDiscussion.mp hx
  have hagent : ∀ e ∈ m.dispatchesOf x, e.agentId = x.recipient := by
    intro e he
    obtain ⟨hm, hk⟩ := List.mem_filter.mp he
    simp only [decide_eq_true_eq] at hk
    obtain ⟨y, hy⟩ := h.dispatched e hm
    have hsource := hy.source
    rw [hk.1, hk.2, h.lookup hmem, Option.some.injEq] at hsource
    subst hsource
    exact (hy.recipient h hid).2.1.symm
  have hkey : ∀ e ∈ m.dispatchesOf x, e.key = (x.scope, x.messageId, x.recipient) := by
    intro e he
    have hk := (List.mem_filter.mp he).2
    simp only [decide_eq_true_eq] at hk
    rw [DispatchRow.key, hk.1, hk.2, hagent e he]
  have hnodup : ((m.dispatchesOf x).map DispatchRow.key).Nodup :=
    h.dispatchKeys.sublist ((List.filter_sublist).map _)
  rw [Mail.dispatchOf, find?_dispatchesOf]
  cases hl : m.dispatchesOf x with
  | nil => rfl
  | cons e es =>
    rw [hl] at hagent hkey hnodup
    have hnil : es = [] := by
      refine List.eq_nil_iff_forall_not_mem.mpr fun y hy => ?_
      have hsame := (hkey y (List.mem_cons_of_mem _ hy)).trans (hkey e List.mem_cons_self).symm
      exact (List.nodup_cons.mp hnodup).1 (hsame ▸ List.mem_map_of_mem hy)
    subst hnil
    simp [hagent e List.mem_cons_self]

theorem settled_le {f : DispatchRow → Option MessageRow} {xs : List MessageRow}
    (h : ∀ x ∈ xs, m.dispatchesOf x = (m.dispatchOf x).toList) :
    (xs.flatMap (fun x => (m.dispatchesOf x).filterMap
      (fun e => if e.status = .completed then f e else none))).length +
    (xs.flatMap (fun x => (m.dispatchesOf x).filter (fun e => e.status = .failed))).length ≤
      xs.countP m.closed := by
  induction xs with
  | nil => rfl
  | cons x xs ih =>
    have hrest := ih fun y hy => h y (List.mem_cons_of_mem _ hy)
    have hone : ((m.dispatchesOf x).filterMap
          (fun e => if e.status = .completed then f e else none)).length +
        ((m.dispatchesOf x).filter (fun e => e.status = .failed)).length ≤
          if m.closed x then 1 else 0 := by
      rw [h x List.mem_cons_self, show m.closed x =
        (m.dispatchOf x).any (fun e => e.status.terminal) from rfl]
      cases m.dispatchOf x with
      | none => rfl
      | some e => cases hs : e.status <;> cases hf : f e <;> simp [hs, DispatchStatus.terminal, hf]
    rw [List.flatMap_cons, List.flatMap_cons, List.length_append, List.length_append,
      List.countP_cons]
    omega

theorem round_closed {r : Rooms} {n : Nat} (h : m.WF P r)
    (hn : (m.prompts scope id n).length ≤
      (m.roundResponses scope id n).length + m.terminalCount scope id n) :
    ∀ x ∈ m.prompts scope id n, m.closed x = true := by
  have hone : ∀ x ∈ m.prompts scope id n, m.dispatchesOf x = (m.dispatchOf x).toList :=
    fun x hx => dispatchesOf_prompt h (mem_prompts.mp hx).1
  have hle := settled_le (f := fun e => e.replyMessageId.bind (m.message? e.scope)) hone
  rw [Mail.roundResponses, List.length_insertionSort, Mail.terminalCount] at hn
  exact List.countP_eq_length.mp (le_antisymm List.countP_le_length (hn.trans hle))

theorem cancel_closed {r : Rooms} (h : m.WF P r) (code : String) (now : Utc)
    (hx : x ∈ m.ofDiscussion scope id .prompt) (hsome : (m.dispatchOf x).isSome = true) :
    (cancelDiscussionDispatches P scope id code now m).closed x = true := by
  obtain ⟨e, he⟩ := Option.isSome_iff_exists.mp hsome
  obtain ⟨hmem, hscope, hid, hrole⟩ := mem_ofDiscussion.mp hx
  have hkey := (h.toBase.dispatch_mem.mp he).2
  simp only [DispatchRow.key, Prod.mk.injEq] at hkey
  have hafter : (cancelDiscussionDispatches P scope id code now m).dispatchOf x = some
      (if m.cancellable scope id e then cancelledDispatch P code now e else e) := by
    rw [Mail.dispatchOf, dispatch?_cancel, ← Mail.dispatchOf, he]
    rfl
  refine closed_dispatch.mpr ⟨_, hafter, ?_⟩
  by_cases hc : m.cancellable scope id e = true
  · rw [if_pos hc]
    rfl
  · rw [if_neg hc]
    have hsource : m.message? scope e.messageId = some x := by
      rw [hkey.2.1, ← hscope]
      exact h.lookup hmem
    cases ht : e.status.terminal with
    | true => rfl
    | false => exact absurd (by simp [Mail.cancellable, hkey.1, hscope, hsource, hid, hrole, ht]) hc

theorem Frame.prompts (h : Frame scope id m m') (n : Nat) :
    m'.prompts scope id n = m.prompts scope id n := by
  rw [Mail.prompts, h.rows, Mail.prompts]

theorem discussionParticipants_frame (h : Frame scope id s.mail s'.mail) (hr : s'.rooms = s.rooms) :
    discussionParticipants P scope id s' = discussionParticipants P scope id s := by
  rw [discussionParticipants, h.prompts, hr, discussionParticipants]

theorem Frame.latestTerminal (h : Frame scope id m m') :
    m'.latestTerminal scope id = m.latestTerminal scope id := by
  rw [Mail.latestTerminal, Mail.latestTerminal, h.rows]
  refine List.find?_congr fun x hx => ?_
  rw [Mail.latestPrompt, Mail.latestPrompt, h.rows, Mail.dispatchFailed, Mail.dispatchFailed,
    ← Mail.dispatchOf, h.dispatchOf hx, ← Mail.dispatchOf]

theorem Frame.freeTrigger (h : Frame scope id m m') :
    m'.freeTrigger scope id = m.freeTrigger scope id := by
  simp only [Mail.freeTrigger, Mail.hasFollowup, h.rows]

theorem Frame.inFlight (h : Frame scope id m m') (epoch : ℚ) :
    m'.inFlight epoch scope id = m.inFlight epoch scope id := by
  rw [Mail.inFlight, Mail.inFlight, h.rows, Bool.eq_iff_iff, List.any_eq_true, List.any_eq_true]
  refine exists_congr fun x => and_congr_right fun hx => ?_
  rw [← Mail.dispatchOf, h.dispatchOf hx, ← Mail.dispatchOf]

theorem Frame.freeStep (h : Frame scope d.discussionId m m') (seats : List Seat)
    (response : MessageRow) :
    freeStep P scope m' d seats response = freeStep P scope m d seats response := by
  simp only [PeerBridge.freeStep, h.rows]

theorem Frame.outcome (h : Frame scope d.discussionId m m') (f : FreeStep) :
    f.outcome scope d m' = f.outcome scope d m := by
  have hroot : rootPrompt scope d.discussionId m' = rootPrompt scope d.discussionId m := by
    rw [rootPrompt, h.rows, rootPrompt]
  have hcontext : f.context scope d m' = f.context scope d m := by
    simp only [FreeStep.context, hroot, h.rows]
  rw [FreeStep.outcome, hroot, hcontext, FreeStep.outcome]

theorem Frame.roundResponses {r : Rooms} (hw : m.WF P r) (h : Frame scope id m m') (n : Nat) :
    m'.roundResponses scope id n = m.roundResponses scope id n := by
  rw [Mail.roundResponses, Mail.roundResponses, h.prompts]
  congr 1
  refine List.flatMap_congr fun x hx => ?_
  obtain ⟨hx, -⟩ := mem_prompts.mp hx
  rw [h.dispatches x hx]
  refine List.filterMap_congr fun e he => ?_
  split
  · rename_i hdone
    obtain ⟨hmem, hkey⟩ := List.mem_filter.mp he
    obtain ⟨y, hy⟩ := hw.dispatched e hmem
    obtain ⟨reply, hreply⟩ := hy.answered hdone
    have hscope : e.scope = scope := by
      simp only [decide_eq_true_eq] at hkey
      exact hkey.1.trans (mem_ofDiscussion.mp hx).2.1
    have hold : m.message? scope reply.messageId = some reply :=
      (message?_iff hw.ids).mpr ⟨hreply.mem, hreply.scope_eq.trans hscope, rfl⟩
    rw [hreply.id_eq, Option.bind_some, Option.bind_some, hscope, hold,
      h.kept _ _ hold]
  · rfl

theorem Frame.terminalCount (h : Frame scope id m m') (n : Nat) :
    m'.terminalCount scope id n = m.terminalCount scope id n := by
  rw [Mail.terminalCount, Mail.terminalCount, h.prompts]
  congr 1
  refine List.flatMap_congr fun x hx => ?_
  rw [h.dispatches x (mem_prompts.mp hx).1]

theorem Frame.roundStep {r : Rooms} (hw : m.WF P r) (h : Frame scope d.discussionId m m')
    (seats : List Seat) : roundStep P scope m' d seats = roundStep P scope m d seats := by
  simp only [PeerBridge.roundStep, h.roundResponses hw, h.terminalCount, h.prompts]

theorem prompt_agent {r : Rooms} (h : m.WF P r) (hx : x ∈ m.ofDiscussion scope id .prompt)
    {agentId : String} (hto : addressedTo x agentId = true) : agentId = x.recipient := by
  obtain ⟨hmem, hscope, hid, -⟩ := mem_ofDiscussion.mp hx
  obtain ⟨d, hd⟩ := Option.isSome_iff_exists.mp (h.linked x hmem id hid).1
  rw [hscope] at hd
  have hrec := ((h.discussed_at hd).prompt x hx).recipient
  simp only [addressedTo, Bool.or_eq_true, decide_eq_true_eq] at hto
  rcases hto with hto | hto
  · exact hto.symm
  · rw [hto, star_unsafe] at hrec
    cases hrec

end Prompts

section Attempts
variable {P : Platform} {scope id : String} {w : World}

theorem attempt_view {inv : Mail → Prop} (i : Call × Ctx) (h : inv w.store.mail)
    (step : ∀ s' r, perform P i.2 w.store i.1 = .ok (s', r) → inv s'.mail) :
    inv (attempt P w i).1.store.mail := by
  unfold attempt
  split
  · rename_i s' r hp
    exact step s' r hp
  · exact h

theorem attempt_onward (h : w.store.WF P) (i : Call × Ctx) :
    Onward scope id w.store.mail (attempt P w i).1.store.mail :=
  attempt_view i (.refl _) fun _ _ hp => effect_onward h (perform_effect h hp scope id)

end Attempts

end PeerBridge
