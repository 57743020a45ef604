import PeerBridge.Closing

namespace PeerBridge
open Checked Rows

-- a discussion that is open after the step was open before it, in the same room
def RowMove (scope id : String) (m m' : Mail) : Prop :=
  ∀ d, m'.discussion? scope id = some d → d.status.isOpen = true →
    ∃ e, m.discussion? scope id = some e ∧ e.status.isOpen = true ∧ e.roomId = d.roomId

/-- No room has two open discussions. -/
def Mail.OneOpen (m : Mail) : Prop :=
  ∀ scope i j d e, m.discussion? scope i = some d → m.discussion? scope j = some e →
    d.roomId = e.roomId → d.status.isOpen = true → e.status.isOpen = true → i = j

section Moves
variable {P : Platform} {c : Ctx} {s s' : Store} {scope id : String} {m m' : Mail}
  {d : DiscussionRow}

theorem RowMove.kept (h : m'.discussion? scope id = m.discussion? scope id) :
    RowMove scope id m m' := fun d hd ho => ⟨d, h ▸ hd, ho, rfl⟩

theorem RowMove.rewritten {d' : DiscussionRow} (before : m.discussion? scope id = some d)
    (after : m'.discussion? scope id = some d')
    (opens : d'.status.isOpen = true → d.status.isOpen = true) (room : d'.roomId = d.roomId) :
    RowMove scope id m m' := by
  intro e he ho
  obtain rfl := Option.some.inj (he.symm.trans after)
  exact ⟨d, before, opens ho, room.symm⟩

theorem Mail.OneOpen.moved (h : m.OneOpen) (hm : ∀ scope id, RowMove scope id m m') :
    m'.OneOpen := by
  intro scope i j d e hd he hroom hdo heo
  obtain ⟨d₀, hd₀, hdo₀, hdr⟩ := hm scope i d hd hdo
  obtain ⟨e₀, he₀, heo₀, her⟩ := hm scope j e he heo
  exact h scope i j d₀ e₀ hd₀ he₀ (by rw [hdr, hroom, her]) hdo₀ heo₀

theorem Closes.rowMove {calm : Bool} (h : Closes P scope id calm m m') : RowMove scope id m m' := by
  obtain ⟨d, now, reason, hd, hd'⟩ := h.row
  exact RowMove.rewritten hd hd' (fun ho => by cases ho) rfl

theorem controls_rowMove {extra : Nat} {action : ControlAction} {updated : DiscussionRow}
    {now : Utc} (hd : s.mail.discussion? c.self.scope d.discussionId = some d)
    (h : Controls P c extra d s action m updated) :
    RowMove c.self.scope d.discussionId s.mail
      (m.putDiscussion (sealDiscussion P now updated)) := by
  have hkey : d.key = (c.self.scope, d.discussionId) := lookup_key hd
  have hupdated : updated.key = d.key ∧ updated.roomId = d.roomId ∧ d.status.isOpen = true := by
    cases h with
    | pause hs => exact ⟨rfl, rfl, by rw [hs]; rfl⟩
    | resume hs => exact ⟨rfl, rfl, by rw [hs]; rfl⟩
    | stop hs => exact ⟨rfl, rfl, hs⟩
    | reopen hs _ => exact ⟨rfl, rfl, by rcases hs with hs | hs <;> rw [hs] <;> rfl⟩
    | extend hs _ => exact ⟨rfl, rfl, by rcases hs with hs | hs <;> rw [hs] <;> rfl⟩
  obtain ⟨hk, hroom, hopen⟩ := hupdated
  have hafter : (m.putDiscussion (sealDiscussion P now updated)).discussion? c.self.scope
      d.discussionId = some (sealDiscussion P now updated) := by
    rw [Mail.discussion?_putDiscussion]
    exact if_pos (hk.trans hkey)
  exact RowMove.rewritten hd hafter (fun _ => hopen) hroom

theorem steps_row {mode : Option RoomMode} {a : Option Advance}
    (hd : s.mail.discussion? c.self.scope d.discussionId = some d)
    (hs : Steps P c mode d s s' a) :
    ∃ d', s'.mail.discussion? c.self.scope d.discussionId = some d' ∧ d'.roomId = d.roomId := by
  have hkey : d.key = (c.self.scope, d.discussionId) := lookup_key hd
  have put {m : Mail} {d' : DiscussionRow} (hm : s'.mail = m.putDiscussion d')
      (hk : d'.key = d.key) (hroom : d'.roomId = d.roomId) :
      ∃ d', s'.mail.discussion? c.self.scope d.discussionId = some d' ∧ d'.roomId = d.roomId := by
    refine ⟨d', ?_, hroom⟩
    rw [hm, Mail.discussion?_putDiscussion, if_pos (hk.trans hkey)]
  cases hs with
  | idle hs => exact ⟨d, by rw [hs]; exact hd, rfl⟩
  | freeUnavailable _ _ hb => exact put hb.mail_eq rfl rfl
  | freeFailed _ _ _ hs => exact put hs rfl rfl
  | free f m _ _ _ _ _ _ hs => exact put hs rfl rfl
  | roundUnavailable _ _ _ hb => exact put hb.mail_eq rfl rfl
  | round r m _ _ _ _ _ _ _ hs => exact put hs rfl rfl

theorem turn_rowMove {a : AdvanceArgs} {ds : List DiscussionRow} {ts : List MessageRow}
    (hsel : selectDiscussions c.self a s = .ok ds) (h : Turn P c c.self.scope id ds s s' ts) :
    RowMove c.self.scope id s.mail s'.mail := by
  cases h with
  | passed h => exact RowMove.kept h.row
  | @taken d s₁ s₂ b _ hid hd hm hf hr hw hs hg =>
    subst hid
    obtain ⟨d', hd', hroom⟩ := steps_row (hf.row.trans hd) hs
    refine RowMove.rewritten hd (hg.row.trans hd') (fun _ => ?_) hroom
    rw [selected_active hsel hm]
    rfl

theorem perform_rowMove {call : Call} {r : Reply} (h : s.WF P)
    (hp : perform P c s call = .ok (s', r)) (hcall : ∀ a, call ≠ .postRoomMessage a)
    (scope id : String) : RowMove scope id s.mail s'.mail := by
  have same {m : Mail} (hm : m = s.mail) : RowMove scope id s.mail m := RowMove.kept (by rw [hm])
  cases call <;> simp only [perform] at hp
  case openScope =>
    simp only [pure_eq_ok, Prod.mk.injEq] at hp
    obtain ⟨rfl, rfl⟩ := hp
    exact same (initDb_mail _ _ _)
  case createRoom a =>
    obtain ⟨x, hx, rfl⟩ := replyWith_ok hp
    exact same (createRoom_ok hx).1
  case joinRoom a =>
    obtain ⟨x, hx, rfl⟩ := replyWith_ok hp
    exact same (joinRoom_ok hx).1
  case leaveRoom a =>
    obtain ⟨x, hx, rfl⟩ := replyWith_ok hp
    exact same (leaveRoom_ok hx).1
  case setRoomAutomation a =>
    obtain ⟨x, hx, rfl⟩ := replyWith_ok hp
    obtain ⟨_, _, _, _, _, _, _, _, hm⟩ := setRoomAutomation_ok hx
    split at hm
    · exact same hm
    · rw [hm]
      have hpend : Pending c.self.scope (openDiscussions c.self.scope x.roomId s.mail) s.mail :=
        openDiscussions_pending h.mail
      rcases stopForPolicy_closes h.mail hpend scope id with hf | hc
      · exact RowMove.kept hf.row
      · exact hc.rowMove
  case upsertRouteProfile a =>
    obtain ⟨x, hx, rfl⟩ := replyWith_ok hp
    exact same (upsertRouteProfile_ok hx).1
  case sendMessage a =>
    obtain ⟨x, hx, rfl⟩ := replyWith_ok hp
    obtain ⟨_, _, _, hi, _⟩ := sendMessage_ok hx
    exact RowMove.kept (hi.discussion? scope id)
  case sendRoomFanout a =>
    obtain ⟨x, hx, rfl⟩ := replyWith_ok hp
    obtain ⟨_, _, hi, _⟩ := sendRoomFanout_ok hx
    exact RowMove.kept (hi.discussion? scope id)
  case postRoomMessage a => exact absurd rfl (hcall a)
  case advance a =>
    obtain ⟨x, hx, rfl⟩ := replyWith_ok hp
    obtain ⟨ds, hds, hw⟩ := advanceDiscussions_ok hx
    have hpend := selected_pending h.mail hds
    by_cases hscope : c.self.scope = scope
    · subst hscope
      exact turn_rowMove hds (sweep_turn h.mail hpend hw id)
    · refine RowMove.kept (sweep_frame h.mail hpend hw fun e he hk => hscope ?_).row
      rw [hpend.key he] at hk
      exact (Prod.mk.inj hk).1
  case control a =>
    obtain ⟨x, hx, rfl⟩ := replyWith_ok hp
    obtain ⟨action, d, updated, m, -, -, -, hd, hc, -, hm⟩ := controlDiscussion_ok hx
    rw [hm]
    by_cases hk : (c.self.scope, d.discussionId) = (scope, id)
    · obtain ⟨rfl, rfl⟩ := Prod.mk.inj hk
      exact controls_rowMove hd hc
    · exact RowMove.kept (control_frame h.mail hd hc hk).row
  case claim a =>
    obtain ⟨x, hx, rfl⟩ := replyWith_ok hp
    rcases claimMessageDispatch_ok hx with ⟨-, rfl⟩ | ⟨_, _, -, -, hm, -, -⟩
    · exact same rfl
    · exact RowMove.kept (by rw [hm]; rfl)
  case renew a =>
    obtain ⟨x, hx, rfl⟩ := replyWith_ok hp
    obtain ⟨_, _, -, -, -, hm, -⟩ := renewMessageDispatch_ok hx
    exact RowMove.kept (by rw [hm]; rfl)
  case fail a =>
    obtain ⟨x, hx, rfl⟩ := replyWith_ok hp
    obtain ⟨_, _, _, -, -, -, -, hm⟩ := failMessageDispatch_ok hx
    split at hm <;> exact RowMove.kept (by rw [hm]; rfl)
  case recordTrusted a =>
    obtain ⟨x, hx, rfl⟩ := replyWith_ok hp
    exact same (recordTrustedInferenceReceipt_ok hx).1
  case complete a =>
    obtain ⟨x, hx, rfl⟩ := replyWith_ok hp
    rcases completeMessageDispatch_ok hx with ⟨-, rfl, -⟩ | ⟨_, _, _, _, _, _, -, hc, rfl, -, hm⟩
    · exact same rfl
    · rw [hm]
      rcases complete_effect h.mail hc scope id with hf | ha
      · exact RowMove.kept hf.row
      · exact RowMove.kept ha.row
  case ack a =>
    obtain ⟨x, hx, rfl⟩ := replyWith_ok hp
    obtain ⟨_, _, _, _, _, hm⟩ := ackMessage_ok hx
    rw [hm]
    exact RowMove.kept (receipt_moved _).row
  case reconcile a =>
    obtain ⟨x, hx, rfl⟩ := replyWith_ok hp
    exact RowMove.kept (reconcile_moved scope id hx).row

theorem supersede_other {ds : List DiscussionRow} (m : Mail)
    (h : ∀ e ∈ ds, e.key ≠ (scope, id)) :
    (supersedeMail P c ds m).discussion? scope id = m.discussion? scope id := by
  unfold supersedeMail
  induction ds generalizing m with
  | nil => rfl
  | cons e ds ih =>
    rw [List.foldl_cons, ih _ fun x hx => h x (List.mem_cons_of_mem _ hx),
      discussion?_other (by exact h e List.mem_cons_self)]
    rfl

-- every superseded discussion is stopped
theorem supersede_stopped {ds : List DiscussionRow} (m : Mail)
    (hk : (ds.map DiscussionRow.key).Nodup) (hd : d ∈ ds) :
    ∃ e, (supersedeMail P c ds m).discussion? d.scope d.discussionId = some e ∧
      e.status = .stopped := by
  induction ds generalizing m with
  | nil => cases hd
  | cons x ds ih =>
    obtain ⟨hx, hrest⟩ := List.nodup_cons.mp hk
    rcases List.mem_cons.mp hd with rfl | hd
    · let stopped := sealDiscussion P (utcNow c.clock.entry)
        { d with status := .stopped, stopReason := some .supersededByNewPost }
      let after := (cancelDiscussionDispatches P c.self.scope d.discussionId
        "discussion_superseded" (utcNow c.clock.entry) m).putDiscussion stopped
      have hrow : after.discussion? d.scope d.discussionId = some stopped := by
        rw [Mail.discussion?_putDiscussion]
        exact if_pos rfl
      have hother : (supersedeMail P c ds after).discussion? d.scope d.discussionId =
          after.discussion? d.scope d.discussionId :=
        supersede_other _ fun e he hke => hx (List.mem_map.mpr ⟨e, he, hke⟩)
      exact ⟨stopped, hother.trans hrow, rfl⟩
    · exact ih _ hrest hd

theorem openDiscussions_keys {r : Rooms} {scope roomId : String} (h : m.WF P r) :
    ((openDiscussions scope roomId m).map DiscussionRow.key).Nodup :=
  (List.filter_sublist.map _).nodup h.discussionKeys

theorem opens_one {p : Post} {policy : PolicyRow} {seats : List Seat} {rows : List MessageRow}
    (h : s.mail.WF P s.rooms) (hone : s.mail.OneOpen)
    (ho : Opens P c p policy seats rows m s s') : s'.mail.OneOpen := by
  let before := supersedeMail P c (openDiscussions c.self.scope p.roomId s.mail) s.mail
  have hpend : Pending c.self.scope (openDiscussions c.self.scope p.roomId s.mail) s.mail :=
    openDiscussions_pending h
  have hmove : ∀ scope id, RowMove scope id s.mail before := by
    intro scope id
    rcases supersede_closes h hpend scope id with hf | hc
    · exact RowMove.kept hf.row
    · exact hc.rowMove
  have hrow : ∀ scope id, s'.mail.discussion? scope id =
      if (c.self.scope, c.uuid.text) = (scope, id) then
        some (newDiscussion P c p policy rows.length) else before.discussion? scope id := by
    intro scope id
    rw [ho.mail_eq, Mail.discussion?_putDiscussion, ho.inserted.discussion?]
    rfl
  -- the open ones of the room are stopped before the new one is written
  have halone : ∀ id e, before.discussion? c.self.scope id = some e → e.roomId = p.roomId →
      e.status.isOpen = false := by
    intro id e he hroom
    by_contra hopen
    rw [Bool.not_eq_false] at hopen
    obtain ⟨e₀, he₀, hopen₀, hroom₀⟩ := hmove _ _ e he hopen
    obtain ⟨hmem, hkey⟩ := h.lookup_discussion.mp he₀
    obtain ⟨hscope, hid⟩ := Prod.mk.inj hkey
    have hlisted : e₀ ∈ openDiscussions c.self.scope p.roomId s.mail := by
      refine List.mem_filter.mpr ⟨hmem, ?_⟩
      simp only [decide_eq_true_eq]
      exact ⟨hscope, hroom₀.trans hroom, hopen₀⟩
    obtain ⟨x, hx, hstopped⟩ := supersede_stopped (P := P) (c := c) s.mail
      (openDiscussions_keys h) hlisted
    rw [hscope, hid] at hx
    obtain rfl := Option.some.inj (he.symm.trans hx)
    rw [hstopped] at hopen
    cases hopen
  intro scope i j d e hd he hroom hdo heo
  rw [hrow] at hd he
  by_cases hi : (c.self.scope, c.uuid.text) = (scope, i)
  · obtain ⟨rfl, rfl⟩ := Prod.mk.inj hi
    by_cases hj : (c.self.scope, c.uuid.text) = (c.self.scope, j)
    · exact (Prod.mk.inj hj).2
    · rw [if_pos rfl, Option.some.injEq] at hd
      rw [if_neg hj] at he
      have hclosed := halone j e he (by rw [← hroom, ← hd]; rfl)
      rw [heo] at hclosed
      cases hclosed
  · rw [if_neg hi] at hd
    by_cases hj : (c.self.scope, c.uuid.text) = (scope, j)
    · obtain ⟨rfl, rfl⟩ := Prod.mk.inj hj
      rw [if_pos rfl, Option.some.injEq] at he
      have hclosed := halone i d hd (by rw [hroom, ← he]; rfl)
      rw [hdo] at hclosed
      cases hclosed
    · rw [if_neg hj] at he
      exact hone.moved hmove scope i j d e hd he hroom hdo heo

theorem perform_one {call : Call} {r : Reply} (h : s.WF P)
    (hp : perform P c s call = .ok (s', r)) (hone : s.mail.OneOpen) : s'.mail.OneOpen := by
  by_cases hcall : ∃ a, call = .postRoomMessage a
  · obtain ⟨a, rfl⟩ := hcall
    simp only [perform] at hp
    obtain ⟨x, hx, rfl⟩ := replyWith_ok hp
    rcases postRoomMessage_ok hx with ⟨_, _, hi, _⟩ | ⟨p, policy, seats, m, ho⟩
    · exact hone.moved fun scope id => RowMove.kept (hi.discussion? scope id)
    · exact opens_one h.mail hone ho
  · exact hone.moved fun scope id => perform_rowMove h hp (fun a he => hcall ⟨a, he⟩) scope id

theorem Fate.rowMove (h : Fate scope id m m') : RowMove scope id m m' := by
  cases h with
  | kept row => exact RowMove.kept row
  | closed _ after =>
    intro d hd ho
    obtain ⟨e, he, hc⟩ := after.closed
    obtain rfl := Option.some.inj (hd.symm.trans he)
    rw [ho] at hc
    cases hc

end Moves

section Runs
variable {P : Platform} {J : JsonReader} {o : Office}

theorem exec_one {i : OfficeCall × Ctx} (ho : o.Valid P) (hone : o.database.store.mail.OneOpen) :
    ((controlRoom P J).exec o i).1.database.store.mail.OneOpen := by
  obtain ⟨call, c⟩ := i
  cases call with
  | mail call =>
    rw [exec_mail]
    show (attempt P o.world (call, c)).1.store.mail.OneOpen
    exact attempt_view (call, c) hone fun s' y hp => perform_one ho.sound.wf hp hone
  | queue call =>
    rcases exec_queue (P := P) (J := J) (o := o) (c := c) call with hsame | ⟨q, y, hp, he⟩
    · rw [hsame]
      exact hone
    · rw [he]
      exact hone.moved fun scope id => ((performQueue_step ho.sound hp).fate scope id).rowMove

theorem one_open_discussion (h : (controlRoom P J).Reachable o) :
    (∀ d ∈ o.database.store.mail.discussions, ∀ e ∈ o.database.store.mail.discussions,
      d.scope = e.scope → d.roomId = e.roomId → d.status ∉ [.completed, .stopped] →
        e.status ∉ [.completed, .stopped] → d = e) ∧
    ∀ d ∈ o.database.store.mail.discussions,
      d.processedRound ≤ d.currentRound ∧ d.currentRound ≤ d.processedRound + 1 := by
  have hinv : o.Valid P ∧ o.database.store.mail.OneOpen := by
    refine h.invariant (fun o => o.Valid P ∧ o.database.store.mail.OneOpen) ?_ ?_
    · rintro _ ⟨connections, now, rfl⟩
      exact ⟨initial_valid connections now, fun scope i j d e hd => by cases hd⟩
    · rintro o i ⟨hv, hone⟩ -
      exact ⟨exec_valid hv, exec_one hv hone⟩
  obtain ⟨hv, hone⟩ := hinv
  have hwf := hv.sound.wf.mail
  have hopen : ∀ status : DiscussionStatus, status ∉ [.completed, .stopped] →
      status.isOpen = true := by
    intro status hs
    cases status <;> simp_all [DiscussionStatus.isOpen]
  refine ⟨fun d hd e he hscope hroom hdo heo => ?_, fun d hd => ?_⟩
  · have hdl := hwf.lookup_discussion.mpr ⟨hd, rfl⟩
    have hel := hwf.lookup_discussion.mpr ⟨he, rfl⟩
    rw [← hscope] at hel
    have hid := hone d.scope _ _ d e hdl hel hroom (hopen _ hdo) (hopen _ heo)
    rw [← hid] at hel
    exact Option.some.inj (hdl.symm.trans hel)
  · have hok := hwf.discussed d hd
    exact ⟨hok.processed, hok.current⟩

end Runs

-- the first discussion is paused, and cannot be resumed once a second one is open
def supersededRun : List (OfficeCall × Ctx) :=
  (asHuman 1 (sampleSeats ["a"] ++ [sampleAutomation "discussion", samplePost,
    .control { discussionId := closingDiscussion, action := "pause" }, samplePost,
    .control { discussionId := closingDiscussion, action := "resume" }])).map
      (fun x => (.mail x.1, x.2))

set_option maxRecDepth 100000 in
theorem one_open_discussion_superseded :
    let M := controlRoom samplePlatform sampleReader
    let o := (M.play (.initial [] 0) supersededRun).1
    o.database.store.mail.discussions.map DiscussionRow.status = [.stopped, .active] ∧
    (∀ d ∈ o.database.store.mail.discussions, ∀ e ∈ o.database.store.mail.discussions,
      d.scope = e.scope → d.roomId = e.roomId → d.status ∉ [.completed, .stopped] →
        e.status ∉ [.completed, .stopped] → d = e) ∧
    ∀ d ∈ o.database.store.mail.discussions,
      d.processedRound ≤ d.currentRound ∧ d.currentRound ≤ d.processedRound + 1 := by
  intro M o
  have hcheck : M.AdmitsAll (.initial [] 0) supersededRun ∧
      o.database.store.mail.discussions.map DiscussionRow.status = [.stopped, .active] := by
    decide +kernel
  have hreach : M.Reachable o := ⟨_, _, ⟨[], 0, rfl⟩, Machine.run_play _ _ hcheck.1⟩
  exact ⟨hcheck.2, one_open_discussion hreach⟩

end PeerBridge
