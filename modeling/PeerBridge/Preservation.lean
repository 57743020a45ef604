import PeerBridge.Invariants

namespace PeerBridge
open Checked Rows

structure Rooms.WF (r : Rooms) : Prop where
  members : ∀ m ∈ r.memberships, isIdentifier m.agentId = true
  live : ∀ x ∈ r.rooms, x.archived = false
  profiles : ∀ p ∈ r.routeProfiles, isIdentifier p.routeId = true ∧
    p.providerId.all isIdentifier = true ∧ p.reasoningMode.all isIdentifier = true

structure Prepared (P : Platform) (scope : String) (r : Rooms) (m : MembershipRow)
    (seat : Seat) : Prop where
  agent_eq : seat.agentId = m.agentId
  route_eq : seat.routeProfileId = m.routeProfileId.getD ""
  routed : seat.routeProfileId ≠ ""
  resolved : resolveRouteRequest P scope m.agentId { routeProfileId := seat.routeProfileId } r =
    .ok (some seat.request)

theorem routedRoomSeats_ok {P : Platform} {c : Ctx} {roomId : String} {author : Option String}
    {r : Rooms} {seats : List Seat} (h : routedRoomSeats P c roomId author r = .ok seats) :
    seats ≠ [] ∧ ∀ seat ∈ seats, ∃ m ∈ r.memberships, m.scope = c.self.scope ∧
      m.roomId = roomId ∧ m.status = .active ∧ m.agentId ∉ humanOperatorId :: author.toList ∧
      Prepared P c.self.scope r m seat := by
  simp only [routedRoomSeats, prepareSeats, bind_eq_ok, require_eq_ok] at h
  obtain ⟨-, hne, -, -, h⟩ := h
  constructor
  · rintro rfl
    have := (mapM_eq_ok.mp h).length_eq
    exact hne (List.length_eq_zero_iff.mp this)
  · intro seat hs
    obtain ⟨m, hm, hp⟩ := exists_of_mapM h hs
    simp only [activeSeats, List.mem_insertionSort, List.mem_filter, decide_eq_true_eq] at hm
    obtain ⟨hm, h1, h2, h3, h4⟩ := hm
    simp only [prepareSeat, bind_eq_ok, require_eq_ok, demand_eq_ok, pure_eq_ok] at hp
    obtain ⟨-, hr, _, hres, q, rfl, rfl⟩ := hp
    exact ⟨m, hm, h1, h2, h3, h4, rfl, rfl, hr, hres⟩

structure SeatRow (c : Ctx) (d : DiscussionRow) (n : Nat) (reply : Option String) (m : Mail)
    (x : MessageRow) : Prop where
  scope_eq : x.scope = c.self.scope
  discussion_eq : x.discussionId = some d.discussionId
  role_eq : x.discussionRole = some .prompt
  room_eq : x.roomId = d.roomId
  round_eq : x.discussionRound = some n
  reply_eq : x.replyTo = reply
  sender_eq : x.sender = discussionOrchestratorId
  after : m.lastSequence < x.sequence
  seated : ∃ y ∈ atRound 1 (m.ofDiscussion c.self.scope d.discussionId .prompt),
    y.binding = x.binding

section Steps
variable {P : Platform} {c : Ctx} {s s' : Store} {d : DiscussionRow} {rows : List MessageRow}
  {m : Mail}

theorem seat_rows {seats targets : List Seat} {n : Nat} {subject body : String}
    {reply : Option String} {now : Utc} (h : s.mail.WF P s.rooms)
    (hd : s.mail.discussion? c.self.scope d.discussionId = some d)
    (hp : discussionParticipants P c.self.scope d.discussionId s = .ok seats)
    (hsub : ∀ seat ∈ targets, seat ∈ seats)
    (hi : Inserted P c (targets.map (fun seat => seat.draft d n subject body reply now)) rows
      s.mail m) : ∀ x ∈ rows, SeatRow c d n reply s.mail x := by
  intro x hx
  rw [hi.rows_eq] at hx
  obtain ⟨draft, hdr, k, hk, -, rfl⟩ := mem_draftRows hx
  obtain ⟨seat, hs, rfl⟩ := List.mem_map.mp hdr
  obtain ⟨y, hy, hpart⟩ := participants_seat hp (hsub seat hs)
  have hroom := ((h.discussed_at hd).prompt y (mem_atRound.mp hy).1).room
  exact ⟨rfl, rfl, rfl, rfl, rfl, rfl, rfl, hk, y, hy, hpart.binding hroom _ _ _ _ _ _ _⟩

theorem FreeStep.outcome_targets {f : FreeStep} {scope : String}
    (h : (f.outcome scope d m).1 = .active) : f.targets ≠ [] := by
  intro ht
  simp only [FreeStep.outcome] at h
  split at h
  · rename_i hv
    simp only [FreeStep.verdict, ht] at hv
    split_ifs at hv
  · exact absurd h ‹_›

theorem freeStep_targets {participants : List Seat} {response : MessageRow} {scope : String} :
    ∀ seat ∈ (freeStep P scope m d participants response).targets, seat ∈ participants :=
  fun _ hs => (List.mem_filter.mp hs).1

theorem freeTrigger_some {scope id : String} {x : MessageRow}
    (h : m.freeTrigger scope id = some x) :
    x ∈ m.ofDiscussion scope id .response ∧ m.hasFollowup scope id x = false :=
  ⟨List.mem_of_find?_eq_some h, by simpa using List.find?_some h⟩

theorem Mail.WF.keyed {r : Rooms} {d' : DiscussionRow} (h : m.WF P r)
    (hd : m.discussion? c.self.scope d.discussionId = some d) (hk : d'.key = d.key) :
    d'.scope = c.self.scope ∧ d'.discussionId = d.discussionId ∧
      r.Houses d'.scope d.roomId := by
  obtain ⟨hmem, hkey⟩ := h.lookup_discussion.mp hd
  have hh := h.housed d hmem
  simp only [DiscussionRow.key, Prod.mk.injEq, and_true] at hk hkey
  rw [hkey] at hk hh
  exact ⟨hk.1, hk.2, hk.1 ▸ hh⟩

theorem Mail.WF.rewrite {r : Rooms} {d' : DiscussionRow} (h : m.WF P r)
    (hd : m.discussion? c.self.scope d.discussionId = some d) (hk : d'.key = d.key)
    (hroom : d'.roomId = d.roomId) (hc : d'.currentRound = d.currentRound)
    (hp : d'.processedRound = d.processedRound ∨ d'.processedRound = d.currentRound) :
    (m.putDiscussion d').WF P r := by
  obtain ⟨h1, h2, h3⟩ := h.keyed hd hk
  refine h.write c (hroom ▸ h3) ?_
  rw [h1, h2]
  exact (h.discussed_at hd).reframe hroom hc hp

theorem Mail.WF.append {r : Rooms} {d' : DiscussionRow} {n : Nat} {reply : Option String}
    {ds : List Draft} {m₁ : Mail} (h : m.WF P r)
    (hd : m.discussion? c.self.scope d.discussionId = some d) (hk : d'.key = d.key)
    (hroom : d'.roomId = d.roomId) (hi : Inserted P c ds rows m m₁)
    (hrows : ∀ x ∈ rows, SeatRow c d n reply m x)
    (hok : DiscussionOk d' (m.ofDiscussion c.self.scope d.discussionId .prompt ++ rows)
      (m.ofDiscussion c.self.scope d.discussionId .response)) : (m₁.putDiscussion d').WF P r := by
  obtain ⟨h1, h2, h3⟩ := h.keyed hd hk
  refine h.put hi (hroom ▸ h3) (fun x hx => ?_) ?_
  · rw [h1, h2]
    exact ⟨(hrows x hx).scope_eq, (hrows x hx).discussion_eq, (hrows x hx).role_eq⟩
  · rw [h1, h2]
    exact hok

theorem steps_wf {mode : Option RoomMode} {a : Option Advance} (h : s.mail.WF P s.rooms)
    (hd : s.mail.discussion? c.self.scope d.discussionId = some d)
    (hs : Steps P c mode d s s' a) : s'.mail.WF P s.rooms := by
  have hok := h.discussed_at hd
  cases hs with
  | idle hs => rwa [hs]
  | freeUnavailable _ _ hb =>
    rw [hb.mail_eq]
    exact (h.cancel _ _ _ _).rewrite hd rfl rfl rfl (.inl rfl)
  | freeFailed _ _ _ hs =>
    rw [hs]
    exact h.rewrite hd rfl rfl rfl (.inl rfl)
  | @free participants response rows f m _ hp _ ht hf hi hs =>
    rw [hs]
    by_cases ha : (f.outcome c.self.scope d s.mail).1 = .active
    · rw [FreeStep.drafts, if_pos ha] at hi
      have hsub : ∀ seat ∈ f.targets, seat ∈ participants := hf ▸ freeStep_targets
      have hrows := seat_rows h hd hp hsub hi
      have hnext : f.nextEvent = d.currentRound + 1 := by rw [hf]; rfl
      have hresp : f.response = response := by rw [hf]; rfl
      refine h.append hd rfl rfl hi hrows (hok.fanOut rfl hnext (.inl hnext)
        (fun x hx => ⟨(hrows x hx).room_eq, hnext ▸ (hrows x hx).round_eq, (hrows x hx).seated⟩)
        fun x hx t hxt => ?_)
      obtain ⟨hmem, -⟩ := freeTrigger_some ht
      rw [(hrows x hx).reply_eq, hresp] at hxt
      exact ⟨response, hmem, Option.some.inj hxt,
        (h.bound _ (mem_ofDiscussion.mp hmem).1).trans_lt (hrows x hx).after⟩
    · rw [FreeStep.drafts, if_neg ha] at hi
      obtain rfl : rows = [] := hi.rows_eq
      have hnext : f.nextEvent = d.currentRound + 1 := by rw [hf]; rfl
      have hnone : ∀ x ∈ ([] : List MessageRow), SeatRow c d 0 none s.mail x := by simp
      refine h.append hd rfl rfl hi hnone ?_
      rw [List.append_nil]
      exact hok.skip rfl hnext hnext
  | roundUnavailable _ _ _ hb =>
    rw [hb.mail_eq]
    exact (h.cancel _ _ _ _).rewrite hd rfl rfl rfl (.inr rfl)
  | @round participants rows r m _ _ hp hr hc _ hi hs =>
    rw [hs]
    by_cases ha : (r.outcome d).1 = .active
    · rw [RoundStep.drafts, if_pos ha] at hi
      have hpart : r.participants = participants := by rw [hr]; rfl
      have hrows := seat_rows h hd hp (fun seat hs => hpart ▸ hs) hi
      have hlen : rows.length = (atRound 1
          (s.mail.ofDiscussion c.self.scope d.discussionId .prompt)).length := by
        rw [hi.rows_eq, draftRows_length, roundDrafts, List.length_map, hpart, participants_length hp]
      have hnext : (r.after rows.length d).currentRound = d.currentRound + 1 := if_pos ha
      exact h.append hd rfl rfl hi hrows (hok.fanOut rfl hnext
        (.inr ⟨rfl, hlen, fun x hx => (hrows x hx).reply_eq⟩)
        (fun x hx => ⟨(hrows x hx).room_eq, (hrows x hx).round_eq, (hrows x hx).seated⟩)
        fun x hx t hxt => by simp [(hrows x hx).reply_eq] at hxt)
    · rw [RoundStep.drafts, if_neg ha] at hi
      obtain rfl : rows = [] := hi.rows_eq
      have hnext : (r.after ([] : List MessageRow).length d).currentRound = d.currentRound :=
        if_neg ha
      have hnone : ∀ x ∈ ([] : List MessageRow), SeatRow c d 0 none s.mail x := by simp
      refine h.append hd rfl rfl hi hnone ?_
      rw [List.append_nil]
      exact hok.reframe rfl hnext (.inr rfl)

theorem discussion?_other {d' : DiscussionRow} {scope id : String} (hk : d'.key ≠ (scope, id)) :
    (m.putDiscussion d').discussion? scope id = m.discussion? scope id := by
  rw [Mail.discussion?_putDiscussion, if_neg hk]

theorem Inserted.discussion? {ds : List Draft} {m₁ : Mail} (hi : Inserted P c ds rows m m₁)
    (scope id : String) : m₁.discussion? scope id = m.discussion? scope id := by
  rw [hi.mail_eq]
  rfl

theorem steps_discussion {mode : Option RoomMode} {a : Option Advance} {scope id : String}
    (hs : Steps P c mode d s s' a) (hk : d.key ≠ (scope, id)) :
    s'.mail.discussion? scope id = s.mail.discussion? scope id := by
  cases hs with
  | idle hs => rw [hs]
  | freeUnavailable _ _ hb =>
    rw [hb.mail_eq, discussion?_other (by exact hk)]
    rfl
  | freeFailed _ _ _ hs => rw [hs, discussion?_other (by exact hk)]
  | free f m _ _ _ _ _ hi hs => rw [hs, discussion?_other (by exact hk), hi.discussion?]
  | roundUnavailable _ _ _ hb =>
    rw [hb.mail_eq, discussion?_other (by exact hk)]
    rfl
  | round r m _ _ _ _ _ _ hi hs => rw [hs, discussion?_other (by exact hk), hi.discussion?]

-- the rows of one scope that a transaction still has to go through
structure Pending (scope : String) (ds : List DiscussionRow) (m : Mail) : Prop where
  current : ∀ d ∈ ds, m.discussion? scope d.discussionId = some d
  distinct : (ds.map DiscussionRow.discussionId).Nodup

theorem Pending.key {scope : String} {ds : List DiscussionRow} (h : Pending scope ds m)
    (hd : d ∈ ds) : d.key = (scope, d.discussionId) := lookup_key (h.current d hd)

theorem Pending.tail {scope : String} {ds : List DiscussionRow} {m' : Mail}
    (h : Pending scope (d :: ds) m)
    (hm : ∀ id, id ≠ d.discussionId → m'.discussion? scope id = m.discussion? scope id) :
    Pending scope ds m' := by
  obtain ⟨hn, hd⟩ := List.nodup_cons.mp h.distinct
  refine ⟨fun e he => ?_, hd⟩
  rw [hm _ fun hid => hn (hid ▸ List.mem_map_of_mem he)]
  exact h.current e (List.mem_cons_of_mem _ he)

theorem Pending.of_filter {r : Rooms} {scope : String} {p : DiscussionRow → Bool}
    (h : m.WF P r) (hp : ∀ d, p d = true → d.scope = scope) :
    Pending scope (m.discussions.filter p) m := by
  have hkey : ∀ d ∈ m.discussions.filter p, d.key = (scope, d.discussionId) := by
    intro d hd
    rw [DiscussionRow.key, hp d (List.mem_filter.mp hd).2]
  constructor
  · intro d hd
    exact h.lookup_discussion.mpr ⟨(List.mem_filter.mp hd).1, hkey d hd⟩
  · have hn := h.discussionKeys.sublist ((List.filter_sublist (p := p)).map DiscussionRow.key)
    rw [List.map_congr_left hkey] at hn
    have hmap : (((m.discussions.filter p).map DiscussionRow.discussionId).map
        (fun t => (scope, t))).Nodup := by rwa [List.map_map]
    exact hmap.of_map _

theorem Pending.perm {scope : String} {ds es : List DiscussionRow} (h : Pending scope ds m)
    (hp : es.Perm ds) : Pending scope es m :=
  ⟨fun d hd => h.current d (hp.mem_iff.mp hd), (hp.map _).nodup_iff.mpr h.distinct⟩

theorem Pending.take {scope : String} {ds : List DiscussionRow} (h : Pending scope ds m)
    (n : Nat) : Pending scope (ds.take n) m :=
  ⟨fun d hd => h.current d (List.mem_of_mem_take hd),
    h.distinct.sublist ((List.take_sublist n ds).map _)⟩

theorem selected_pending {a : AdvanceArgs} {ds : List DiscussionRow} (h : s.mail.WF P s.rooms)
    (hs : selectDiscussions c.self a s = .ok ds) : Pending c.self.scope ds s.mail := by
  obtain ⟨roomId, limit, -, -, rfl⟩ := selectDiscussions_ok hs
  refine Pending.take (Pending.perm (Pending.of_filter h fun d hd => ?_)
    (List.perm_insertionSort _ _)) limit
  simp only [advanceWhere, Bool.and_eq_true, decide_eq_true_eq] at hd
  exact hd.1.1.1

theorem openDiscussions_pending {r : Rooms} {scope roomId : String} (h : m.WF P r) :
    Pending scope (openDiscussions scope roomId m) m :=
  Pending.of_filter h fun d hd => by
    simp only [decide_eq_true_eq] at hd
    exact hd.1

theorem sweep_wf {ds : List DiscussionRow} {as : List Advance} (h : s.mail.WF P s.rooms)
    (hp : Pending c.self.scope ds s.mail) (hs : Sweep P c ds s s' as) :
    s'.mail.WF P s.rooms := by
  induction hs with
  | nil => exact h
  | @cons d ds s s₁ s' a as hstep _ ih =>
    have hd := hp.current d List.mem_cons_self
    have h₁ := steps_wf h hd hstep
    rw [← hstep.rooms_eq]
    refine ih (hstep.rooms_eq ▸ h₁) (hp.tail fun id hid => steps_discussion hstep ?_)
    rw [hp.key List.mem_cons_self]
    exact fun hk => hid (Prod.mk.inj hk).2.symm

theorem fold_wf {r : Rooms} {scope : String} {f : Mail → DiscussionRow → Mail}
    (hf : ∀ m d, m.WF P r → m.discussion? scope d.discussionId = some d → (f m d).WF P r ∧
      ∀ id, id ≠ d.discussionId → (f m d).discussion? scope id = m.discussion? scope id)
    {ds : List DiscussionRow} (h : m.WF P r) (hp : Pending scope ds m) :
    (ds.foldl f m).WF P r := by
  induction ds generalizing m with
  | nil => exact h
  | cons d ds ih =>
    obtain ⟨h1, h2⟩ := hf m d h (hp.current d List.mem_cons_self)
    exact ih h1 (hp.tail h2)

theorem supersede_wf {r : Rooms} {ds : List DiscussionRow} (h : m.WF P r)
    (hp : Pending c.self.scope ds m) : (supersedeMail P c ds m).WF P r := by
  refine fold_wf (fun m d h hd => ?_) h hp
  refine ⟨(h.cancel _ _ _ _).rewrite hd rfl rfl rfl (.inl rfl), fun id hid => ?_⟩
  rw [discussion?_other (by exact fun hn => hid (Prod.mk.inj hn).2.symm)]
  rfl

theorem stopForPolicy_wf {r : Rooms} {now : Utc} {ds : List DiscussionRow} (h : m.WF P r)
    (hp : Pending c.self.scope ds m) : (stopForPolicy P now ds m).WF P r := by
  refine fold_wf (fun m d h hd => ?_) h hp
  refine ⟨h.rewrite hd rfl rfl rfl (.inl rfl), fun id hid => ?_⟩
  exact discussion?_other fun hn => hid (Prod.mk.inj hn).2.symm

theorem controls_wf {m : Mail} {updated : DiscussionRow} {now : Utc} {extra : Nat}
    {action : ControlAction} (h : s.mail.WF P s.rooms)
    (hd : s.mail.discussion? c.self.scope d.discussionId = some d)
    (hc : Controls P c extra d s action m updated) :
    (m.putDiscussion (sealDiscussion P now updated)).WF P s.rooms := by
  cases hc with
  | pause _ => exact h.rewrite hd rfl rfl rfl (.inl rfl)
  | resume _ => exact h.rewrite hd rfl rfl rfl (.inl rfl)
  | stop _ => exact (h.cancel _ _ _ _).rewrite hd rfl rfl rfl (.inl rfl)
  | reopen _ _ => exact h.rewrite hd rfl rfl rfl (.inl rfl)
  | @extend seats rows m _ hx =>
    have hrows := seat_rows h hd hx.participants (fun _ hs => hs) hx.inserted
    have hlen : rows.length = (atRound 1
        (s.mail.ofDiscussion c.self.scope d.discussionId .prompt)).length := by
      rw [hx.inserted.rows_eq, draftRows_length, roundDrafts, List.length_map,
        participants_length hx.participants]
    have hok := h.discussed_at hd
    have hproc : d.processedRound = d.currentRound := le_antisymm hok.processed hx.processed
    exact h.append hd rfl rfl hx.inserted hrows (hok.fanOut rfl rfl
      (.inr ⟨hproc, hlen, fun x hx => (hrows x hx).reply_eq⟩)
      (fun x hx => ⟨(hrows x hx).room_eq, (hrows x hx).round_eq, (hrows x hx).seated⟩)
      fun x hx t hxt => by simp [(hrows x hx).reply_eq] at hxt)

end Steps

theorem star_unsafe : isIdentifier "*" = false := by decide

theorem Sources.recipient {P : Platform} {r : Rooms} {m : Mail} {d : DispatchRow} {x : MessageRow}
    (h : m.WF P r) (hs : Sources m d x) {id : String} (hid : x.discussionId = some id) :
    x ∈ m.ofDiscussion x.scope id .prompt ∧ x.recipient = d.agentId ∧
      ∃ e, m.discussion? x.scope id = some e := by
  obtain ⟨hx, -, -⟩ := (message?_iff h.ids).mp hs.source
  obtain ⟨hd, hrole⟩ := h.linked x hx id hid
  obtain ⟨e, he⟩ := Option.isSome_iff_exists.mp hd
  have hok := h.discussed_at he
  have hprompt : x.discussionRole = some .prompt := by
    obtain ⟨role, hr⟩ := Option.isSome_iff_exists.mp hrole
    cases role with
    | prompt => exact hr
    | response =>
      obtain ⟨y, -, hy⟩ := hok.response x (mem_ofDiscussion.mpr ⟨hx, rfl, hid, hr⟩)
      rcases hs.claimable with hn | hn
      · exact absurd hy.reply_eq (by simp [hn])
      · simp [MessageRow.isPrompt, hr] at hn
  have hmem := mem_ofDiscussion.mpr ⟨hx, rfl, hid, hprompt⟩
  refine ⟨hmem, ?_, e, he⟩
  have hrec := (hok.prompt x hmem).recipient
  have hto := hs.addressed
  simp only [addressedTo, Bool.or_eq_true, decide_eq_true_eq] at hto
  rcases hto with hto | hto
  · exact hto
  · rw [hto, star_unsafe] at hrec
    cases hrec

structure ReplyRow (c : Ctx) (source : MessageRow) (m : Mail) (r : MessageRow) : Prop where
  scope_eq : r.scope = c.self.scope
  reply_eq : r.replyTo = some source.messageId
  sender_eq : r.sender = c.self.agentId
  discussion_eq : r.discussionId = source.discussionId
  role_eq : ∀ id ∈ source.discussionId, r.discussionRole = some .response
  after : m.lastSequence < r.sequence

theorem Inserted.reply {P : Platform} {c : Ctx} {m m₁ : Mail} {source reply : MessageRow}
    {subject body : String}
    (hi : Inserted P c [replyDraft c source subject body] [reply] m m₁) :
    ReplyRow c source m reply := by
  have hr : reply ∈ draftRows P c m.lastSequence [replyDraft c source subject body] := by
    rw [← hi.rows_eq]
    exact List.mem_singleton_self _
  obtain ⟨d, hd, k, hk, -, rfl⟩ := mem_draftRows hr
  rw [List.mem_singleton.mp hd]
  refine ⟨rfl, rfl, rfl, ?_, fun id hid => ?_, hk⟩
  · cases hs : source.discussionId <;> simp [Draft.row, replyDraft, hs]
  · simp [Draft.row, replyDraft, Option.mem_def.mp hid]

theorem complete_wf {P : Platform} {c : Ctx} {r : Rooms} {m : Mail} {token subject body : String}
    {row : DispatchRow} {source reply : MessageRow} {now : Utc} {sha : Sha256} (h : m.WF P r)
    (hc : Completes P c token m row source reply subject body) (rs : ReceiptRow) :
    (((m.addMessages [reply]).ignoreReceipt rs).putDispatch
      (completedDispatch P now reply.messageId sha row)).WF P r := by
  have hi := hc.inserted
  have hrep := hi.reply
  obtain ⟨hrow, hkey⟩ := h.toBase.dispatch_mem.mp hc.holder.lookup_eq
  simp only [DispatchRow.key, Prod.mk.injEq] at hkey
  obtain ⟨hscope, hmsg, hagent⟩ := hkey
  obtain ⟨x, hx⟩ := h.dispatched row hrow
  obtain rfl : source = x := by
    have := hx.source
    rw [hscope, hmsg, hc.source_eq] at this
    exact Option.some.inj this
  have hm₁ : (m.addMessages [reply]).WF P r := by
    cases hid : source.discussionId with
    | none => exact h.plain hi (by simp [replyDraft, hid])
    | some id =>
      obtain ⟨hmem, hrec, e, he⟩ := hx.recipient h hid
      have hsource : source.scope = c.self.scope := ((message?_iff h.ids).mp hc.source_eq).2.1
      refine ⟨h.toBase.insert hi, h.discussionKeys, h.housed, fun y hy t ht => ?_, fun d hd => ?_⟩
      · rcases List.mem_append.mp hy with hy | hy
        · exact h.linked y hy t ht
        · obtain rfl := List.mem_singleton.mp hy
          rw [hrep.discussion_eq, hid] at ht
          obtain rfl := Option.some.inj ht
          rw [hrep.scope_eq, ← hsource, hrep.role_eq id hid]
          exact ⟨by rw [show (m.addMessages [y]).discussion? source.scope id = some e from he]; rfl,
            rfl⟩
      · have hadd : (m.addMessages [reply]).messages = m.messages ++ [reply] := rfl
        have hprompts : (m.addMessages [reply]).ofDiscussion d.scope d.discussionId .prompt =
            m.ofDiscussion d.scope d.discussionId .prompt := by
          refine ofDiscussion_other (show DiscussionRole.response ≠ .prompt by decide) hadd ?_
          intro y hy
          rw [List.mem_singleton.mp hy]
          exact hrep.role_eq id hid
        rw [hprompts]
        by_cases hk : d.scope = source.scope ∧ d.discussionId = id
        · have hresponses : (m.addMessages [reply]).ofDiscussion d.scope d.discussionId .response =
              m.ofDiscussion d.scope d.discussionId .response ++ [reply] := by
            refine ofDiscussion_add hadd fun y hy => ?_
            rw [List.mem_singleton.mp hy, hk.1, hk.2]
            exact ⟨hrep.scope_eq.trans hsource.symm, hrep.discussion_eq.trans hid,
              hrep.role_eq id hid⟩
          rw [hresponses]
          refine (h.discussed d hd).answer (by rw [hk.1, hk.2]; exact hmem) ⟨hrep.reply_eq, ?_, ?_⟩
          · rw [hrep.sender_eq, hrec, hagent]
          · exact (h.bound _ (mem_ofDiscussion.mp hmem).1).trans_lt hrep.after
        · have hresponses : (m.addMessages [reply]).ofDiscussion d.scope d.discussionId .response =
              m.ofDiscussion d.scope d.discussionId .response := by
            refine ofDiscussion_apart hadd fun y hy hn => hk ?_
            rw [List.mem_singleton.mp hy, hrep.scope_eq, hrep.discussion_eq, hid] at hn
            exact ⟨by rw [hsource, hn.1], (Option.some.inj hn.2).symm⟩
          rw [hresponses]
          exact h.discussed d hd
  refine (hm₁.ignoreReceipt rs).putDispatch (x := source) ?_
  have hgrow : ((m.addMessages [reply]).ignoreReceipt rs).messages = m.messages ++ [reply] := by
    rw [Mail.ignoreReceipt_messages]
    rfl
  refine ⟨message?_grow hgrow hx.source, hx.addressed, hx.claimable, fun _ => ⟨reply, rfl, ?_, ?_,
    ?_, hrep.reply_eq, ?_, hrep.discussion_eq, hrep.role_eq⟩⟩
  · rw [hgrow]
    simp
  · exact hrep.scope_eq.trans hscope.symm
  · exact (h.bound _ ((message?_iff h.ids).mp hx.source).1).trans_lt hrep.after
  · exact hrep.sender_eq.trans hagent.symm

section Calls
variable {P : Platform} {c : Ctx} {s s' : Store}

structure OpeningRow (c : Ctx) (p : Post) (r : Rooms) (x : MessageRow) : Prop where
  scope_eq : x.scope = c.self.scope
  discussion_eq : x.discussionId = some c.uuid.text
  role_eq : x.discussionRole = some .prompt
  room_eq : x.roomId = p.roomId
  round_eq : x.discussionRound = some 1
  reply_eq : x.replyTo = none
  sender_eq : x.sender = c.self.agentId
  seated : ∃ m ∈ r.memberships, m.agentId = x.recipient ∧ m.agentId ≠ c.self.agentId

theorem opening_rows {p : Post} {policy : PolicyRow} {seats : List Seat} {rows : List MessageRow}
    {m : Mail} (ho : Opens P c p policy seats rows m s s') :
    rows.length = seats.length ∧ rows ≠ [] ∧ ∀ x ∈ rows, OpeningRow c p s.rooms x := by
  obtain ⟨hne, hseats⟩ := routedRoomSeats_ok ho.seats_eq
  have hlen : rows.length = seats.length := by
    rw [ho.inserted.rows_eq, draftRows_length, openingDrafts, List.length_map]
  refine ⟨hlen, fun hn => hne ?_, fun x hx => ?_⟩
  · rw [hn] at hlen
    exact List.length_eq_zero_iff.mp hlen.symm
  · rw [ho.inserted.rows_eq] at hx
    obtain ⟨draft, hdr, k, -, -, rfl⟩ := mem_draftRows hx
    obtain ⟨seat, hs, rfl⟩ := List.mem_map.mp hdr
    obtain ⟨member, hm, -, -, -, hx, hp⟩ := hseats seat hs
    exact ⟨rfl, rfl, rfl, rfl, rfl, rfl, rfl, member, hm, hp.agent_eq.symm, fun hn => hx (by
      rw [hn]
      simp)⟩

theorem open_wf {p : Post} {policy : PolicyRow} {seats : List Seat} {rows : List MessageRow}
    {m : Mail} (h : s.mail.WF P s.rooms) (hr : s.rooms.WF)
    (ho : Opens P c p policy seats rows m s s') : s'.mail.WF P s.rooms := by
  obtain ⟨-, hne, hrow⟩ := opening_rows ho
  have hsup : (supersedeMail P c (openDiscussions c.self.scope p.roomId s.mail) s.mail).WF P
      s.rooms := supersede_wf h (openDiscussions_pending h)
  have hnone := hsup.absent ((ho.inserted.discussion? _ _).symm.trans ho.fresh)
  have hone : atRound 1 rows = rows := List.filter_eq_self.mpr fun x hx => by
    simpa using (hrow x hx).round_eq
  have hhouse : s.rooms.Houses c.self.scope p.roomId := ⟨ho.room_eq, by rw [ho.policy_eq]; rfl⟩
  have hok : DiscussionOk (newDiscussion P c p policy rows.length) rows [] := by
    refine ⟨Nat.zero_le _, le_refl _, le_refl _, by rwa [hone], fun x hx => ?_, by simp,
      fun x hx t ht => ?_, fun _ => ⟨rfl, fun x hx => ?_⟩⟩
    · obtain ⟨member, hm, he, -⟩ := (hrow x hx).seated
      exact ⟨(hrow x hx).room_eq, he ▸ hr.members member hm,
        ⟨1, (hrow x hx).round_eq, le_refl _, le_refl _⟩, x, by rwa [hone], rfl⟩
    · simp [(hrow x hx).reply_eq] at ht
    · exact (hrow x (mem_atRound.mp hx).1).reply_eq
  rw [ho.mail_eq]
  refine hsup.put ho.inserted hhouse
    (fun x hx => ⟨(hrow x hx).scope_eq, (hrow x hx).discussion_eq, (hrow x hx).role_eq⟩) ?_
  have hp := hnone .prompt
  have hq := hnone .response
  show DiscussionOk _ ((supersedeMail P c _ s.mail).ofDiscussion c.self.scope c.uuid.text .prompt ++
    rows) ((supersedeMail P c _ s.mail).ofDiscussion c.self.scope c.uuid.text .response)
  rw [hp, hq]
  exact hok

theorem claim_wf {q : ClaimRequest} {row : MessageRow} (h : s.mail.WF P s.rooms)
    (hc : Claimable P c q s row) :
    (s.mail.putDispatch (claimedDispatch P c q s.mail row)).WF P s.rooms := by
  have he := hc.eligible
  simp only [claimWhere, Bool.and_eq_true, Bool.or_eq_true, decide_eq_true_eq,
    Option.isNone_iff_eq_none] at he
  obtain ⟨⟨⟨⟨⟨⟨⟨⟨⟨hscope, hto⟩, -⟩, hreply⟩, -⟩, -⟩, -⟩, -⟩, -⟩, -⟩ := he
  exact h.putDispatch (x := row) ⟨(message?_iff h.ids).mpr ⟨hc.mem, hscope, rfl⟩, hto, hreply,
    nofun⟩

theorem Holder.sources {messageId token : String} {row d : DispatchRow}
    (h : s.mail.WF P s.rooms) (hh : Holder P c messageId token s.mail row) (hk : d.key = row.key)
    (hd : d.status ≠ .completed) : ∃ x, Sources s.mail d x := by
  obtain ⟨x, hx⟩ := h.dispatched row (lookup_mem hh.lookup_eq)
  exact ⟨x, hx.reset hk hd⟩

theorem reconcile_wf {a : ReconcileArgs} {xs : List Reconciled} (h : s.mail.WF P s.rooms)
    (hx : reconcileMessageDispatches P c a s = .ok (s', xs)) : s'.mail.WF P s.rooms := by
  obtain ⟨limit, attempts, os, -, -, -, -, -, hxs, hm, -⟩ := reconcileMessageDispatches_ok hx
  obtain ⟨hrows, hall⟩ := reconcileEach_ok hxs
  have hsource : ∀ x ∈ xs, Sources s.mail x.dispatch x.row := by
    intro x hx
    have hrow := List.mem_map_of_mem (f := Reconciled.row) hx
    rw [hrows] at hrow
    have hin := List.mem_filter.mp (List.mem_of_mem_take (List.mem_filter.mp hrow).1)
    have hw := hin.2
    simp only [reconcileWhere, Bool.and_eq_true, decide_eq_true_eq,
      Option.isNone_iff_eq_none] at hw
    obtain ⟨⟨⟨⟨⟨⟨⟨hscope, -⟩, -⟩, hreply⟩, -⟩, -⟩, -⟩, -⟩ := hw
    obtain ⟨code, -, hd⟩ := (hall x hx).error_eq
    rw [hd]
    exact ⟨(message?_iff h.ids).mpr ⟨hin.1, hscope, rfl⟩, by simp [addressedTo, reconciledDispatch,
      sealDispatch], .inl hreply, nofun⟩
  rw [hm, putReconciled]
  generalize s.mail = m at h hsource
  clear hm hrows hall hxs hx
  induction xs generalizing m with
  | nil => exact h
  | cons x xs ih =>
    have hput := h.putDispatch (hsource x List.mem_cons_self)
    exact ih _ hput fun y hy => (hsource y (List.mem_cons_of_mem _ hy)).congr rfl

theorem Mail.WF.mono {r r' : Rooms} {m : Mail} (h : m.WF P r)
    (hh : ∀ scope roomId, r.Houses scope roomId → r'.Houses scope roomId) : m.WF P r' :=
  ⟨h.toBase, h.discussionKeys, fun d hd => hh _ _ (h.housed d hd), h.linked, h.discussed⟩

theorem perform_mail_wf {call : Call} {r : Reply} (h : s.mail.WF P s.rooms) (hr : s.rooms.WF)
    (hp : perform P c s call = .ok (s', r)) : s'.mail.WF P s.rooms := by
  have same {m' : Mail} (hm : m' = s.mail) : m'.WF P s.rooms := hm ▸ h
  cases call <;> simp only [perform] at hp
  case openScope =>
    simp only [pure_eq_ok, Prod.mk.injEq] at hp
    obtain ⟨rfl, rfl⟩ := hp
    exact same (initDb_mail _ _ _)
  case createRoom a =>
    obtain ⟨x, hx, rfl⟩ := replyWith_ok hp
    exact same (createRoom_ok hx).1
  case joinRoom a =>
    obtain ⟨x, hx, rfl⟩ := replyWith_ok hp
    exact same (joinRoom_ok hx).1
  case leaveRoom a =>
    obtain ⟨x, hx, rfl⟩ := replyWith_ok hp
    exact same (leaveRoom_ok hx).1
  case setRoomAutomation a =>
    obtain ⟨x, hx, rfl⟩ := replyWith_ok hp
    obtain ⟨_, _, _, _, _, _, _, _, hm⟩ := setRoomAutomation_ok hx
    rw [hm]
    split
    · exact h
    · exact stopForPolicy_wf h (openDiscussions_pending h)
  case upsertRouteProfile a =>
    obtain ⟨x, hx, rfl⟩ := replyWith_ok hp
    exact same (upsertRouteProfile_ok hx).1
  case sendMessage a =>
    obtain ⟨x, hx, rfl⟩ := replyWith_ok hp
    obtain ⟨d, hd, _, hi, _⟩ := sendMessage_ok hx
    exact h.plain hi (by simpa using hd)
  case sendRoomFanout a =>
    obtain ⟨x, hx, rfl⟩ := replyWith_ok hp
    obtain ⟨ds, hds, hi, _⟩ := sendRoomFanout_ok hx
    exact h.plain hi fun d hd => (hds d hd).1
  case postRoomMessage a =>
    obtain ⟨x, hx, rfl⟩ := replyWith_ok hp
    rcases postRoomMessage_ok hx with ⟨ds, hds, hi, _⟩ | ⟨p, policy, seats, m, ho⟩
    · exact h.plain hi fun d hd => (hds d hd).1
    · exact open_wf h hr ho
  case claim a =>
    obtain ⟨x, hx, rfl⟩ := replyWith_ok hp
    rcases claimMessageDispatch_ok hx with ⟨rfl, rfl⟩ | ⟨q, row, -, hc, hm, -, -⟩
    · exact h
    · rw [hm]
      exact claim_wf h hc
  case renew a =>
    obtain ⟨x, hx, rfl⟩ := replyWith_ok hp
    obtain ⟨row, seconds, hh, hs, rfl, hm, -⟩ := renewMessageDispatch_ok hx
    rw [hm]
    obtain ⟨y, hy⟩ := hh.sources h (d := renewedDispatch P c.clock.later seconds row) rfl (by
      show row.status ≠ .completed
      simp [hs])
    exact h.putDispatch hy
  case fail a =>
    obtain ⟨x, hx, rfl⟩ := replyWith_ok hp
    obtain ⟨code, row, notBefore, hh, hs, rfl, -, hm⟩ := failMessageDispatch_ok hx
    obtain ⟨y, hy⟩ := hh.sources h
      (d := failedDispatch P (utcNow c.clock.locked) a.retryable code row) rfl (by
        cases hr : a.retryable <;> simp [failedDispatch])
    rw [hm]
    split
    · exact (h.quiet (h.toBase.addSchedule rfl) rfl rfl).putDispatch (hy.congr rfl)
    · exact h.putDispatch hy
  case recordTrusted a =>
    obtain ⟨x, hx, rfl⟩ := replyWith_ok hp
    exact same (recordTrustedInferenceReceipt_ok hx).1
  case complete a =>
    obtain ⟨x, hx, rfl⟩ := replyWith_ok hp
    rcases completeMessageDispatch_ok hx with
      ⟨-, rfl, -⟩ | ⟨row, source, reply, subject, body, sha, -, hc, rfl, -, hm⟩
    · exact h
    · rw [hm]
      exact complete_wf h hc _
  case ack a =>
    obtain ⟨x, hx, rfl⟩ := replyWith_ok hp
    obtain ⟨_, _, _, _, _, hm⟩ := ackMessage_ok hx
    rw [hm]
    exact h.ignoreReceipt _
  case advance a =>
    obtain ⟨x, hx, rfl⟩ := replyWith_ok hp
    obtain ⟨ds, hds, hw⟩ := advanceDiscussions_ok hx
    exact sweep_wf h (selected_pending h hds) hw
  case control a =>
    obtain ⟨x, hx, rfl⟩ := replyWith_ok hp
    obtain ⟨_, d, updated, m, -, -, -, hd, hc, -, hm⟩ := controlDiscussion_ok hx
    rw [hm]
    exact controls_wf h hd hc
  case reconcile a =>
    obtain ⟨x, hx, rfl⟩ := replyWith_ok hp
    exact reconcile_wf h hx

-- what a call leaves of the rooms: nothing is archived, removed or renamed
structure RoomsGrow (r r' : Rooms) : Prop where
  wf : r.WF → r'.WF
  houses : ∀ scope roomId, r.Houses scope roomId → r'.Houses scope roomId

theorem RoomsGrow.refl (r : Rooms) : RoomsGrow r r := ⟨id, fun _ _ => id⟩

theorem RoomsGrow.trans {r r₁ r₂ : Rooms} (h : RoomsGrow r r₁) (k : RoomsGrow r₁ r₂) :
    RoomsGrow r r₂ := ⟨fun hw => k.wf (h.wf hw), fun _ _ hh => k.houses _ _ (h.houses _ _ hh)⟩

theorem seated_grow {scope roomId agentId : String} {route : Option String}
    {status : MembershipStatus} {r r' : Rooms} {m : MembershipRow}
    (hs : Seated scope roomId agentId route status r r' m) (ha : isIdentifier agentId = true) :
    RoomsGrow r r' := by
  obtain ⟨roles, rfl⟩ := hs.rooms_eq
  refine ⟨fun h => ⟨fun x hx => ?_, h.live, h.profiles⟩, fun _ _ h => h⟩
  rcases mem_upsert hx with rfl | hx
  · have hk := hs.key_eq
    simp only [MembershipRow.key, Prod.mk.injEq] at hk
    rw [hk.2.2]
    exact ha
  · exact h.members x hx

theorem isSome_append {α κ : Type} [DecidableEq κ] {key : α → κ} {k : κ} {xs ys : List α}
    (h : (lookup key k xs).isSome = true) : (lookup key k (xs ++ ys)).isSome = true := by
  rw [lookup_append, Option.isSome_or, h]
  rfl

theorem isSome_extend {α κ : Type} [DecidableEq κ] {key : α → κ} {k : κ} {xs ys : List α}
    (b : Bool) (h : (lookup key k xs).isSome = true) :
    (lookup key k (if b = true then xs else xs ++ ys)).isSome = true := by
  cases b with
  | true => exact h
  | false => exact isSome_append h

theorem lobby_grow : RoomsGrow s.rooms (ensureLobby P c s).rooms := by
  simp only [ensureLobby, Store.withRooms_rooms]
  refine ⟨fun h => ⟨h.members, fun x hx => ?_, h.profiles⟩, fun scope roomId h => ⟨?_, ?_⟩⟩
  · simp only at hx
    split at hx
    · exact h.live x hx
    · rcases List.mem_append.mp hx with hx | hx
      · exact h.live x hx
      · rw [List.mem_singleton.mp hx]
        rfl
  · exact isSome_extend _ h.1
  · exact isSome_extend _ h.2

def Call.furnishes : Call → Bool
  | .openScope | .createRoom _ | .joinRoom _ | .leaveRoom _ | .setRoomAutomation _
  | .upsertRouteProfile _ => true
  | _ => false

theorem perform_rooms_eq {call : Call} {r : Reply} (hc : call.furnishes = false)
    (hp : perform P c s call = .ok (s', r)) : s'.rooms = s.rooms := by
  cases call <;> first
    | exact absurd hc.symm Bool.false_ne_true
    | simp only [perform] at hp
  case sendMessage a =>
    obtain ⟨x, hx, rfl⟩ := replyWith_ok hp
    obtain ⟨d, -, -, -, hm⟩ := sendMessage_ok hx
    exact hm
  case sendRoomFanout a =>
    obtain ⟨x, hx, rfl⟩ := replyWith_ok hp
    obtain ⟨ds, -, -, hm⟩ := sendRoomFanout_ok hx
    exact hm
  case postRoomMessage a =>
    obtain ⟨x, hx, rfl⟩ := replyWith_ok hp
    rcases postRoomMessage_ok hx with ⟨ds, -, -, hm⟩ | ⟨p, policy, seats, m, ho⟩
    · exact hm
    · exact ho.rooms_eq
  case claim a =>
    obtain ⟨x, hx, rfl⟩ := replyWith_ok hp
    rcases claimMessageDispatch_ok hx with ⟨rfl, rfl⟩ | ⟨q, row, -, -, -, hm, -⟩
    · rfl
    · exact hm
  case renew a =>
    obtain ⟨x, hx, rfl⟩ := replyWith_ok hp
    obtain ⟨row, seconds, -, -, -, -, hm⟩ := renewMessageDispatch_ok hx
    exact hm
  case fail a =>
    obtain ⟨x, hx, rfl⟩ := replyWith_ok hp
    obtain ⟨code, row, notBefore, -, -, -, hm, -⟩ := failMessageDispatch_ok hx
    exact hm
  case recordTrusted a =>
    obtain ⟨x, hx, rfl⟩ := replyWith_ok hp
    exact (recordTrustedInferenceReceipt_ok hx).2
  case complete a =>
    obtain ⟨x, hx, rfl⟩ := replyWith_ok hp
    rcases completeMessageDispatch_ok hx with
      ⟨-, rfl, -⟩ | ⟨row, source, reply, subject, body, sha, -, -, -, hm, -⟩
    · rfl
    · exact hm
  case ack a =>
    obtain ⟨x, hx, rfl⟩ := replyWith_ok hp
    obtain ⟨_, _, _, _, hm, _⟩ := ackMessage_ok hx
    exact hm
  case advance a =>
    obtain ⟨x, hx, rfl⟩ := replyWith_ok hp
    obtain ⟨ds, -, hw⟩ := advanceDiscussions_ok hx
    exact hw.rooms_eq
  case control a =>
    obtain ⟨x, hx, rfl⟩ := replyWith_ok hp
    obtain ⟨_, d, updated, m, -, -, -, -, -, hm, -⟩ := controlDiscussion_ok hx
    exact hm
  case reconcile a =>
    obtain ⟨x, hx, rfl⟩ := replyWith_ok hp
    obtain ⟨limit, attempts, os, -, -, -, -, -, -, -, hm⟩ := reconcileMessageDispatches_ok hx
    exact hm

theorem perform_rooms {call : Call} {r : Reply} (hp : perform P c s call = .ok (s', r)) :
    RoomsGrow s.rooms s'.rooms := by
  have same (hm : s'.rooms = s.rooms) : RoomsGrow s.rooms s'.rooms := hm ▸ .refl _
  cases hc : call.furnishes with
  | false => exact same (perform_rooms_eq hc hp)
  | true => ?_
  cases call <;> first
    | exact absurd hc Bool.false_ne_true
    | simp only [perform] at hp
  case openScope =>
    simp only [pure_eq_ok, Prod.mk.injEq] at hp
    obtain ⟨rfl, rfl⟩ := hp
    have hfill : RoomsGrow s.rooms (s.rooms.backfill P) :=
      ⟨fun h => ⟨h.members, h.live, h.profiles⟩, fun _ _ => id⟩
    exact hfill.trans (lobby_grow (s := s.withRooms (s.rooms.backfill P)))
  case createRoom a =>
    obtain ⟨x, hx, rfl⟩ := replyWith_ok hp
    obtain ⟨-, -, name, now, m, roles, hrow, -, -, hk, -, hrooms⟩ := createRoom_ok hx
    rw [hrooms]
    simp only [MembershipRow.key, Prod.mk.injEq] at hk
    refine ⟨fun h => ⟨fun y hy => ?_, fun y hy => ?_, h.profiles⟩, fun scope roomId h =>
      ⟨isSome_append h.1, isSome_append h.2⟩⟩
    · rcases mem_upsert hy with rfl | hy
      · rw [hk.2.2]
        exact c.self.agentId_safe
      · exact h.members y hy
    · rcases List.mem_append.mp hy with hy | hy
      · exact h.live y hy
      · rw [List.mem_singleton.mp hy, hrow]
        rfl
  case joinRoom a =>
    obtain ⟨x, hx, rfl⟩ := replyWith_ok hp
    obtain ⟨-, -, roomId, agentId, route, ha, -, -, hs⟩ := joinRoom_ok hx
    exact seated_grow hs ha
  case leaveRoom a =>
    obtain ⟨x, hx, rfl⟩ := replyWith_ok hp
    obtain ⟨-, -, roomId, agentId, route, ha, -, hs⟩ := leaveRoom_ok hx
    exact seated_grow hs ha
  case setRoomAutomation a =>
    obtain ⟨x, hx, rfl⟩ := replyWith_ok hp
    obtain ⟨_, _, _, _, _, _, _, hm, _⟩ := setRoomAutomation_ok hx
    rw [hm]
    refine ⟨fun h => ⟨h.members, h.live, h.profiles⟩, fun scope roomId h => ⟨h.1, ?_⟩⟩
    simp only [Rooms.policy?, lookup_upsert]
    split
    · rfl
    · exact h.2
  case upsertRouteProfile a =>
    obtain ⟨x, hx, rfl⟩ := replyWith_ok hp
    rcases (upsertRouteProfile_ok hx).2.2 with hm | ⟨-, -, -, hid, hprov, hreason, hm⟩
    · exact same hm
    · rw [hm]
      refine ⟨fun h => ⟨h.members, h.live, fun p hp => ?_⟩, fun _ _ h => h⟩
      rcases List.mem_append.mp hp with hp | hp
      · exact h.profiles p hp
      · rw [List.mem_singleton.mp hp]
        exact ⟨hid, hprov, hreason⟩

structure Store.WF (P : Platform) (s : Store) : Prop where
  mail : s.mail.WF P s.rooms
  rooms : s.rooms.WF

theorem perform_wf {call : Call} {r : Reply} (h : s.WF P)
    (hp : perform P c s call = .ok (s', r)) : s'.WF P := by
  have hg := perform_rooms hp
  exact ⟨(perform_mail_wf h.mail h.rooms hp).mono hg.houses, hg.wf h.rooms⟩

end Calls

theorem initial_wf {P : Platform} (connections : List ConnectionRow) :
    (Store.initial connections).WF P := by
  refine ⟨⟨⟨by simp [Store.initial, Mail.empty], ?_, ?_, ?_, ?_, ?_, ?_⟩, ?_, ?_, ?_, ?_⟩,
    ⟨?_, ?_, ?_⟩⟩ <;> simp [Store.initial, Mail.empty, Rooms.empty]

theorem attempt_wf {P : Platform} {w : World} (h : w.store.WF P) (i : Call × Ctx) :
    (attempt P w i).1.store.WF P := by
  cases hp : perform P i.2 w.store i.1 with
  | error e =>
    simp only [attempt, hp]
    exact h
  | ok x =>
    simp only [attempt, hp]
    exact perform_wf h hp

theorem reachable_wf {P : Platform} {w : World} (h : (mailbox P).Reachable w) : w.store.WF P := by
  refine h.invariant (fun w => w.store.WF P) ?_ fun w i hw _ => attempt_wf hw i
  rintro _ ⟨connections, now, rfl⟩
  exact initial_wf connections

end PeerBridge
