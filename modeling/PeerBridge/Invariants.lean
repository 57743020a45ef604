import PeerBridge.Mailbox

namespace PeerBridge
open Checked Rows

structure Binding where
  roomId : String
  recipient : String
  routeProfileId : Option String
  routeProfileSha256 : Option Sha256
  requestedProviderId : Option String
  requestedModelId : Option String
  requestedReasoningMode : Option String
  requestedRouteClass : Option RouteClass
  routeRequestSha256 : Option Sha256

def MessageRow.binding (x : MessageRow) : Binding :=
  { roomId := x.roomId, recipient := x.recipient, routeProfileId := x.routeProfileId,
    routeProfileSha256 := x.routeProfileSha256, requestedProviderId := x.requestedProviderId,
    requestedModelId := x.requestedModelId, requestedReasoningMode := x.requestedReasoningMode,
    requestedRouteClass := x.requestedRouteClass, routeRequestSha256 := x.routeRequestSha256 }

def atRound (n : Nat) (prompts : List MessageRow) : List MessageRow :=
  prompts.filter (fun x => x.discussionRound = some n)

structure Answers (m : Mail) (d : DispatchRow) (x r : MessageRow) : Prop where
  id_eq : d.replyMessageId = some r.messageId
  mem : r ∈ m.messages
  scope_eq : r.scope = d.scope
  after : x.sequence < r.sequence
  reply_eq : r.replyTo = some x.messageId
  sender_eq : r.sender = d.agentId
  discussion_eq : r.discussionId = x.discussionId
  role_eq : ∀ id ∈ x.discussionId, r.discussionRole = some .response

structure Sources (m : Mail) (d : DispatchRow) (x : MessageRow) : Prop where
  source : m.message? d.scope d.messageId = some x
  addressed : addressedTo x d.agentId = true
  claimable : x.replyTo = none ∨ x.isPrompt = true
  answered : d.status = .completed → ∃ r, Answers m d x r

structure PromptOk (d : DiscussionRow) (prompts : List MessageRow) (x : MessageRow) : Prop where
  room : x.roomId = d.roomId
  recipient : isIdentifier x.recipient = true
  round : ∃ n, x.discussionRound = some n ∧ 1 ≤ n ∧ n ≤ d.currentRound
  seated : ∃ y ∈ atRound 1 prompts, y.binding = x.binding

structure RepliesTo (x r : MessageRow) : Prop where
  reply_eq : r.replyTo = some x.messageId
  sender_eq : r.sender = x.recipient
  after : x.sequence < r.sequence

structure DiscussionOk (d : DiscussionRow) (prompts responses : List MessageRow) : Prop where
  processed : d.processedRound ≤ d.currentRound
  current : d.currentRound ≤ d.processedRound + 1
  started : 1 ≤ d.currentRound
  opening : atRound 1 prompts ≠ []
  prompt : ∀ x ∈ prompts, PromptOk d prompts x
  response : ∀ r ∈ responses, ∃ x ∈ prompts, RepliesTo x r
  followup : ∀ x ∈ prompts, ∀ t, x.replyTo = some t →
    ∃ r ∈ responses, r.messageId = t ∧ r.sequence < x.sequence
  pending : d.processedRound < d.currentRound →
    (atRound d.currentRound prompts).length = (atRound 1 prompts).length ∧
      ∀ x ∈ atRound d.currentRound prompts, x.replyTo = none

structure Mail.Base (P : Platform) (m : Mail) : Prop where
  ids : (m.messages.map MessageRow.messageId).Nodup
  hex : ∀ x ∈ m.messages, isUuidHex x.messageId = true
  sorted : m.messages.Pairwise (fun x y => x.sequence < y.sequence)
  bound : ∀ x ∈ m.messages, x.sequence ≤ m.lastSequence
  dispatchKeys : (m.dispatches.map DispatchRow.key).Nodup
  dispatched : ∀ d ∈ m.dispatches, ∃ x, Sources m d x
  sealed : ∀ r ∈ m.retrySchedules, (sealSchedule P r).scheduleSha256 = r.scheduleSha256

def Rooms.Houses (r : Rooms) (scope roomId : String) : Prop :=
  (r.room? scope roomId).isSome = true ∧ (r.policy? scope roomId).isSome = true

structure Mail.WF (P : Platform) (r : Rooms) (m : Mail) : Prop extends Mail.Base P m where
  discussionKeys : (m.discussions.map DiscussionRow.key).Nodup
  housed : ∀ d ∈ m.discussions, r.Houses d.scope d.roomId
  linked : ∀ x ∈ m.messages, ∀ id, x.discussionId = some id →
    (m.discussion? x.scope id).isSome = true ∧ x.discussionRole.isSome = true
  discussed : ∀ d ∈ m.discussions, DiscussionOk d (m.ofDiscussion d.scope d.discussionId .prompt)
    (m.ofDiscussion d.scope d.discussionId .response)

section Lookups
variable {P : Platform} {c : Ctx} {m m' : Mail} {scope id : String} {role : DiscussionRole}
  {x : MessageRow} {rows : List MessageRow}

theorem mem_ofDiscussion : x ∈ m.ofDiscussion scope id role ↔
    x ∈ m.messages ∧ x.scope = scope ∧ x.discussionId = some id ∧
      x.discussionRole = some role := by
  simp [Mail.ofDiscussion]

theorem mem_atRound {n : Nat} {prompts : List MessageRow} :
    x ∈ atRound n prompts ↔ x ∈ prompts ∧ x.discussionRound = some n := by
  simp [atRound]

theorem prompts_perm (m : Mail) (scope id : String) (n : Nat) :
    (m.prompts scope id n).Perm (atRound n (m.ofDiscussion scope id .prompt)) :=
  List.perm_insertionSort _ _

theorem mem_prompts {n : Nat} :
    x ∈ m.prompts scope id n ↔ x ∈ m.ofDiscussion scope id .prompt ∧ x.discussionRound = some n := by
  rw [(prompts_perm m scope id n).mem_iff, mem_atRound]

theorem atRound_append (n : Nat) (xs ys : List MessageRow) :
    atRound n (xs ++ ys) = atRound n xs ++ atRound n ys := List.filter_append ..

theorem message?_iff (h : (m.messages.map MessageRow.messageId).Nodup) :
    m.message? scope id = some x ↔ x ∈ m.messages ∧ x.scope = scope ∧ x.messageId = id := by
  constructor
  · intro hl
    have hk := lookup_key hl
    simp only [MessageRow.key, Prod.mk.injEq] at hk
    exact ⟨lookup_mem hl, hk⟩
  · rintro ⟨hx, rfl, rfl⟩
    have hids : m.messages.map MessageRow.messageId =
        (m.messages.map MessageRow.key).map Prod.snd := by
      rw [List.map_map]
      rfl
    have hkeys : (m.messages.map MessageRow.key).Nodup := by
      rw [hids] at h
      exact h.of_map _
    exact lookup_of_mem hkeys hx

theorem message?_grow (h : m'.messages = m.messages ++ rows)
    (hx : m.message? scope id = some x) : m'.message? scope id = some x := by
  rw [Mail.message?, h, lookup_append, ← Mail.message?, hx]
  rfl

theorem ofDiscussion_congr (h : m'.messages = m.messages) :
    m'.ofDiscussion scope id role = m.ofDiscussion scope id role := by
  rw [Mail.ofDiscussion, h, Mail.ofDiscussion]

theorem ofDiscussion_grow (h : m'.messages = m.messages ++ rows) :
    m'.ofDiscussion scope id role = m.ofDiscussion scope id role ++
      rows.filter (fun x => x.scope = scope ∧ x.discussionId = some id ∧
        x.discussionRole = some role) := by
  rw [Mail.ofDiscussion, h, List.filter_append, Mail.ofDiscussion]

theorem ofDiscussion_apart (h : m'.messages = m.messages ++ rows)
    (hr : ∀ x ∈ rows, ¬ (x.scope = scope ∧ x.discussionId = some id)) :
    m'.ofDiscussion scope id role = m.ofDiscussion scope id role := by
  rw [ofDiscussion_grow h, List.filter_eq_nil_iff.mpr, List.append_nil]
  intro x hx
  have := hr x hx
  simp only [decide_eq_true_eq]
  exact fun hn => this ⟨hn.1, hn.2.1⟩

theorem ofDiscussion_add (h : m'.messages = m.messages ++ rows)
    (hr : ∀ x ∈ rows, x.scope = scope ∧ x.discussionId = some id ∧ x.discussionRole = some role) :
    m'.ofDiscussion scope id role = m.ofDiscussion scope id role ++ rows := by
  rw [ofDiscussion_grow h, List.filter_eq_self.mpr]
  simpa using hr

theorem ofDiscussion_other {role' : DiscussionRole} (hne : role' ≠ role)
    (h : m'.messages = m.messages ++ rows)
    (hr : ∀ x ∈ rows, x.discussionRole = some role') :
    m'.ofDiscussion scope id role = m.ofDiscussion scope id role := by
  rw [ofDiscussion_grow h, List.filter_eq_nil_iff.mpr, List.append_nil]
  intro x hx
  simp only [decide_eq_true_eq, hr x hx, Option.some.injEq, hne, and_false, not_false_eq_true]

theorem Sources.grow {d : DispatchRow} (hs : Sources m d x)
    (h : m'.messages = m.messages ++ rows) : Sources m' d x := by
  refine ⟨message?_grow h hs.source, hs.addressed, hs.claimable, fun hc => ?_⟩
  obtain ⟨r, hr⟩ := hs.answered hc
  exact ⟨r, hr.id_eq, h ▸ List.mem_append_left _ hr.mem, hr.scope_eq, hr.after, hr.reply_eq,
    hr.sender_eq, hr.discussion_eq, hr.role_eq⟩

theorem Sources.congr {d : DispatchRow} (hs : Sources m d x) (h : m'.messages = m.messages) :
    Sources m' d x := by
  have hgrow : m'.messages = m.messages ++ [] := by rw [h, List.append_nil]
  exact hs.grow hgrow

theorem Sources.reset {d e : DispatchRow} (hs : Sources m d x) (hk : e.key = d.key)
    (he : e.status ≠ .completed) : Sources m e x := by
  simp only [DispatchRow.key, Prod.mk.injEq] at hk
  obtain ⟨h1, h2, h3⟩ := hk
  exact ⟨by rw [h1, h2]; exact hs.source, by rw [h3]; exact hs.addressed, hs.claimable,
    fun hc => absurd hc he⟩

end Lookups

namespace Mail.Base
variable {P : Platform} {c : Ctx} {m m' : Mail} {ds : List Draft} {rows : List MessageRow}

theorem lookup (h : m.Base P) {x : MessageRow} (hx : x ∈ m.messages) :
    m.message? x.scope x.messageId = some x := (message?_iff h.ids).mpr ⟨hx, rfl, rfl⟩

theorem dispatch_mem (h : m.Base P) {scope id agent : String} {d : DispatchRow} :
    m.dispatch? scope id agent = some d ↔ d ∈ m.dispatches ∧ d.key = (scope, id, agent) :=
  lookup_iff_mem h.dispatchKeys

theorem insert (h : m.Base P) (hi : Inserted P c ds rows m m') : m'.Base P := by
  have hm : m'.messages = m.messages ++ rows := by rw [hi.mail_eq]; rfl
  have hnew : ∀ r ∈ rows, m.lastSequence < r.sequence ∧
      r.sequence ≤ m.lastSequence + rows.length ∧ isUuidHex r.messageId = true := by
    intro r hr
    rw [hi.rows_eq] at hr
    obtain ⟨d, -, k, h1, h2, rfl⟩ := mem_draftRows hr
    rw [hi.rows_eq, draftRows_length]
    exact ⟨h1, h2, (c.messageUuid k).hex⟩
  constructor
  · rw [hm, List.map_append]
    refine List.nodup_append.mpr ⟨h.ids, hi.nodup, fun a ha b hb hab => ?_⟩
    obtain ⟨x, hx, rfl⟩ := List.mem_map.mp ha
    obtain ⟨r, hr, rfl⟩ := List.mem_map.mp hb
    exact hi.fresh x hx r hr hab
  · intro x hx
    rcases List.mem_append.mp (hm ▸ hx) with hx | hx
    · exact h.hex x hx
    · exact (hnew x hx).2.2
  · rw [hm]
    refine List.pairwise_append.mpr ⟨h.sorted, ?_, fun x hx r hr => ?_⟩
    · rw [hi.rows_eq]
      exact draftRows_sorted
    · exact (h.bound x hx).trans_lt (hnew r hr).1
  · intro x hx
    rw [hi.mail_eq]
    show x.sequence ≤ m.lastSequence + rows.length
    rcases List.mem_append.mp (hm ▸ hx) with hx | hx
    · exact (h.bound x hx).trans (Nat.le_add_right _ _)
    · exact (hnew x hx).2.1
  · rw [hi.mail_eq]
    exact h.dispatchKeys
  · intro d hd
    rw [hi.mail_eq] at hd
    obtain ⟨x, hx⟩ := h.dispatched d hd
    exact ⟨x, hx.grow hm⟩
  · rw [hi.mail_eq]
    exact h.sealed

theorem putDispatch (h : m.Base P) {d : DispatchRow} {x : MessageRow} (hd : Sources m d x) :
    (m.putDispatch d).Base P := by
  refine ⟨h.ids, h.hex, h.sorted, h.bound, nodup_upsert d h.dispatchKeys, fun e he => ?_, h.sealed⟩
  rcases mem_upsert he with rfl | he
  · exact ⟨x, hd.congr rfl⟩
  · obtain ⟨y, hy⟩ := h.dispatched e he
    exact ⟨y, hy.congr rfl⟩

theorem cancel (h : m.Base P) (scope id code : String) (now : Utc) :
    (cancelDiscussionDispatches P scope id code now m).Base P := by
  refine ⟨h.ids, h.hex, h.sorted, h.bound, ?_, fun e he => ?_, h.sealed⟩
  · have hk : (cancelDiscussionDispatches P scope id code now m).dispatches.map DispatchRow.key =
        m.dispatches.map DispatchRow.key := by
      simp only [cancelDiscussionDispatches, List.map_map]
      refine List.map_congr_left fun d _ => ?_
      simp only [Function.comp_apply]
      split <;> rfl
    rw [hk]
    exact h.dispatchKeys
  · obtain ⟨d, hd, rfl⟩ := List.mem_map.mp he
    obtain ⟨x, hx⟩ := h.dispatched d hd
    split
    · have hc : Sources m (cancelledDispatch P code now d) x :=
        hx.reset rfl (show DispatchStatus.failed ≠ .completed by decide)
      exact ⟨x, hc.congr rfl⟩
    · exact ⟨x, hx.congr rfl⟩

theorem withReceipts (h : m.Base P) (rs : List ReceiptRow) :
    ({ m with receipts := rs } : Mail).Base P :=
  ⟨h.ids, h.hex, h.sorted, h.bound, h.dispatchKeys, fun d hd => by
    obtain ⟨x, hx⟩ := h.dispatched d hd
    exact ⟨x, hx.congr rfl⟩, h.sealed⟩

theorem putDiscussion (h : m.Base P) (d : DiscussionRow) : (m.putDiscussion d).Base P :=
  ⟨h.ids, h.hex, h.sorted, h.bound, h.dispatchKeys, fun d hd => by
    obtain ⟨x, hx⟩ := h.dispatched d hd
    exact ⟨x, hx.congr rfl⟩, h.sealed⟩

theorem addSchedule (h : m.Base P) {r : RetryScheduleRow}
    (hr : (sealSchedule P r).scheduleSha256 = r.scheduleSha256) : (m.addSchedule r).Base P := by
  refine ⟨h.ids, h.hex, h.sorted, h.bound, h.dispatchKeys, fun d hd => ?_, fun x hx => ?_⟩
  · obtain ⟨x, hx⟩ := h.dispatched d hd
    exact ⟨x, hx.congr rfl⟩
  · rcases List.mem_append.mp hx with hx | hx
    · exact h.sealed x hx
    · rw [List.mem_singleton.mp hx]
      exact hr

end Mail.Base

namespace DiscussionOk
variable {d d' : DiscussionRow} {ps rs rows : List MessageRow}

theorem reframe (h : DiscussionOk d ps rs) (hroom : d'.roomId = d.roomId)
    (hc : d'.currentRound = d.currentRound)
    (hp : d'.processedRound = d.processedRound ∨ d'.processedRound = d.currentRound) :
    DiscussionOk d' ps rs := by
  have h1 := h.processed
  have h2 := h.current
  refine ⟨by omega, by omega, hc ▸ h.started, h.opening, fun x hx => ?_, h.response, h.followup,
    fun hlt => ?_⟩
  · obtain ⟨hr, hi, hn, hs⟩ := h.prompt x hx
    exact ⟨hr.trans hroom.symm, hi, hc ▸ hn, hs⟩
  · rw [hc]
    exact h.pending (by omega)

theorem skip (h : DiscussionOk d ps rs) (hroom : d'.roomId = d.roomId)
    (hc : d'.currentRound = d.currentRound + 1) (hp : d'.processedRound = d.currentRound + 1) :
    DiscussionOk d' ps rs := by
  refine ⟨by omega, by omega, by omega, h.opening, fun x hx => ?_, h.response, h.followup,
    fun hlt => by omega⟩
  obtain ⟨hr, hi, ⟨n, hn, h1, h2⟩, hs⟩ := h.prompt x hx
  exact ⟨hr.trans hroom.symm, hi, ⟨n, hn, h1, by omega⟩, hs⟩

theorem fanOut (h : DiscussionOk d ps rs) (hroom : d'.roomId = d.roomId)
    (hc : d'.currentRound = d.currentRound + 1)
    (hp : d'.processedRound = d.currentRound + 1 ∨ (d'.processedRound = d.currentRound ∧
      rows.length = (atRound 1 ps).length ∧ ∀ r ∈ rows, r.replyTo = none))
    (hrows : ∀ r ∈ rows, r.roomId = d.roomId ∧ r.discussionRound = some (d.currentRound + 1) ∧
      ∃ y ∈ atRound 1 ps, y.binding = r.binding)
    (hfollow : ∀ r ∈ rows, ∀ t, r.replyTo = some t →
      ∃ x ∈ rs, x.messageId = t ∧ x.sequence < r.sequence) :
    DiscussionOk d' (ps ++ rows) rs := by
  have h1 := h.started
  have hopen : atRound 1 (ps ++ rows) = atRound 1 ps := by
    rw [atRound_append, show atRound 1 rows = [] from List.filter_eq_nil_iff.mpr fun r hr => by
      have := (hrows r hr).2.1
      simp only [this, Option.some.injEq, decide_eq_true_eq]
      omega, List.append_nil]
  have hnext : atRound (d.currentRound + 1) (ps ++ rows) = rows := by
    rw [atRound_append, show atRound (d.currentRound + 1) ps = [] from
      List.filter_eq_nil_iff.mpr fun x hx => by
        obtain ⟨n, hn, -, h2⟩ := (h.prompt x hx).round
        simp only [hn, Option.some.injEq, decide_eq_true_eq]
        omega, List.nil_append]
    exact List.filter_eq_self.mpr fun r hr => by simpa using (hrows r hr).2.1
  refine ⟨by omega, by omega, by omega, hopen ▸ h.opening, fun x hx => ?_, fun r hr => ?_,
    fun x hx t ht => ?_, fun hlt => ?_⟩
  · rcases List.mem_append.mp hx with hx | hx
    · obtain ⟨hr, hi, ⟨n, hn, h2, h3⟩, hs⟩ := h.prompt x hx
      exact ⟨hr.trans hroom.symm, hi, ⟨n, hn, h2, by omega⟩, hopen ▸ hs⟩
    · obtain ⟨hr, hn, y, hy, hb⟩ := hrows x hx
      refine ⟨hr.trans hroom.symm, ?_, ⟨_, hn, by omega, by omega⟩, hopen ▸ ⟨y, hy, hb⟩⟩
      have hrec : y.recipient = x.recipient := congrArg Binding.recipient hb
      exact hrec ▸ (h.prompt y (mem_atRound.mp hy).1).recipient
  · obtain ⟨x, hx, hr⟩ := h.response r hr
    exact ⟨x, List.mem_append_left _ hx, hr⟩
  · rcases List.mem_append.mp hx with hx | hx
    · exact h.followup x hx t ht
    · exact hfollow x hx t ht
  · rw [hc, hnext, hopen]
    rcases hp with hp | ⟨-, hlen, hnone⟩
    · omega
    · exact ⟨hlen, hnone⟩

theorem answer (h : DiscussionOk d ps rs) {x r : MessageRow} (hx : x ∈ ps)
    (hr : RepliesTo x r) : DiscussionOk d ps (rs ++ [r]) := by
  refine ⟨h.processed, h.current, h.started, h.opening, h.prompt, fun y hy => ?_,
    fun y hy t ht => ?_, h.pending⟩
  · rcases List.mem_append.mp hy with hy | hy
    · exact h.response y hy
    · rw [List.mem_singleton.mp hy]
      exact ⟨x, hx, hr⟩
  · obtain ⟨z, hz, hzt⟩ := h.followup y hy t ht
    exact ⟨z, List.mem_append_left _ hz, hzt⟩

end DiscussionOk

namespace Mail.WF
variable {P : Platform} {c : Ctx} {r : Rooms} {m m₁ m' : Mail} {ds : List Draft}
  {rows : List MessageRow}

theorem quiet (h : m.WF P r) (hb : m'.Base P) (hm : m'.messages = m.messages)
    (hd : m'.discussions = m.discussions) : m'.WF P r := by
  refine ⟨hb, hd ▸ h.discussionKeys, hd ▸ h.housed, ?_, fun d hdm => ?_⟩
  · rw [hm]
    intro x hx id hid
    rw [Mail.discussion?, hd]
    exact h.linked x hx id hid
  · rw [ofDiscussion_congr hm, ofDiscussion_congr hm]
    exact h.discussed d (hd ▸ hdm)

theorem lookup_discussion (h : m.WF P r) {scope id : String} {d : DiscussionRow} :
    m.discussion? scope id = some d ↔ d ∈ m.discussions ∧ d.key = (scope, id) :=
  lookup_iff_mem h.discussionKeys

theorem discussed_at (h : m.WF P r) {scope id : String} {d : DiscussionRow}
    (hd : m.discussion? scope id = some d) :
    DiscussionOk d (m.ofDiscussion scope id .prompt) (m.ofDiscussion scope id .response) := by
  obtain ⟨hm, hk⟩ := h.lookup_discussion.mp hd
  simp only [DiscussionRow.key, Prod.mk.injEq] at hk
  rw [← hk.1, ← hk.2]
  exact h.discussed d hm

theorem absent (h : m.WF P r) {scope id : String} (hn : m.discussion? scope id = none)
    (role : DiscussionRole) : m.ofDiscussion scope id role = [] := by
  refine List.eq_nil_iff_forall_not_mem.mpr fun x hx => ?_
  obtain ⟨hm, rfl, hid, -⟩ := mem_ofDiscussion.mp hx
  simpa [hn] using (h.linked x hm id hid).1

theorem plain (h : m.WF P r) (hi : Inserted P c ds rows m m')
    (hn : ∀ d ∈ ds, d.discussion = none) : m'.WF P r := by
  have hrows : ∀ x ∈ rows, x.discussionId = none := by
    intro x hx
    rw [hi.rows_eq] at hx
    obtain ⟨d, hd, k, -, -, rfl⟩ := mem_draftRows hx
    simp [Draft.row, hn d hd]
  have hm : m'.messages = m.messages ++ rows := by rw [hi.mail_eq]; rfl
  have hd : m'.discussions = m.discussions := by rw [hi.mail_eq]; rfl
  refine ⟨h.toBase.insert hi, hd ▸ h.discussionKeys, hd ▸ h.housed, fun x hx id hid => ?_,
    fun d hdm => ?_⟩
  · rw [Mail.discussion?, hd]
    rcases List.mem_append.mp (hm ▸ hx) with hx | hx
    · exact h.linked x hx id hid
    · simp [hrows x hx] at hid
  · have hr : ∀ x ∈ rows, ¬ (x.scope = d.scope ∧ x.discussionId = some d.discussionId) :=
      fun x hx hn => by simp [hrows x hx] at hn
    rw [ofDiscussion_apart hm hr, ofDiscussion_apart hm hr]
    exact h.discussed d (hd ▸ hdm)

theorem put (h : m.WF P r) (hi : Inserted P c ds rows m m₁) {d : DiscussionRow}
    (hh : r.Houses d.scope d.roomId)
    (hrows : ∀ x ∈ rows, x.scope = d.scope ∧ x.discussionId = some d.discussionId ∧
      x.discussionRole = some .prompt)
    (hok : DiscussionOk d (m.ofDiscussion d.scope d.discussionId .prompt ++ rows)
      (m.ofDiscussion d.scope d.discussionId .response)) : (m₁.putDiscussion d).WF P r := by
  have hm : m₁.messages = m.messages ++ rows := by rw [hi.mail_eq]; rfl
  have hd : m₁.discussions = m.discussions := by rw [hi.mail_eq]; rfl
  have hkeys : ((m₁.putDiscussion d).discussions.map DiscussionRow.key).Nodup :=
    nodup_upsert d (hd ▸ h.discussionKeys)
  refine ⟨(h.toBase.insert hi).putDiscussion d, hkeys, fun e he => ?_, fun x hx id hid => ?_,
    fun e he => ?_⟩
  · rcases mem_upsert he with rfl | he
    · exact hh
    · exact h.housed e (hd ▸ he)
  · rw [Mail.discussion?_putDiscussion, Mail.discussion?, hd]
    rcases List.mem_append.mp (hm ▸ hx) with hx | hx
    · obtain ⟨h1, h2⟩ := h.linked x hx id hid
      refine ⟨?_, h2⟩
      split
      · rfl
      · exact h1
    · obtain ⟨h1, h2, h3⟩ := hrows x hx
      rw [if_pos (by rw [DiscussionRow.key, h1, ← Option.some.inj (h2.symm.trans hid)])]
      exact ⟨rfl, by rw [h3]; rfl⟩
  · have hself : d ∈ (m₁.putDiscussion d).discussions :=
      lookup_mem (k := d.key) (by
        rw [Mail.putDiscussion, lookup_upsert, if_pos rfl])
    have hadd : m₁.ofDiscussion d.scope d.discussionId .prompt =
        m.ofDiscussion d.scope d.discussionId .prompt ++ rows := ofDiscussion_add hm hrows
    have hsame : m₁.ofDiscussion d.scope d.discussionId .response =
        m.ofDiscussion d.scope d.discussionId .response :=
      ofDiscussion_other (by decide) hm fun x hx => (hrows x hx).2.2
    by_cases hk : e.key = d.key
    · rw [eq_of_key_eq hkeys he hself hk]
      show DiscussionOk d (m₁.ofDiscussion _ _ _) (m₁.ofDiscussion _ _ _)
      rw [hadd, hsame]
      exact hok
    · have hold : e ∈ m.discussions := by
        rcases mem_upsert he with rfl | he
        · exact absurd rfl hk
        · exact hd ▸ he
      have hr : ∀ x ∈ rows, ¬ (x.scope = e.scope ∧ x.discussionId = some e.discussionId) := by
        rintro x hx ⟨h1, h2⟩
        obtain ⟨h3, h4, -⟩ := hrows x hx
        rw [h1] at h3
        rw [h2] at h4
        exact hk (by rw [DiscussionRow.key, DiscussionRow.key, h3, Option.some.inj h4])
      show DiscussionOk e (m₁.ofDiscussion _ _ _) (m₁.ofDiscussion _ _ _)
      rw [ofDiscussion_apart hm hr, ofDiscussion_apart hm hr]
      exact h.discussed e hold

theorem write (h : m.WF P r) (c : Ctx) {d : DiscussionRow} (hh : r.Houses d.scope d.roomId)
    (hok : DiscussionOk d (m.ofDiscussion d.scope d.discussionId .prompt)
      (m.ofDiscussion d.scope d.discussionId .response)) : (m.putDiscussion d).WF P r :=
  h.put (Inserted.nil P c m) hh (by simp) (by rwa [List.append_nil])

theorem putDispatch (h : m.WF P r) {d : DispatchRow} {x : MessageRow} (hd : Sources m d x) :
    (m.putDispatch d).WF P r := h.quiet (h.toBase.putDispatch hd) rfl rfl

theorem cancel (h : m.WF P r) (scope id code : String) (now : Utc) :
    (cancelDiscussionDispatches P scope id code now m).WF P r :=
  h.quiet (h.toBase.cancel scope id code now) rfl rfl

theorem ignoreReceipt (h : m.WF P r) (x : ReceiptRow) : (m.ignoreReceipt x).WF P r := by
  obtain ⟨rs, he⟩ := m.ignoreReceipt_eq x
  rw [he]
  exact h.quiet (h.toBase.withReceipts rs) rfl rfl

end Mail.WF

structure Participates (P : Platform) (scope : String) (r : Rooms) (x : MessageRow)
    (seat : Seat) : Prop where
  agent_eq : seat.agentId = x.recipient
  route_eq : seat.routeProfileId = x.routeProfileId.getD ""
  routed : seat.routeProfileId ≠ ""
  member : (r.activeRoomMember scope x.roomId x.recipient).any
    (fun m => m.routeProfileId.getD "" = x.routeProfileId.getD "") = true
  bound : routeRequestFromRow x = some seat.request
  sealed : seat.request.routeRequestSha256 = some (P.stableSha256 seat.request.content)
  current : resolveRouteRequest P scope x.recipient
    { routeProfileId := x.routeProfileId.getD "" } r = .ok (some seat.request)

section Participants
variable {P : Platform} {c : Ctx} {s : Store} {scope id : String} {seats : List Seat}
  {x y : MessageRow} {q : RouteRequest}

theorem participant_ok {r : Rooms} {seat : Seat} (h : participant P scope r x = .ok seat) :
    Participates P scope r x seat := by
  simp only [participant, bind_eq_ok, require_eq_ok, demand_eq_ok, pure_eq_ok] at h
  obtain ⟨-, h1, -, h2, bound, h3, -, h4, current, h5, -, rfl, rfl⟩ := h
  exact ⟨rfl, rfl, h1, h2, h3, h4, h5⟩

theorem discussionParticipants_ok (h : discussionParticipants P scope id s = .ok seats) :
    List.Forall₂ (Participates P scope s.rooms) (s.mail.prompts scope id 1) seats := by
  simp only [discussionParticipants, bind_eq_ok, mapM_eq_ok] at h
  exact h.choose_spec.2.imp fun _ _ => participant_ok

theorem participants_length (h : discussionParticipants P scope id s = .ok seats) :
    seats.length = (atRound 1 (s.mail.ofDiscussion scope id .prompt)).length := by
  rw [← (discussionParticipants_ok h).length_eq, (prompts_perm s.mail scope id 1).length_eq]

theorem participants_seat (h : discussionParticipants P scope id s = .ok seats) {seat : Seat}
    (hs : seat ∈ seats) : ∃ y ∈ atRound 1 (s.mail.ofDiscussion scope id .prompt),
      Participates P scope s.rooms y seat := by
  simp only [discussionParticipants, bind_eq_ok] at h
  obtain ⟨-, -, h⟩ := h
  obtain ⟨y, hy, hp⟩ := exists_of_mapM h hs
  exact ⟨y, (prompts_perm s.mail scope id 1).mem_iff.mp hy, participant_ok hp⟩

theorem routeRequestFromRow_some (h : routeRequestFromRow x = some q) :
    q.targetAgentId = x.recipient ∧ q.routeProfileId = x.routeProfileId ∧
      q.routeProfileSha256.getD none = x.routeProfileSha256 ∧
      q.requestedProviderId = x.requestedProviderId ∧ q.requestedModelId = x.requestedModelId ∧
      q.requestedReasoningMode = x.requestedReasoningMode ∧
      q.requestedRouteClass = x.requestedRouteClass ∧
      q.routeRequestSha256 = x.routeRequestSha256 := by
  simp only [routeRequestFromRow] at h
  split at h
  · cases h
  · obtain rfl := Option.some.inj h
    refine ⟨rfl, rfl, ?_, rfl, rfl, rfl, rfl, rfl⟩
    cases hx : x.routeProfileSha256 with
    | none => cases truthy x.routeProfileId <;> simp
    | some sha => simp

theorem routeRequestFromRow_congr (h : x.binding = y.binding) :
    routeRequestFromRow x = routeRequestFromRow y := by
  simp only [MessageRow.binding, Binding.mk.injEq] at h
  obtain ⟨-, h2, h3, h4, h5, h6, h7, h8, h9⟩ := h
  simp only [routeRequestFromRow, h2, h3, h4, h5, h6, h7, h8, h9]

theorem Participates.binding {r : Rooms} {seat : Seat} (h : Participates P scope r x seat)
    {d : DiscussionRow} (hroom : x.roomId = d.roomId) (n k : Nat) (t subject body : String)
    (reply : Option String) (now : Utc) :
    x.binding = ((seat.draft d n subject body reply now).row P scope t k).binding := by
  obtain ⟨-, h2, h3, h4, h5, h6, h7, h8⟩ := routeRequestFromRow_some h.bound
  simp [MessageRow.binding, Draft.row, Seat.draft, hroom, h.agent_eq, h2, h3, h4, h5, h6, h7, h8]

end Participants

end PeerBridge
