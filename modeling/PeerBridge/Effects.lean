import PeerBridge.Preservation

namespace PeerBridge
open Checked Rows

def Mail.dispatchOf (m : Mail) (x : MessageRow) : Option DispatchRow :=
  m.dispatch? x.scope x.messageId x.recipient

-- everything the mail holds about one discussion is as it was
structure Frame (scope id : String) (m m' : Mail) : Prop where
  row : m'.discussion? scope id = m.discussion? scope id
  rows : ∀ role, m'.ofDiscussion scope id role = m.ofDiscussion scope id role
  dispatches : ∀ x ∈ m.ofDiscussion scope id .prompt, m'.dispatchesOf x = m.dispatchesOf x
  kept : ∀ t y, m.message? scope t = some y → m'.message? scope t = some y

inductive Moves : Option DispatchRow → Option DispatchRow → Prop
  | same (o : Option DispatchRow) : Moves o o
  | set {o : Option DispatchRow} {d : DispatchRow} (h : ∀ e ∈ o, e.status.terminal = false)
      (hd : d.status ≠ .completed) : Moves o (some d)

structure Moved (scope id : String) (m m' : Mail) : Prop where
  row : m'.discussion? scope id = m.discussion? scope id
  rows : ∀ role, m'.ofDiscussion scope id role = m.ofDiscussion scope id role
  dispatch : ∀ x ∈ m.ofDiscussion scope id .prompt, Moves (m.dispatchOf x) (m'.dispatchOf x)

section Views
variable {P : Platform} {c : Ctx} {scope id : String} {m m' m'' : Mail} {x : MessageRow}

theorem Frame.refl (m : Mail) : Frame scope id m m :=
  ⟨rfl, fun _ => rfl, fun _ _ => rfl, fun _ _ h => h⟩

theorem Frame.trans (h : Frame scope id m m') (k : Frame scope id m' m'') :
    Frame scope id m m'' := by
  refine ⟨k.row.trans h.row, fun role => (k.rows role).trans (h.rows role), ?_,
    fun t y hy => k.kept t y (h.kept t y hy)⟩
  intro x hx
  have hx' : x ∈ m'.ofDiscussion scope id .prompt := by
    rw [h.rows]
    exact hx
  exact (k.dispatches x hx').trans (h.dispatches x hx)

theorem find?_dispatchesOf (m : Mail) (x : MessageRow) (agent : String) :
    m.dispatch? x.scope x.messageId agent =
      (m.dispatchesOf x).find? (fun d => d.agentId = agent) := by
  simp only [Mail.dispatch?, Rows.lookup, Mail.dispatchesOf, List.find?_filter]
  congr 1
  funext d
  simp [DispatchRow.key, and_assoc]

theorem Frame.dispatchOf (h : Frame scope id m m') (hx : x ∈ m.ofDiscussion scope id .prompt) :
    m'.dispatchOf x = m.dispatchOf x := by
  rw [Mail.dispatchOf, Mail.dispatchOf, find?_dispatchesOf, find?_dispatchesOf, h.dispatches x hx]

theorem Frame.moved (h : Frame scope id m m') : Moved scope id m m' := by
  refine ⟨h.row, h.rows, fun x hx => ?_⟩
  rw [h.dispatchOf hx]
  exact .same _

theorem Moves.trans {a b o : Option DispatchRow} (h : Moves a b) (k : Moves b o) : Moves a o := by
  cases h with
  | same => exact k
  | set h hd =>
    cases k with
    | same => exact .set h hd
    | set k hk => exact .set h hk

theorem Moves.closed {o o' : Option DispatchRow} (h : Moves o o')
    (ho : o.any (fun d => d.status.terminal) = true) : o' = o := by
  cases h with
  | same => rfl
  | set h hd =>
    cases o with
    | none => simp at ho
    | some e => simp [h e rfl] at ho

theorem Moved.refl (m : Mail) : Moved scope id m m := (Frame.refl m).moved

theorem Moved.trans (h : Moved scope id m m') (k : Moved scope id m' m'') :
    Moved scope id m m'' := by
  refine ⟨k.row.trans h.row, fun role => (k.rows role).trans (h.rows role), fun x hx => ?_⟩
  have hx' : x ∈ m'.ofDiscussion scope id .prompt := by
    rw [h.rows]
    exact hx
  exact (h.dispatch x hx).trans (k.dispatch x hx')

theorem dispatchesOf_congr (h : m'.dispatches = m.dispatches) :
    m'.dispatchesOf x = m.dispatchesOf x := by
  rw [Mail.dispatchesOf, h, Mail.dispatchesOf]

theorem cancellable_source {s i : String} {e : DispatchRow} (h : m.cancellable s i e = true) :
    e.scope = s ∧ e.status.terminal = false ∧ ∃ y, m.message? e.scope e.messageId = some y ∧
      y.discussionId = some i ∧ y.discussionRole = some .prompt := by
  simp only [Mail.cancellable, Bool.and_eq_true, decide_eq_true_eq, Bool.not_eq_true',
    Option.any_eq_true] at h
  exact ⟨h.1.1, h.1.2, h.2⟩

theorem cancel_dispatchesOf (hb : m.Base P) (s i code : String) (now : Utc)
    (hx : x ∈ m.messages) (hk : (x.scope, x.discussionId) ≠ (s, some i)) :
    (cancelDiscussionDispatches P s i code now m).dispatchesOf x = m.dispatchesOf x := by
  have hsame : ∀ e ∈ m.dispatches, e.scope = x.scope → e.messageId = x.messageId →
      m.cancellable s i e = false := by
    intro e _ hs hm
    by_contra hc
    obtain ⟨h1, -, y, hy, h2, -⟩ := cancellable_source (by simpa using hc)
    rw [hs, hm, hb.lookup hx] at hy
    obtain rfl := Option.some.inj hy
    exact hk (by rw [h2, ← hs, h1])
  simp only [Mail.dispatchesOf, cancelDiscussionDispatches, List.filter_map]
  have hkey : (fun d : DispatchRow => decide (d.scope = x.scope ∧ d.messageId = x.messageId)) ∘
      (fun d => if m.cancellable s i d then cancelledDispatch P code now d else d) =
      fun d => decide (d.scope = x.scope ∧ d.messageId = x.messageId) := by
    funext d
    simp only [Function.comp_apply]
    split <;> rfl
  rw [hkey]
  refine (List.map_congr_left fun e he => ?_).trans (List.map_id _)
  obtain ⟨he, hp⟩ := List.mem_filter.mp he
  simp only [decide_eq_true_eq] at hp
  rw [hsame e he hp.1 hp.2]
  rfl

theorem cancel_frame (hb : m.Base P) {s i : String} (code : String) (now : Utc)
    (hk : (s, i) ≠ (scope, id)) :
    Frame scope id m (cancelDiscussionDispatches P s i code now m) := by
  refine ⟨rfl, fun _ => rfl, fun x hx => ?_, fun _ _ h => h⟩
  obtain ⟨hm, h1, h2, -⟩ := mem_ofDiscussion.mp hx
  refine cancel_dispatchesOf hb _ _ _ _ hm fun hn => hk ?_
  rw [h1, h2, Prod.mk.injEq, Option.some.injEq] at hn
  rw [hn.1, hn.2]

theorem cancel_moved (s i code : String) (now : Utc) :
    Moved scope id m (cancelDiscussionDispatches P s i code now m) := by
  refine ⟨rfl, fun _ => rfl, fun x _ => ?_⟩
  rw [Mail.dispatchOf, Mail.dispatchOf, dispatch?_cancel]
  cases hd : m.dispatch? x.scope x.messageId x.recipient with
  | none => exact .same _
  | some d =>
    rw [Option.map_some]
    split
    · rename_i hc
      refine .set (fun e he => ?_) (show DispatchStatus.failed ≠ .completed by decide)
      obtain rfl : d = e := Option.some.inj he
      exact (cancellable_source hc).2.1
    · exact .same _

theorem putDiscussion_frame {d : DiscussionRow} (hk : d.key ≠ (scope, id)) :
    Frame scope id m (m.putDiscussion d) :=
  ⟨discussion?_other hk, fun _ => rfl, fun _ _ => rfl, fun _ _ h => h⟩

theorem insert_frame {ds : List Draft} {rows : List MessageRow} (hi : Inserted P c ds rows m m')
    (hr : ∀ y ∈ rows, ¬ (y.scope = scope ∧ y.discussionId = some id)) :
    Frame scope id m m' := by
  have hm : m'.messages = m.messages ++ rows := by rw [hi.mail_eq]; rfl
  refine ⟨hi.discussion? _ _, fun role => ofDiscussion_apart hm hr, fun x _ => ?_,
    fun t y hy => message?_grow hm hy⟩
  apply dispatchesOf_congr
  rw [hi.mail_eq]
  rfl

theorem dispatch_frame {d : DispatchRow}
    (hd : ∀ x ∈ m.ofDiscussion scope id .prompt, d.scope = x.scope → d.messageId ≠ x.messageId) :
    Frame scope id m (m.putDispatch d) := by
  refine ⟨rfl, fun _ => rfl, fun x hx => ?_, fun _ _ h => h⟩
  have hne := hd x hx
  simp only [Mail.dispatchesOf, Mail.putDispatch]
  induction m.dispatches with
  | nil =>
    simp only [upsert, List.filter_cons, List.filter_nil]
    rw [if_neg (by simpa using hne)]
  | cons e es ih =>
    simp only [upsert]
    split
    · rename_i hk
      simp only [DispatchRow.key, Prod.mk.injEq] at hk
      rw [List.filter_cons, List.filter_cons, if_neg (by simpa using hne),
        if_neg (by rw [hk.1, hk.2.1]; simpa using hne)]
    · rw [List.filter_cons, List.filter_cons, ih]

theorem put_moved {d : DispatchRow} (hd : d.status ≠ .completed)
    (ho : ∀ e ∈ m.dispatch? d.scope d.messageId d.agentId, e.status.terminal = false) :
    Moved scope id m (m.putDispatch d) := by
  refine ⟨rfl, fun _ => rfl, fun x _ => ?_⟩
  rw [Mail.dispatchOf, Mail.dispatchOf, Mail.dispatch?_putDispatch]
  split
  · rename_i hk
    simp only [DispatchRow.key, Prod.mk.injEq] at hk
    rw [← hk.1, ← hk.2.1, ← hk.2.2]
    exact .set ho hd
  · exact .same _

end Views

def triggersOf (id : String) (as : List Advance) : List MessageRow :=
  (as.filter (fun a => a.discussionId = id)).filterMap Advance.trigger

theorem triggersOf_append (id : String) (as bs : List Advance) :
    triggersOf id (as ++ bs) = triggersOf id as ++ triggersOf id bs := by
  rw [triggersOf, List.filter_append, List.filterMap_append, triggersOf, triggersOf]

section Turns
variable {P : Platform} {c : Ctx} {scope id : String} {s s' : Store} {d : DiscussionRow}

theorem steps_trigger {mode : Option RoomMode} {a : Option Advance}
    (hs : Steps P c mode d s s' a) (hk : d.discussionId ≠ id) : triggersOf id a.toList = [] := by
  have quiet {b : Advance} (hb : b.trigger = none) : triggersOf id [b] = [] := by
    simp only [triggersOf, List.filter_cons, List.filter_nil]
    split <;> simp [hb]
  cases hs with
  | idle _ => rfl
  | freeUnavailable _ _ _ ha => exact quiet ha
  | freeFailed _ _ _ _ _ ha => exact quiet ha
  | free f m _ _ _ _ _ _ _ _ _ hd =>
    rw [← hd] at hk
    simp [triggersOf, hk]
  | roundUnavailable _ _ _ _ ha => exact quiet ha
  | round r m _ _ _ _ _ _ _ _ _ ha => exact quiet ha

theorem steps_frame {mode : Option RoomMode} {a : Option Advance} (h : s.mail.WF P s.rooms)
    (hd : s.mail.discussion? c.self.scope d.discussionId = some d)
    (hs : Steps P c mode d s s' a) (hk : d.key ≠ (scope, id)) :
    Frame scope id s.mail s'.mail := by
  have hkey : d.key = (c.self.scope, d.discussionId) := lookup_key hd
  have hne : (c.self.scope, d.discussionId) ≠ (scope, id) := hkey ▸ hk
  have apart {n : Nat} {reply : Option String} {rows : List MessageRow}
      (hrows : ∀ x ∈ rows, SeatRow c d n reply s.mail x) :
      ∀ y ∈ rows, ¬ (y.scope = scope ∧ y.discussionId = some id) := by
    rintro y hy ⟨h1, h2⟩
    rw [(hrows y hy).scope_eq] at h1
    rw [(hrows y hy).discussion_eq] at h2
    exact hne (by rw [h1, Option.some.inj h2])
  have written {m₁ : Mail} {d' : DiscussionRow} (hf : Frame scope id s.mail m₁)
      (hd' : d'.key = d.key) : Frame scope id s.mail (m₁.putDiscussion d') :=
    hf.trans (putDiscussion_frame (hd' ▸ hk))
  cases hs with
  | idle hs =>
    rw [hs]
    exact .refl _
  | freeUnavailable _ _ hb =>
    rw [hb.mail_eq]
    exact written (cancel_frame h.toBase _ _ hne) rfl
  | freeFailed _ _ _ hs =>
    rw [hs]
    exact written (.refl _) rfl
  | @free participants response rows f m _ hp _ _ hf hi hs =>
    rw [hs]
    refine written (insert_frame hi ?_) rfl
    by_cases ha : (f.outcome c.self.scope d s.mail).1 = .active
    · rw [FreeStep.drafts, if_pos ha] at hi
      have hsub : ∀ seat ∈ f.targets, seat ∈ participants := hf ▸ freeStep_targets
      exact apart (seat_rows h hd hp hsub hi)
    · rw [FreeStep.drafts, if_neg ha] at hi
      obtain rfl : rows = [] := hi.rows_eq
      simp
  | roundUnavailable _ _ _ hb =>
    rw [hb.mail_eq]
    exact written (cancel_frame h.toBase _ _ hne) rfl
  | @round participants rows r m _ _ hp hr _ _ hi hs =>
    rw [hs]
    refine written (insert_frame hi ?_) rfl
    by_cases ha : (r.outcome d).1 = .active
    · rw [RoundStep.drafts, if_pos ha] at hi
      have hpart : r.participants = participants := by rw [hr]; rfl
      exact apart (seat_rows h hd hp (fun seat hs => hpart ▸ hs) hi)
    · rw [RoundStep.drafts, if_neg ha] at hi
      obtain rfl : rows = [] := hi.rows_eq
      simp

-- the part of a sweep that is about one discussion
inductive Turn (P : Platform) (c : Ctx) (scope id : String) (ds : List DiscussionRow)
    (s s' : Store) : List MessageRow → Prop
  | passed (h : Frame scope id s.mail s'.mail) : Turn P c scope id ds s s' []
  | taken {d : DiscussionRow} {s₁ s₂ : Store} {a : Option Advance} (hc : c.self.scope = scope)
      (hid : d.discussionId = id) (hd : s.mail.discussion? scope id = some d) (hm : d ∈ ds)
      (hf : Frame scope id s.mail s₁.mail) (hr : s₁.rooms = s.rooms)
      (hw : s₁.mail.WF P s₁.rooms) (hs : Steps P c (automationMode s.rooms d) d s₁ s₂ a)
      (hg : Frame scope id s₂.mail s'.mail) : Turn P c scope id ds s s' (triggersOf id a.toList)

theorem pending_step {ds : List DiscussionRow} {mode : Option RoomMode} {a : Option Advance}
    (hp : Pending c.self.scope (d :: ds) s.mail) (hs : Steps P c mode d s s' a) :
    Pending c.self.scope ds s'.mail := by
  refine hp.tail fun i hi => steps_discussion hs ?_
  rw [hp.key List.mem_cons_self]
  exact fun hk => hi (Prod.mk.inj hk).2.symm

theorem sweep_frame {ds : List DiscussionRow} {as : List Advance} (h : s.mail.WF P s.rooms)
    (hp : Pending c.self.scope ds s.mail) (hs : Sweep P c ds s s' as)
    (hout : ∀ e ∈ ds, e.key ≠ (scope, id)) : Frame scope id s.mail s'.mail := by
  induction hs with
  | nil => exact .refl _
  | @cons e es s s₁ s' b bs hstep hsweep ih =>
    have he := hp.current e List.mem_cons_self
    have hw₁ : s₁.mail.WF P s₁.rooms := hstep.rooms_eq ▸ steps_wf h he hstep
    have hrest := ih hw₁ (pending_step hp hstep) fun e' he' => hout e' (List.mem_cons_of_mem _ he')
    exact (steps_frame h he hstep (hout e List.mem_cons_self)).trans hrest

theorem sweep_triggers {ds : List DiscussionRow} {as : List Advance} (hs : Sweep P c ds s s' as)
    (hout : ∀ e ∈ ds, e.discussionId ≠ id) : triggersOf id as = [] := by
  induction hs with
  | nil => rfl
  | cons hstep _ ih =>
    rw [triggersOf_append, steps_trigger hstep (hout _ List.mem_cons_self),
      ih fun e he => hout e (List.mem_cons_of_mem _ he)]
    rfl

theorem sweep_turn {ds : List DiscussionRow} {as : List Advance} (h : s.mail.WF P s.rooms)
    (hp : Pending c.self.scope ds s.mail) (hs : Sweep P c ds s s' as) (id : String) :
    Turn P c c.self.scope id ds s s' (triggersOf id as) := by
  induction hs with
  | nil s => exact .passed (.refl _)
  | @cons d ds s s₁ s' a as hstep hsweep ih =>
    have hd := hp.current d List.mem_cons_self
    have hkey := hp.key List.mem_cons_self
    have hw₁ : s₁.mail.WF P s₁.rooms := hstep.rooms_eq ▸ steps_wf h hd hstep
    have hp₁ := pending_step hp hstep
    rw [triggersOf_append]
    by_cases hid : d.discussionId = id
    · have hout : ∀ e ∈ ds, e.discussionId ≠ id := fun e he hn =>
        (List.nodup_cons.mp hp.distinct).1 (hid.trans hn.symm ▸ List.mem_map_of_mem he)
      have hpass : Frame c.self.scope id s₁.mail s'.mail := by
        refine sweep_frame hw₁ hp₁ hsweep fun e he hk => hout e he ?_
        rw [hp₁.key he] at hk
        exact (Prod.mk.inj hk).2
      rw [sweep_triggers hsweep hout, List.append_nil]
      exact .taken rfl hid (hid ▸ hd) List.mem_cons_self (.refl _) rfl h hstep hpass
    · have hkne : d.key ≠ (c.self.scope, id) := by
        rw [hkey]
        exact fun hk => hid (Prod.mk.inj hk).2
      have hf := steps_frame h hd hstep hkne
      have hturn := ih hw₁ hp₁
      rw [steps_trigger hstep hid, List.nil_append]
      generalize triggersOf id as = ts at hturn ⊢
      cases hturn with
      | passed hpass => exact .passed (hf.trans hpass)
      | taken hc hid' hd' hm hf' hr hw hs hg =>
        rw [hf.row] at hd'
        rw [hstep.rooms_eq] at hr hs
        exact .taken hc hid' hd' (List.mem_cons_of_mem _ hm) (hf.trans hf') hr hw hs hg

end Turns

def Mail.live (m : Mail) (x : MessageRow) : Bool :=
  (m.dispatchOf x).any (fun d => !d.status.terminal)

-- the calm ways of closing a discussion also end its dispatches
structure Closes (P : Platform) (scope id : String) (calm : Bool) (m m' : Mail) : Prop where
  row : ∃ d now reason, m.discussion? scope id = some d ∧ m'.discussion? scope id =
    some (sealDiscussion P now { d with status := .stopped, stopReason := some reason })
  rows : ∀ role, m'.ofDiscussion scope id role = m.ofDiscussion scope id role
  dispatch : ∀ x ∈ m.ofDiscussion scope id .prompt, Moves (m.dispatchOf x) (m'.dispatchOf x)
  quiet : calm = true → ∀ x ∈ m.ofDiscussion scope id .prompt, m'.live x = false

structure Answered (c : Ctx) (scope id : String) (x reply : MessageRow) (m m' : Mail) : Prop where
  scope_eq : c.self.scope = scope
  prompt : x ∈ m.ofDiscussion scope id .prompt
  claimed : ∃ d, m.dispatchOf x = some d ∧ d.status = .claimed
  fenced : m.discussionIn scope id [.active, .paused] = true
  reply_row : ReplyRow c x m reply
  row : m'.discussion? scope id = m.discussion? scope id
  prompts : m'.ofDiscussion scope id .prompt = m.ofDiscussion scope id .prompt
  responses : m'.ofDiscussion scope id .response = m.ofDiscussion scope id .response ++ [reply]
  completed : ∃ d, m'.dispatchOf x = some d ∧ d.status = .completed
  others : ∀ y ∈ m.ofDiscussion scope id .prompt, y.messageId ≠ x.messageId →
    m'.dispatchOf y = m.dispatchOf y

structure Opened (P : Platform) (c : Ctx) (scope id : String) (p : Post) (policy : PolicyRow)
    (rows : List MessageRow) (s s' : Store) : Prop where
  scope_eq : c.self.scope = scope
  absent : s.mail.discussion? scope id = none
  policy_eq : s.rooms.policy? scope p.roomId = some policy
  capacity : ¬ (policy.maxMessages ≠ 0 ∧ policy.maxMessages < 2 * rows.length)
  row : s'.mail.discussion? scope id = some (newDiscussion P c p policy rows.length)
  prompts : s'.mail.ofDiscussion scope id .prompt = rows
  responses : s'.mail.ofDiscussion scope id .response = []
  opening : ∀ x ∈ rows, OpeningRow c p s.rooms x

-- what one call does to one discussion, and which responses it takes as triggers
inductive Effect (P : Platform) (c : Ctx) (scope id : String) (s s' : Store) (call : Call) :
    List MessageRow → Prop
  | moved (h : Moved scope id s.mail s'.mail) : Effect P c scope id s s' call []
  | closed {calm : Bool} (h : Closes P scope id calm s.mail s'.mail)
      (hq : calm = true ∨ ∃ a, call = .setRoomAutomation a) : Effect P c scope id s s' call []
  | answered {x reply : MessageRow} (h : Answered c scope id x reply s.mail s'.mail) :
      Effect P c scope id s s' call []
  | opened {p : Post} {policy : PolicyRow} {rows : List MessageRow}
      (h : Opened P c scope id p policy rows s s') : Effect P c scope id s s' call []
  | controlled {a : ControlArgs} {action : ControlAction} {d updated : DiscussionRow} {m : Mail}
      (hcall : call = .control a) (hc : c.self.scope = scope)
      (hact : ControlAction.parse? (lower (strip a.action)) = some action)
      (hid : strip a.discussionId = id) (hextra : 1 ≤ a.extraRounds)
      (hd : s.mail.discussion? scope id = some d)
      (h : Controls P c a.extraRounds.toNat d s action m updated)
      (hm : s'.mail = m.putDiscussion (sealDiscussion P (utcNow c.clock.entry) updated)) :
      Effect P c scope id s s' call []
  | advanced {a : AdvanceArgs} {ds : List DiscussionRow} {ts : List MessageRow}
      (hcall : call = .advance a) (hc : c.self.scope = scope)
      (hsel : selectDiscussions c.self a s = .ok ds) (h : Turn P c scope id ds s s' ts) :
      Effect P c scope id s s' call ts

section Closing
variable {P : Platform} {c : Ctx} {scope id : String} {calm : Bool} {m m' m'' : Mail}

theorem Closes.then (h : Closes P scope id calm m m') (k : Frame scope id m' m'') :
    Closes P scope id calm m m'' := by
  obtain ⟨d, now, reason, h1, h2⟩ := h.row
  have old {x : MessageRow} (hx : x ∈ m.ofDiscussion scope id .prompt) :
      x ∈ m'.ofDiscussion scope id .prompt := by
    rw [h.rows]
    exact hx
  refine ⟨⟨d, now, reason, h1, k.row.trans h2⟩, fun role => (k.rows role).trans (h.rows role),
    fun x hx => ?_, fun hc x hx => ?_⟩
  · rw [k.dispatchOf (old hx)]
    exact h.dispatch x hx
  · rw [Mail.live, k.dispatchOf (old hx)]
    exact h.quiet hc x hx

theorem Frame.closes (h : Frame scope id m m') (k : Closes P scope id calm m' m'') :
    Closes P scope id calm m m'' := by
  obtain ⟨d, now, reason, h1, h2⟩ := k.row
  have kept {x : MessageRow} (hx : x ∈ m.ofDiscussion scope id .prompt) :
      x ∈ m'.ofDiscussion scope id .prompt := by
    rw [h.rows]
    exact hx
  refine ⟨⟨d, now, reason, h.row ▸ h1, h2⟩, fun role => (k.rows role).trans (h.rows role),
    fun x hx => ?_, fun hc x hx => k.quiet hc x (kept hx)⟩
  rw [← h.dispatchOf hx]
  exact k.dispatch x (kept hx)

theorem closes_put {now : Utc} {reason : StopReason} {d : DiscussionRow}
    (h : Moved scope id m m') (hd : m.discussion? scope id = some d)
    (hq : calm = true → ∀ x ∈ m.ofDiscussion scope id .prompt, m'.live x = false) :
    Closes P scope id calm m (m'.putDiscussion
      (sealDiscussion P now { d with status := .stopped, stopReason := some reason })) := by
  have hk : d.key = (scope, id) := lookup_key hd
  refine ⟨⟨d, now, reason, hd, ?_⟩, h.rows, h.dispatch, hq⟩
  rw [Mail.discussion?_putDiscussion, if_pos (by exact hk)]

theorem cancel_live {r : Rooms} (h : m.WF P r) {code : String} {now : Utc} {x : MessageRow}
    (hx : x ∈ m.ofDiscussion scope id .prompt) :
    (cancelDiscussionDispatches P scope id code now m).live x = false := by
  obtain ⟨hm, hs, hi, hr⟩ := mem_ofDiscussion.mp hx
  rw [Mail.live, Mail.dispatchOf, dispatch?_cancel]
  cases hd : m.dispatch? x.scope x.messageId x.recipient with
  | none => rfl
  | some e =>
    rw [Option.map_some]
    split
    · rfl
    · rename_i hc
      have hk := (h.toBase.dispatch_mem.mp hd).2
      simp only [DispatchRow.key, Prod.mk.injEq] at hk
      have hscope : e.scope = scope := hk.1.trans hs
      have hsource : m.message? scope e.messageId = some x := by
        rw [← hs, hk.2.1]
        exact h.lookup hm
      simpa [Mail.cancellable, hscope, hsource, hi, hr] using hc

theorem fold_closes {r : Rooms} {f : Mail → DiscussionRow → Mail}
    (hf : ∀ m d, m.WF P r → m.discussion? c.self.scope d.discussionId = some d →
      (f m d).WF P r ∧ (∀ s i, (c.self.scope, d.discussionId) ≠ (s, i) → Frame s i m (f m d)) ∧
        Closes P c.self.scope d.discussionId calm m (f m d))
    {ds : List DiscussionRow} (h : m.WF P r) (hp : Pending c.self.scope ds m) (scope id : String) :
    Frame scope id m (ds.foldl f m) ∨ Closes P scope id calm m (ds.foldl f m) := by
  have tail {m : Mail} {d : DiscussionRow} {ds : List DiscussionRow} (h : m.WF P r)
      (hp : Pending c.self.scope (d :: ds) m) :
      (f m d).WF P r ∧ Pending c.self.scope ds (f m d) := by
    obtain ⟨h1, h2, -⟩ := hf m d h (hp.current d List.mem_cons_self)
    exact ⟨h1, hp.tail fun i hi => (h2 _ i fun hk => hi (Prod.mk.inj hk).2.symm).row⟩
  have passes {m : Mail} {ds : List DiscussionRow} (h : m.WF P r) (hp : Pending c.self.scope ds m)
      (hout : ∀ e ∈ ds, (c.self.scope, e.discussionId) ≠ (scope, id)) :
      Frame scope id m (ds.foldl f m) := by
    induction ds generalizing m with
    | nil => exact .refl _
    | cons d ds ih =>
      obtain ⟨-, h2, -⟩ := hf m d h (hp.current d List.mem_cons_self)
      obtain ⟨hw, hp'⟩ := tail h hp
      exact (h2 _ _ (hout d List.mem_cons_self)).trans
        (ih hw hp' fun e he => hout e (List.mem_cons_of_mem _ he))
  induction ds generalizing m with
  | nil => exact .inl (.refl _)
  | cons d ds ih =>
    obtain ⟨hw, hp'⟩ := tail h hp
    obtain ⟨-, h2, h3⟩ := hf m d h (hp.current d List.mem_cons_self)
    by_cases hk : (c.self.scope, d.discussionId) = (scope, id)
    · obtain ⟨rfl, rfl⟩ := Prod.mk.inj hk
      refine .inr (h3.then (passes hw hp' fun e he hn => ?_))
      exact (List.nodup_cons.mp hp.distinct).1 ((Prod.mk.inj hn).2 ▸ List.mem_map_of_mem he)
    · exact (ih hw hp').imp (h2 _ _ hk).trans (h2 _ _ hk).closes

theorem supersede_closes {r : Rooms} {ds : List DiscussionRow} (h : m.WF P r)
    (hp : Pending c.self.scope ds m) (scope id : String) :
    Frame scope id m (supersedeMail P c ds m) ∨
      Closes P scope id true m (supersedeMail P c ds m) := by
  refine fold_closes (fun m d h hd => ?_) h hp scope id
  have hkey : d.key = (c.self.scope, d.discussionId) := lookup_key hd
  refine ⟨(h.cancel _ _ _ _).rewrite hd rfl rfl rfl (.inl rfl), fun s i hk => ?_,
    closes_put (cancel_moved _ _ _ _) hd fun _ _ => cancel_live h⟩
  exact (cancel_frame h.toBase _ _ hk).trans (putDiscussion_frame (by rw [← hkey] at hk; exact hk))

theorem stopForPolicy_closes {r : Rooms} {ds : List DiscussionRow} {now : Utc} (h : m.WF P r)
    (hp : Pending c.self.scope ds m) (scope id : String) :
    Frame scope id m (stopForPolicy P now ds m) ∨
      Closes P scope id false m (stopForPolicy P now ds m) := by
  refine fold_closes (fun m d h hd => ?_) h hp scope id
  have hkey : d.key = (c.self.scope, d.discussionId) := lookup_key hd
  refine ⟨h.rewrite hd rfl rfl rfl (.inl rfl), fun s i hk => ?_, closes_put (.refl _) hd (by simp)⟩
  exact putDiscussion_frame (by rw [← hkey] at hk; exact hk)

end Closing

def replyTriggers (scope id : String) (c : Ctx) : Except BridgeError Reply → List MessageRow
  | .ok (.advanced as) => if c.self.scope = scope then triggersOf id as else []
  | _ => []

section Calls
variable {P : Platform} {c : Ctx} {s s' : Store}

theorem plain_frame {ds : List Draft} {rows : List MessageRow} {m m' : Mail} {scope id : String}
    (hi : Inserted P c ds rows m m') (hn : ∀ d ∈ ds, d.discussion = none) :
    Frame scope id m m' := by
  refine insert_frame hi fun y hy hk => ?_
  rw [hi.rows_eq] at hy
  obtain ⟨d, hd, k, -, -, rfl⟩ := mem_draftRows hy
  simp [Draft.row, hn d hd] at hk

theorem open_effect {p : Post} {policy : PolicyRow} {seats : List Seat} {rows : List MessageRow}
    {m : Mail} (h : s.mail.WF P s.rooms) (ho : Opens P c p policy seats rows m s s')
    (scope id : String) (call : Call) : Effect P c scope id s s' call [] := by
  obtain ⟨hlen, -, hrows⟩ := opening_rows ho
  have hpend : Pending c.self.scope (openDiscussions c.self.scope p.roomId s.mail) s.mail :=
    openDiscussions_pending h
  have hsup : (supersedeMail P c (openDiscussions c.self.scope p.roomId s.mail) s.mail).WF P
      s.rooms := supersede_wf h hpend
  have hnone := ho.fresh
  rw [ho.inserted.discussion?] at hnone
  have hclose := supersede_closes h hpend scope id
  by_cases hk : (c.self.scope, c.uuid.text) = (scope, id)
  · obtain ⟨rfl, rfl⟩ := Prod.mk.inj hk
    have hold : s.mail.discussion? c.self.scope c.uuid.text = none := by
      rcases hclose with hf | hcl
      · rw [← hf.row]
        exact hnone
      · obtain ⟨d, now, reason, -, hd⟩ := hcl.row
        rw [hnone] at hd
        cases hd
    have hm : m.messages = (supersedeMail P c (openDiscussions c.self.scope p.roomId s.mail)
        s.mail).messages ++ rows := by
      rw [ho.inserted.mail_eq]
      rfl
    refine Effect.opened ⟨rfl, hold, ho.policy_eq, hlen ▸ ho.capacity, ?_, ?_, ?_, hrows⟩
    · rw [ho.mail_eq, Mail.discussion?_putDiscussion]
      exact if_pos rfl
    · rw [ho.mail_eq]
      show m.ofDiscussion _ _ _ = rows
      rw [ofDiscussion_add hm fun x hx =>
        ⟨(hrows x hx).scope_eq, (hrows x hx).discussion_eq, (hrows x hx).role_eq⟩,
        hsup.absent hnone, List.nil_append]
    · rw [ho.mail_eq]
      show m.ofDiscussion _ _ _ = []
      rw [ofDiscussion_other (show DiscussionRole.prompt ≠ .response by decide) hm
        fun x hx => (hrows x hx).role_eq, hsup.absent hnone]
  · have hrest : Frame scope id
        (supersedeMail P c (openDiscussions c.self.scope p.roomId s.mail) s.mail) s'.mail := by
      rw [ho.mail_eq]
      refine (insert_frame ho.inserted fun y hy hn => hk ?_).trans (putDiscussion_frame hk)
      rw [(hrows y hy).scope_eq, (hrows y hy).discussion_eq, Option.some.injEq] at hn
      rw [hn.1, hn.2]
    rcases hclose with hf | hcl
    · exact .moved (hf.trans hrest).moved
    · exact .closed (hcl.then hrest) (.inl rfl)

theorem control_frame {extra : Nat} {action : ControlAction} {d updated : DiscussionRow}
    {m : Mail} {now : Utc} {scope id : String} (h : s.mail.WF P s.rooms)
    (hd : s.mail.discussion? c.self.scope d.discussionId = some d)
    (hc : Controls P c extra d s action m updated)
    (hk : (c.self.scope, d.discussionId) ≠ (scope, id)) :
    Frame scope id s.mail (m.putDiscussion (sealDiscussion P now updated)) := by
  have hkey : d.key = (c.self.scope, d.discussionId) := lookup_key hd
  have hne : d.key ≠ (scope, id) := by
    rw [hkey]
    exact hk
  have written {m₁ : Mail} {d' : DiscussionRow} (hf : Frame scope id s.mail m₁)
      (hd' : d'.key = d.key) : Frame scope id s.mail (m₁.putDiscussion d') :=
    hf.trans (putDiscussion_frame (hd' ▸ hne))
  cases hc with
  | pause _ => exact written (.refl _) rfl
  | resume _ => exact written (.refl _) rfl
  | stop _ => exact written (cancel_frame h.toBase _ _ hk) rfl
  | reopen _ _ => exact written (.refl _) rfl
  | extend _ hx =>
    refine written (insert_frame hx.inserted fun y hy hn => hk ?_) rfl
    have hrow := seat_rows h hd hx.participants (fun _ hs => hs) hx.inserted y hy
    rw [hrow.scope_eq, hrow.discussion_eq, Option.some.injEq] at hn
    rw [hn.1, hn.2]

theorem complete_effect {token subject body : String} {row : DispatchRow}
    {source reply : MessageRow} {now : Utc} {sha : Sha256} {rs : ReceiptRow} {m : Mail}
    {r : Rooms} (h : m.WF P r) (hc : Completes P c token m row source reply subject body)
    (scope id : String) :
    let m' := ((m.addMessages [reply]).ignoreReceipt rs).putDispatch
      (completedDispatch P now reply.messageId sha row)
    Frame scope id m m' ∨ Answered c scope id source reply m m' := by
  intro m'
  obtain ⟨hrow, hkey⟩ := h.toBase.dispatch_mem.mp hc.holder.lookup_eq
  simp only [DispatchRow.key, Prod.mk.injEq] at hkey
  obtain ⟨hscope, hmsg, hagent⟩ := hkey
  obtain ⟨hsource, hsourceScope, -⟩ := (message?_iff h.ids).mp hc.source_eq
  have hrep := hc.inserted.reply
  have hmessages : m'.messages = m.messages ++ [reply] := by
    show ((m.addMessages [reply]).ignoreReceipt rs).messages = _
    rw [Mail.ignoreReceipt_messages]
    rfl
  have hdisc : ∀ s i, m'.discussion? s i = m.discussion? s i := by
    intro s i
    show ((m.addMessages [reply]).ignoreReceipt rs).discussion? s i = _
    rw [Mail.discussion?, Mail.ignoreReceipt_discussions]
    rfl
  have hdispatch : ∀ s i a, m'.dispatch? s i a = if row.key = (s, i, a) then
      some (completedDispatch P now reply.messageId sha row) else m.dispatch? s i a := by
    intro s i a
    show (Mail.putDispatch _ _).dispatch? s i a = _
    rw [Mail.dispatch?_putDispatch, completedDispatch_key]
    simp only [Mail.dispatch?, Mail.ignoreReceipt_dispatches]
    rfl
  by_cases hk : source.scope = scope ∧ source.discussionId = some id
  · obtain ⟨hks, hki⟩ := hk
    obtain ⟨x, hx⟩ := h.dispatched row hrow
    obtain rfl : source = x := by
      have := hx.source
      rw [hscope, hmsg, hc.source_eq] at this
      exact Option.some.inj this
    obtain ⟨hmem, hrec, e, he⟩ := hx.recipient h hki
    rw [hks] at hmem he
    have hself : c.self.scope = scope := hsourceScope.symm.trans hks
    have hat : row.key = (source.scope, source.messageId, source.recipient) := by
      rw [hc.holder.key_eq, hrec, hagent, hks, hself]
    have hfence := hc.fenced
    rw [hki, hself] at hfence
    refine .inr ⟨hself, hmem, ⟨row, ?_, hc.claimed⟩, hfence, hrep, hdisc _ _, ?_, ?_,
      ⟨completedDispatch P now reply.messageId sha row, ?_, rfl⟩, fun y hy hne => ?_⟩
    · rw [Mail.dispatchOf, hks, ← hself, hrec, hagent]
      exact hc.holder.lookup_eq
    · exact ofDiscussion_other (show DiscussionRole.response ≠ .prompt by decide) hmessages
        fun y hy => by
          rw [List.mem_singleton.mp hy]
          exact hrep.role_eq id hki
    · refine ofDiscussion_add hmessages fun y hy => ?_
      rw [List.mem_singleton.mp hy]
      exact ⟨hrep.scope_eq.trans hself, hrep.discussion_eq.trans hki, hrep.role_eq id hki⟩
    · rw [Mail.dispatchOf, hdispatch, if_pos hat]
    · rw [Mail.dispatchOf, hdispatch, if_neg, Mail.dispatchOf]
      rw [hat]
      exact fun hn => hne (Prod.mk.inj (Prod.mk.inj hn).2).1.symm
  · refine .inl ⟨hdisc _ _, fun role => ofDiscussion_apart hmessages fun y hy hn => hk ?_,
      fun x hx => ?_, fun t y hy => message?_grow hmessages hy⟩
    · rw [List.mem_singleton.mp hy, hrep.scope_eq, hrep.discussion_eq] at hn
      exact ⟨hsourceScope.trans hn.1, hn.2⟩
    · have hput : Frame scope id ((m.addMessages [reply]).ignoreReceipt rs) m' := by
        refine dispatch_frame fun y hy hys hym => hk ?_
        obtain ⟨hy, h1, h2, -⟩ := mem_ofDiscussion.mp hy
        rw [Mail.ignoreReceipt_messages] at hy
        rcases List.mem_append.mp hy with hy | hy
        · have hsame := h.toBase.lookup hy
          rw [← hys, ← hym] at hsame
          rw [show (completedDispatch P now reply.messageId sha row).scope = row.scope from rfl,
            show (completedDispatch P now reply.messageId sha row).messageId = row.messageId from rfl,
            hscope, hmsg, hc.source_eq] at hsame
          rw [Option.some.inj hsame]
          exact ⟨h1, h2⟩
        · rw [List.mem_singleton.mp hy, hrep.scope_eq] at h1
          rw [List.mem_singleton.mp hy, hrep.discussion_eq] at h2
          exact ⟨hsourceScope.trans h1, h2⟩
      have hx' : x ∈ ((m.addMessages [reply]).ignoreReceipt rs).ofDiscussion scope id .prompt := by
        refine mem_ofDiscussion.mpr ⟨?_, (mem_ofDiscussion.mp hx).2⟩
        rw [Mail.ignoreReceipt_messages]
        exact List.mem_append_left _ (mem_ofDiscussion.mp hx).1
      rw [hput.dispatches x hx']
      apply dispatchesOf_congr
      rw [Mail.ignoreReceipt_dispatches]
      rfl

theorem receipt_moved {scope id : String} {m : Mail} (x : ReceiptRow) :
    Moved scope id m (m.ignoreReceipt x) := by
  refine ⟨?_, fun role => ofDiscussion_congr (Mail.ignoreReceipt_messages _ _), fun y _ => ?_⟩
  · rw [Mail.discussion?, Mail.ignoreReceipt_discussions]
    rfl
  · rw [Mail.dispatchOf, Mail.dispatchOf, Mail.dispatch?, Mail.dispatch?,
      Mail.ignoreReceipt_dispatches]
    exact .same _

theorem reconcile_moved {a : ReconcileArgs} {xs : List Reconciled} (scope id : String)
    (h : reconcileMessageDispatches P c a s = .ok (s', xs)) : Moved scope id s.mail s'.mail := by
  obtain ⟨limit, attempts, os, -, -, -, -, -, hxs, hm, -⟩ := reconcileMessageDispatches_ok h
  obtain ⟨hrows, hall⟩ := reconcileEach_ok hxs
  obtain ⟨ds, hframe⟩ := putReconciled_frame xs s.mail
  have hmessages : (putReconciled xs s.mail).messages = s.mail.messages := by rw [hframe]
  refine ⟨by rw [hm, hframe]; rfl, fun role => hm ▸ ofDiscussion_congr hmessages, fun x _ => ?_⟩
  rw [hm, Mail.dispatchOf, Mail.dispatchOf]
  rcases dispatch?_putReconciled xs s.mail x.scope x.messageId x.recipient with
    ⟨y, hy, hk, he⟩ | ⟨-, he⟩
  · have hrow := List.mem_map_of_mem (f := Reconciled.row) hy
    rw [hrows] at hrow
    have hw := (List.mem_filter.mp (List.mem_of_mem_take (List.mem_filter.mp hrow).1)).2
    simp only [reconcileWhere, Bool.and_eq_true, decide_eq_true_eq, Bool.not_eq_true'] at hw
    have hscope := hw.1.1.1.1.1.1.1
    have hsettled := hw.2
    obtain ⟨code, -, hd⟩ := (hall y hy).error_eq
    rw [he]
    rw [hd] at hk ⊢
    simp only [DispatchRow.key, reconciledDispatch, sealDispatch, Prod.mk.injEq] at hk
    refine .set (fun e hem => ?_) (show DispatchStatus.failed ≠ .completed by decide)
    rw [← hk.2.1, ← hk.2.2, ← hk.1, ← hscope] at hem
    rw [Mail.settled, Option.mem_def.mp hem] at hsettled
    simpa using hsettled
  · rw [he]
    exact .same _

theorem perform_effect {call : Call} {r : Reply} (h : s.WF P)
    (hp : perform P c s call = .ok (s', r)) (scope id : String) :
    Effect P c scope id s s' call (replyTriggers scope id c (.ok r)) := by
  have same {m' : Mail} (hm : m' = s.mail) : Moved scope id s.mail m' := hm ▸ .refl _
  cases call <;> simp only [perform] at hp
  case openScope =>
    simp only [pure_eq_ok, Prod.mk.injEq] at hp
    obtain ⟨rfl, rfl⟩ := hp
    exact .moved (same (initDb_mail _ _ _))
  case createRoom a =>
    obtain ⟨x, hx, rfl⟩ := replyWith_ok hp
    exact .moved (same (createRoom_ok hx).1)
  case joinRoom a =>
    obtain ⟨x, hx, rfl⟩ := replyWith_ok hp
    exact .moved (same (joinRoom_ok hx).1)
  case leaveRoom a =>
    obtain ⟨x, hx, rfl⟩ := replyWith_ok hp
    exact .moved (same (leaveRoom_ok hx).1)
  case setRoomAutomation a =>
    obtain ⟨x, hx, rfl⟩ := replyWith_ok hp
    obtain ⟨_, _, _, _, _, _, _, _, hm⟩ := setRoomAutomation_ok hx
    split at hm
    · exact .moved (same hm)
    · have hpend : Pending c.self.scope
          (openDiscussions c.self.scope x.roomId s.mail) s.mail :=
        openDiscussions_pending h.mail
      rcases stopForPolicy_closes h.mail hpend scope id with hf | hc
      · exact .moved (hm ▸ hf.moved)
      · exact .closed (hm ▸ hc) (.inr ⟨a, rfl⟩)
  case upsertRouteProfile a =>
    obtain ⟨x, hx, rfl⟩ := replyWith_ok hp
    exact .moved (same (upsertRouteProfile_ok hx).1)
  case sendMessage a =>
    obtain ⟨x, hx, rfl⟩ := replyWith_ok hp
    obtain ⟨d, hd, _, hi, _⟩ := sendMessage_ok hx
    exact .moved (plain_frame hi (by simpa using hd)).moved
  case sendRoomFanout a =>
    obtain ⟨x, hx, rfl⟩ := replyWith_ok hp
    obtain ⟨ds, hds, hi, _⟩ := sendRoomFanout_ok hx
    exact .moved (plain_frame hi fun d hd => (hds d hd).1).moved
  case postRoomMessage a =>
    obtain ⟨x, hx, rfl⟩ := replyWith_ok hp
    rcases postRoomMessage_ok hx with ⟨ds, hds, hi, _⟩ | ⟨p, policy, seats, m, ho⟩
    · exact .moved (plain_frame hi fun d hd => (hds d hd).1).moved
    · exact open_effect h.mail ho scope id _
  case claim a =>
    obtain ⟨x, hx, rfl⟩ := replyWith_ok hp
    rcases claimMessageDispatch_ok hx with ⟨rfl, rfl⟩ | ⟨q, row, -, hc, hm, -, -⟩
    · exact .moved (.refl _)
    · have hscope : row.scope = c.self.scope := by
        have := hc.eligible
        simp only [claimWhere, Bool.and_eq_true, decide_eq_true_eq] at this
        exact this.1.1.1.1.1.1.1.1.1
      refine .moved (hm ▸ put_moved (show DispatchStatus.claimed ≠ .completed by decide) ?_)
      rw [show (claimedDispatch P c q s.mail row).scope = c.self.scope from rfl, ← hscope]
      exact (dispatchReady_true hc.ready).1
  case renew a =>
    obtain ⟨x, hx, rfl⟩ := replyWith_ok hp
    obtain ⟨row, seconds, hh, hs, rfl, hm, -⟩ := renewMessageDispatch_ok hx
    have hkey := hh.key_eq
    simp only [DispatchRow.key, Prod.mk.injEq] at hkey
    refine .moved (hm ▸ put_moved (show row.status ≠ .completed by simp [hs]) fun e he => ?_)
    rw [show (renewedDispatch P c.clock.later seconds row).scope = row.scope from rfl,
      show (renewedDispatch P c.clock.later seconds row).messageId = row.messageId from rfl,
      show (renewedDispatch P c.clock.later seconds row).agentId = row.agentId from rfl,
      hkey.1, hkey.2.1, hkey.2.2, hh.lookup_eq] at he
    rw [← Option.some.inj he, hs]
    rfl
  case fail a =>
    obtain ⟨x, hx, rfl⟩ := replyWith_ok hp
    obtain ⟨code, row, notBefore, hh, hs, rfl, -, hm⟩ := failMessageDispatch_ok hx
    have hkey := hh.key_eq
    simp only [DispatchRow.key, Prod.mk.injEq] at hkey
    have hstatus : (failedDispatch P (utcNow c.clock.locked) a.retryable code row).status ≠
        .completed := by
      cases hr : a.retryable <;> simp [failedDispatch]
    have hopen {m : Mail} (hd : m.dispatches = s.mail.dispatches) :
        ∀ e ∈ m.dispatch? row.scope row.messageId row.agentId, e.status.terminal = false := by
      intro e he
      rw [Mail.dispatch?, hd, hkey.1, hkey.2.1, hkey.2.2] at he
      obtain rfl := Option.some.inj (hh.lookup_eq.symm.trans he)
      rw [hs]
      rfl
    split at hm
    · have hscheduled : ∀ x, Moved scope id s.mail (s.mail.addSchedule x) :=
        fun _ => ⟨rfl, fun _ => rfl, fun _ _ => .same _⟩
      exact .moved (hm ▸ (hscheduled _).trans (put_moved hstatus (hopen rfl)))
    · exact .moved (hm ▸ put_moved hstatus (hopen rfl))
  case recordTrusted a =>
    obtain ⟨x, hx, rfl⟩ := replyWith_ok hp
    exact .moved (same (recordTrustedInferenceReceipt_ok hx).1)
  case complete a =>
    obtain ⟨x, hx, rfl⟩ := replyWith_ok hp
    rcases completeMessageDispatch_ok hx with
      ⟨-, rfl, -⟩ | ⟨row, source, reply, subject, body, sha, -, hc, rfl, -, hm⟩
    · exact .moved (.refl _)
    · rcases complete_effect h.mail hc scope id with hf | ha
      · exact .moved (hm ▸ hf.moved)
      · exact .answered (hm ▸ ha)
  case ack a =>
    obtain ⟨x, hx, rfl⟩ := replyWith_ok hp
    obtain ⟨_, _, _, _, _, hm⟩ := ackMessage_ok hx
    exact .moved (hm ▸ receipt_moved _)
  case advance a =>
    obtain ⟨x, hx, rfl⟩ := replyWith_ok hp
    obtain ⟨ds, hds, hw⟩ := advanceDiscussions_ok hx
    have hpend := selected_pending h.mail hds
    simp only [replyTriggers]
    split
    · rename_i hscope
      subst hscope
      exact .advanced rfl rfl hds (sweep_turn h.mail hpend hw id)
    · rename_i hscope
      refine .moved (sweep_frame h.mail hpend hw fun e he hk => hscope ?_).moved
      rw [hpend.key he] at hk
      exact (Prod.mk.inj hk).1
  case control a =>
    obtain ⟨x, hx, rfl⟩ := replyWith_ok hp
    obtain ⟨action, d, updated, m, hact, hid, hextra, hd, hc, -, hm⟩ := controlDiscussion_ok hx
    by_cases hk : (c.self.scope, d.discussionId) = (scope, id)
    · obtain ⟨rfl, rfl⟩ := Prod.mk.inj hk
      exact .controlled rfl rfl hact hid.symm hextra hd hc hm
    · exact .moved (hm ▸ (control_frame h.mail hd hc hk).moved)
  case reconcile a =>
    obtain ⟨x, hx, rfl⟩ := replyWith_ok hp
    exact .moved (reconcile_moved scope id hx)

end Calls

end PeerBridge
