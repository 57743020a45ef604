import PeerBridge.Writes
import PeerBridge.Scenario

namespace PeerBridge
open Checked Rows

structure Inbox (m : Mail) (scope roomId consumer : String) (x : MessageRow) : Prop where
  stored : x ∈ m.messages
  scope_eq : x.scope = scope
  room_eq : x.roomId = roomId
  addressed : addressedTo x consumer = true

-- x and everything before it in the inbox is acknowledged
structure Settled (m : Mail) (scope roomId consumer : String) (x : MessageRow) : Prop where
  inbox : Inbox m scope roomId consumer x
  behind : ∀ y, Inbox m scope roomId consumer y → y.sequence ≤ x.sequence →
    m.acknowledged consumer y = true

def AtFrontier (m : Mail) (scope roomId consumer : String) (old new : Nat) : Prop :=
  (∃ x, Settled m scope roomId consumer x ∧ x.sequence = new ∧
      ∀ y, Settled m scope roomId consumer y → y.sequence ≤ new) ∨
    ((∀ x, ¬ Settled m scope roomId consumer x) ∧ new = old)

def Store.position (s : Store) (scope roomId consumer : String) : Nat :=
  consumerCursor scope ("messages:" ++ roomId) consumer s.ledger

structure Cursored (s : Store) : Prop where
  sorted : s.mail.messages.Pairwise (fun x y => x.sequence < y.sequence)
  bound : ∀ x ∈ s.mail.messages, x.sequence ≤ s.mail.lastSequence
  positive : ∀ x ∈ s.mail.messages, 0 < x.sequence
  settled : ∀ scope roomId consumer x, Inbox s.mail scope roomId consumer x →
    x.sequence ≤ s.position scope roomId consumer → s.mail.acknowledged consumer x = true
  seated : ∀ scope roomId consumer, s.position scope roomId consumer = 0 ∨
    ∃ x, Inbox s.mail scope roomId consumer x ∧ x.sequence = s.position scope roomId consumer

section Reading
variable {m m' : Mail} {scope roomId consumer : String} {x : MessageRow} {n old new : Nat}

theorem mem_eligible : x ∈ m.eligible scope roomId consumer n ↔
    Inbox m scope roomId consumer x ∧ n < x.sequence := by
  simp only [Mail.eligible, List.mem_filter, decide_eq_true_eq]
  constructor
  · rintro ⟨hx, h1, h2, h3, h4⟩
    exact ⟨⟨hx, h1, h2, h4⟩, h3⟩
  · rintro ⟨⟨hx, h1, h2, h4⟩, h3⟩
    exact ⟨hx, h1, h2, h3, h4⟩

theorem eligible_sorted (h : m.messages.Pairwise (fun x y => x.sequence < y.sequence)) :
    (m.eligible scope roomId consumer n).Pairwise (fun x y => x.sequence < y.sequence) :=
  h.filter _

theorem eligible_above : ∀ x ∈ m.eligible scope roomId consumer n, n < x.sequence :=
  fun _ hx => (mem_eligible.mp hx).2

theorem acknowledgedCursor_eq (h : m.messages.Pairwise (fun x y => x.sequence < y.sequence)) :
    acknowledgedCursor scope roomId consumer n m = advancedCursor scope roomId consumer n m :=
  (Frontier.scan_eq_window (eligible_sorted h) eligible_above).symm

theorem Inbox.congr (hm : m'.messages = m.messages) (h : Inbox m scope roomId consumer x) :
    Inbox m' scope roomId consumer x := ⟨hm ▸ h.stored, h.scope_eq, h.room_eq, h.addressed⟩

theorem acknowledged_congr (hr : m'.receipts = m.receipts) :
    m'.acknowledged consumer x = m.acknowledged consumer x := by
  rw [Mail.acknowledged, Mail.acknowledged, Mail.receipt?, Mail.receipt?, hr]

theorem Settled.congr (hm : m'.messages = m.messages) (hr : m'.receipts = m.receipts)
    (h : Settled m scope roomId consumer x) : Settled m' scope roomId consumer x := by
  refine ⟨h.inbox.congr hm, fun y hy hle => ?_⟩
  rw [acknowledged_congr hr]
  exact h.behind y (hy.congr hm.symm) hle

theorem AtFrontier.congr (hm : m'.messages = m.messages) (hr : m'.receipts = m.receipts)
    (h : AtFrontier m scope roomId consumer old new) :
    AtFrontier m' scope roomId consumer old new := by
  rcases h with ⟨x, hx, hn, hmax⟩ | ⟨hnone, hn⟩
  · exact .inl ⟨x, hx.congr hm hr, hn, fun y hy => hmax y (hy.congr hm.symm hr.symm)⟩
  · exact .inr ⟨fun x hx => hnone x (hx.congr hm.symm hr.symm), hn⟩

theorem acknowledged_ignoreReceipt (r : ReceiptRow) (h : m.acknowledged consumer x = true) :
    (m.ignoreReceipt r).acknowledged consumer x = true := by
  rw [Mail.acknowledged, Mail.receipt?_ignoreReceipt]
  rw [Mail.acknowledged] at h
  rw [h, Bool.or_true]

end Reading

section Moving
variable {P : Platform} {c : Ctx} {E : Entry → Bool} {s s' : Store} {scope roomId consumer : String}

abbrev Store.Reaches (s : Store) (scope roomId consumer : String) (n : Nat) : Prop :=
  Frontier.Reaches MessageRow.sequence (s.mail.acknowledged consumer)
    (s.position scope roomId consumer)
    (s.mail.eligible scope roomId consumer (s.position scope roomId consumer)) n

theorem Cursored.atFrontier (h : Cursored s) {n : Nat} (hr : s.Reaches scope roomId consumer n) :
    AtFrontier s.mail scope roomId consumer (s.position scope roomId consumer) n := by
  have hmax : ∀ y, Settled s.mail scope roomId consumer y → y.sequence ≤ n := by
    intro y hy
    by_cases hle : y.sequence ≤ s.position scope roomId consumer
    · exact Nat.le_trans hle hr.forward
    · refine hr.maximal y (mem_eligible.mpr ⟨hy.inbox, Nat.lt_of_not_le hle⟩) (fun z hz hzy => ?_)
      exact hy.behind z (mem_eligible.mp hz).1 hzy
  have hbehind : ∀ y, Inbox s.mail scope roomId consumer y → y.sequence ≤ n →
      s.mail.acknowledged consumer y = true := by
    intro y hy hle
    by_cases hp : y.sequence ≤ s.position scope roomId consumer
    · exact h.settled scope roomId consumer y hy hp
    · exact hr.covered y (mem_eligible.mpr ⟨hy, Nat.lt_of_not_le hp⟩) hle
  rcases hr.attained with hn | ⟨x, hx, hn⟩
  · rcases h.seated scope roomId consumer with hzero | ⟨x, hx, hseq⟩
    · refine .inr ⟨fun x hx => ?_, hn⟩
      have hpos := h.positive x hx.inbox.stored
      have hle := hmax x hx
      omega
    · refine .inl ⟨x, ⟨hx, fun y hy hle => hbehind y hy ?_⟩, hseq.trans hn.symm, hmax⟩
      omega
  · refine .inl ⟨x, ⟨(mem_eligible.mp hx).1, fun y hy hle => hbehind y hy ?_⟩, hn, hmax⟩
    omega

theorem position_putCursor (position : Nat) (now : Utc) (room : String) :
    (s.putCursor c room position now).position scope roomId consumer =
      if c.self.scope = scope ∧ room = roomId ∧ c.self.agentId = consumer then position
      else s.position scope roomId consumer := by
  have hchannel : "messages:" ++ room = "messages:" ++ roomId ↔ room = roomId :=
    ⟨fun h => String.append_right_inj _ |>.mp h, fun h => by rw [h]⟩
  simp only [Store.position, Store.putCursor, consumerCursor, Store.withLedger, lookup_upsert,
    CursorRow.key, Prod.mk.injEq, hchannel]
  split <;> rfl

/-- Moving one cursor to the end of its acknowledged prefix keeps every cursor honest. -/
theorem Cursored.putCursor (h : Cursored s) {n : Nat} {room : String} (now : Utc)
    (hr : s.Reaches c.self.scope room c.self.agentId n) :
    Cursored (s.putCursor c room n now) ∧ ∀ scope roomId consumer,
      s.position scope roomId consumer ≤
        (s.putCursor c room n now).position scope roomId consumer := by
  have hfront := h.atFrontier hr
  refine ⟨⟨h.sorted, h.bound, h.positive, fun scope roomId consumer x hx hle => ?_,
    fun scope roomId consumer => ?_⟩, fun scope roomId consumer => ?_⟩
  · change Inbox s.mail scope roomId consumer x at hx
    show s.mail.acknowledged consumer x = true
    rw [position_putCursor] at hle
    split at hle
    · rename_i hk
      obtain ⟨rfl, rfl, rfl⟩ := hk
      by_cases hp : x.sequence ≤ s.position c.self.scope room c.self.agentId
      · exact h.settled _ _ _ x hx hp
      · exact hr.covered x (mem_eligible.mpr ⟨hx, Nat.lt_of_not_le hp⟩) hle
    · exact h.settled _ _ _ x hx hle
  · rw [position_putCursor]
    split
    · rename_i hk
      obtain ⟨rfl, rfl, rfl⟩ := hk
      rcases hfront with ⟨x, hx, hn, -⟩ | ⟨-, hn⟩
      · exact .inr ⟨x, hx.inbox, hn⟩
      · rw [hn]
        exact h.seated _ _ _
    · exact h.seated _ _ _
  · rw [position_putCursor]
    split
    · rename_i hk
      obtain ⟨rfl, rfl, rfl⟩ := hk
      exact hr.forward
    · exact Nat.le_refl _

theorem Cursored.scan (h : Cursored s) : s.Reaches scope roomId consumer
    (advancedCursor scope roomId consumer (s.position scope roomId consumer) s.mail) :=
  Frontier.scan_reaches (eligible_sorted h.sorted) eligible_above

theorem Store.window_reaches : s.Reaches scope roomId consumer
    (acknowledgedCursor scope roomId consumer (s.position scope roomId consumer) s.mail) :=
  Frontier.window_reaches eligible_above

theorem Cursored.inserted {ds : List Draft} {rows : List MessageRow} (h : Cursored s)
    (hi : Inserted P c ds rows s.mail s'.mail) (hl : s'.ledger = s.ledger) : Cursored s' := by
  have hnew : ∀ x ∈ rows, s.mail.lastSequence < x.sequence ∧
      x.sequence ≤ s.mail.lastSequence + rows.length := by
    intro x hx
    rw [hi.rows_eq] at hx
    obtain ⟨d, -, k, h1, h2, rfl⟩ := mem_draftRows hx
    rw [hi.rows_eq, draftRows_length]
    exact ⟨h1, h2⟩
  have hmessages : s'.mail.messages = s.mail.messages ++ rows := by
    rw [hi.mail_eq]
    rfl
  have hpos : ∀ scope roomId consumer, s'.position scope roomId consumer =
      s.position scope roomId consumer := by
    intro scope roomId consumer
    rw [Store.position, hl, Store.position]
  have hlow : ∀ scope roomId consumer,
      s.position scope roomId consumer ≤ s.mail.lastSequence := by
    intro scope roomId consumer
    rcases h.seated scope roomId consumer with hz | ⟨x, hx, hseq⟩
    · omega
    · exact hseq ▸ h.bound x hx.stored
  refine ⟨?_, fun x hx => ?_, fun x hx => ?_, fun scope roomId consumer x hx hle => ?_,
    fun scope roomId consumer => ?_⟩
  · rw [hmessages, hi.rows_eq]
    refine List.pairwise_append.mpr ⟨h.sorted, draftRows_sorted, fun x hx y hy => ?_⟩
    rw [← hi.rows_eq] at hy
    exact Nat.lt_of_le_of_lt (h.bound x hx) (hnew y hy).1
  · rw [hi.mail_eq]
    show x.sequence ≤ s.mail.lastSequence + rows.length
    rcases List.mem_append.mp (hmessages ▸ hx) with hx | hx
    · exact Nat.le_trans (h.bound x hx) (Nat.le_add_right _ _)
    · exact (hnew x hx).2
  · rcases List.mem_append.mp (hmessages ▸ hx) with hx | hx
    · exact h.positive x hx
    · exact Nat.lt_of_le_of_lt (Nat.zero_le _) (hnew x hx).1
  · rw [hpos] at hle
    have hrec : s'.mail.receipts = s.mail.receipts := by
      rw [hi.mail_eq]
      rfl
    rw [acknowledged_congr hrec]
    rcases List.mem_append.mp (hmessages ▸ hx.stored) with hold | hnew'
    · exact h.settled scope roomId consumer x ⟨hold, hx.scope_eq, hx.room_eq, hx.addressed⟩ hle
    · have hlow := hlow scope roomId consumer
      have hgt := (hnew x hnew').1
      omega
  · rw [hpos]
    refine (h.seated scope roomId consumer).imp id (fun ⟨x, hx, hseq⟩ => ⟨x, ?_, hseq⟩)
    exact ⟨hmessages ▸ List.mem_append_left _ hx.stored, hx.scope_eq, hx.room_eq, hx.addressed⟩

theorem Cursored.frame (h : Cursored s) (hm : s'.mail.messages = s.mail.messages)
    (hq : s'.mail.lastSequence = s.mail.lastSequence)
    (hr : ∀ consumer x, s.mail.acknowledged consumer x = true →
      s'.mail.acknowledged consumer x = true)
    (hl : s'.ledger.cursors = s.ledger.cursors) :
    Cursored s' ∧ ∀ scope roomId consumer,
      s'.position scope roomId consumer = s.position scope roomId consumer := by
  have hpos : ∀ scope roomId consumer, s'.position scope roomId consumer =
      s.position scope roomId consumer := by
    intro scope roomId consumer
    rw [Store.position, consumerCursor, hl, Store.position, consumerCursor]
  refine ⟨⟨hm ▸ h.sorted, fun x hx => ?_, fun x hx => h.positive x (hm ▸ hx),
    fun scope roomId consumer x hx hle => ?_, fun scope roomId consumer => ?_⟩, hpos⟩
  · rw [hq]
    exact h.bound x (hm ▸ hx)
  · rw [hpos] at hle
    exact hr consumer x (h.settled scope roomId consumer x (hx.congr hm.symm) hle)
  · rw [hpos]
    exact (h.seated scope roomId consumer).imp id (fun ⟨x, hx, hseq⟩ => ⟨x, hx.congr hm, hseq⟩)

theorem Write.cursored (hw : Write P c E s s') (h : Cursored s) :
    Cursored s' ∧ ∀ scope roomId consumer,
      s.position scope roomId consumer ≤ s'.position scope roomId consumer := by
  have framed (hm : s'.mail.messages = s.mail.messages)
      (hq : s'.mail.lastSequence = s.mail.lastSequence)
      (hr : ∀ consumer x, s.mail.acknowledged consumer x = true →
        s'.mail.acknowledged consumer x = true)
      (hl : s'.ledger.cursors = s.ledger.cursors) :
      Cursored s' ∧ ∀ scope roomId consumer,
        s.position scope roomId consumer ≤ s'.position scope roomId consumer := by
    obtain ⟨hc, hp⟩ := h.frame hm hq hr hl
    exact ⟨hc, fun scope roomId consumer => Nat.le_of_eq (hp scope roomId consumer).symm⟩
  have grown (hc : Cursored s') (hl : s'.ledger = s.ledger) :
      Cursored s' ∧ ∀ scope roomId consumer,
        s.position scope roomId consumer ≤ s'.position scope roomId consumer :=
    ⟨hc, fun scope roomId consumer => by rw [Store.position, Store.position, hl]⟩
  cases hw with
  | event _ he =>
    obtain ⟨hm, -, hl⟩ := Store.event_frame he
    exact framed (by rw [hm]) (by rw [hm]) (fun _ _ ha => by rw [hm]; exact ha) (by rw [hl])
  | insert _ hi =>
    obtain ⟨hi, -, hl⟩ := insertReserved_ok hi
    exact grown (h.inserted hi hl) hl
  | fanout _ hr hi =>
    obtain ⟨hm, -, hl⟩ := Store.reserve_frame hr
    obtain ⟨hi, -, hl'⟩ := insertAll_ok hi
    exact grown (h.inserted (hm ▸ hi) (hl'.trans hl)) (hl'.trans hl)
  | receipt r =>
    exact framed (Mail.ignoreReceipt_messages _ _) (Mail.ignoreReceipt_lastSequence _ _)
      (fun _ _ ha => acknowledged_ignoreReceipt r ha) rfl
  | advance roomId now => exact h.putCursor now h.scan
  | acknowledge roomId now => exact h.putCursor now Store.window_reaches
  | mail hm hq hr =>
    refine framed hm hq (fun consumer x ha => ?_) rfl
    rw [← ha]
    exact acknowledged_congr hr
  | rooms r => exact framed rfl rfl (fun _ _ ha => ha) rfl
  | routeReceipt _ _ _ now =>
    exact framed rfl rfl (fun _ _ ha => ha) (ledger_ignoreRouteReceipt_frame _ _).1
  | trusted row => exact framed rfl rfl (fun _ _ ha => ha) rfl
  | ledger hl => exact framed rfl rfl (fun _ _ ha => ha) hl

theorem Writes.cursored (hw : Writes P c E s s') (h : Cursored s) :
    Cursored s' ∧ ∀ scope roomId consumer,
      s.position scope roomId consumer ≤ s'.position scope roomId consumer := by
  induction hw with
  | refl => exact ⟨h, fun _ _ _ => Nat.le_refl _⟩
  | tail _ hlast ih =>
    obtain ⟨hc, hle⟩ := hlast.cursored ih.1
    exact ⟨hc, fun scope roomId consumer =>
      Nat.le_trans (ih.2 scope roomId consumer) (hle scope roomId consumer)⟩

theorem perform_cursored {call : Call} {r : Reply} (h : Cursored s)
    (hp : perform P c s call = .ok (s', r)) : Cursored s' ∧ ∀ scope roomId consumer,
      s.position scope roomId consumer ≤ s'.position scope roomId consumer := by
  rcases perform_writes hp with ⟨-, rfl⟩ | hw
  · have hframe : Cursored (initDb P c s) ∧ ∀ scope roomId consumer,
        (initDb P c s).position scope roomId consumer = s.position scope roomId consumer :=
      h.frame rfl rfl (fun _ _ ha => ha) rfl
    obtain ⟨hc, hpos⟩ := hframe
    exact ⟨hc, fun scope roomId consumer => Nat.le_of_eq (hpos scope roomId consumer).symm⟩
  · exact Writes.cursored hw h

end Moving

section Calls
variable {P : Platform} {c : Ctx} {s s' : Store}

theorem acknowledge_cursored (source : MessageRow) (route : RouteEvaluation) (now : Utc)
    (h : Cursored s) : Cursored (s.acknowledge P c source route now) ∧
      ∀ scope roomId consumer, (s.acknowledge P c source route now).position scope roomId consumer =
        s.position scope roomId consumer := by
  refine h.frame ?_ ?_ (fun consumer x ha => ?_) ?_
  · exact Mail.ignoreReceipt_messages _ _
  · exact Mail.ignoreReceipt_lastSequence _ _
  · exact acknowledged_ignoreReceipt _ ha
  · exact acknowledge_cursors source route now

theorem putCursor_atFrontier {n : Nat} {room : String} {old : Nat} (now : Utc) (h : Cursored s)
    (hold : s.position c.self.scope room c.self.agentId = old)
    (hr : s.Reaches c.self.scope room c.self.agentId n)
    (hm : s'.mail.messages = s.mail.messages) (hrec : s'.mail.receipts = s.mail.receipts)
    (hl : s'.ledger.cursors = (s.putCursor c room n now).ledger.cursors) :
    s'.position c.self.scope room c.self.agentId = n ∧
      AtFrontier s'.mail c.self.scope room c.self.agentId old n := by
  constructor
  · have hp : (s.putCursor c room n now).position c.self.scope room c.self.agentId = n := by
      rw [position_putCursor, if_pos ⟨rfl, rfl, rfl⟩]
    rw [← hp, Store.position, consumerCursor, hl, Store.position, consumerCursor]
  · rw [← hold]
    exact (h.atFrontier hr).congr hm hrec

theorem ackMessage_frontier {a : AckArgs} {n : Nat} (h : Cursored s)
    (ha : ackMessage P c a s = .ok (s', n)) :
    ∃ row, s.mail.message? c.self.scope (strip a.messageId) = some row ∧
      s'.position c.self.scope (strip row.roomId) c.self.agentId = n ∧
      AtFrontier s'.mail c.self.scope (strip row.roomId) c.self.agentId
        (s.position c.self.scope (strip row.roomId) c.self.agentId) n := by
  simp only [ackMessage, bind_eq_ok, require_eq_ok, demand_eq_ok, pure_eq_ok, Prod.mk.injEq] at ha
  obtain ⟨id, hid, consumer, -, row, hrow, -, -, roomId, hroom, -, -, -, -, ⟨s₁, chain⟩, he, rfl,
    rfl⟩ := ha
  obtain ⟨rfl, -⟩ := requireIdentifier_ok hid
  obtain ⟨rfl, -⟩ := requireIdentifier_ok hroom
  obtain ⟨hm, -, hl⟩ := Store.event_frame he
  obtain ⟨hc, hp⟩ := acknowledge_cursored (P := P) (c := c) row
    (evaluateRoute P c.self consumer s.rooms row) (utcNow c.clock.locked) h
  refine ⟨row, hrow, ?_⟩
  exact putCursor_atFrontier (utcNow c.clock.locked) hc
    (hp c.self.scope (strip row.roomId) c.self.agentId) Store.window_reaches (by rw [hm]; rfl)
    (by rw [hm]; rfl) (by rw [hl]; rfl)

theorem completeMessageDispatch_frontier {a : CompleteArgs} {x : Completion} (h : Cursored s)
    (ha : completeMessageDispatch P c a s = .ok (s', x)) (hx : x.replay = false) :
    ∃ source, s.mail.message? c.self.scope (strip a.messageId) = some source ∧
      AtFrontier s'.mail c.self.scope source.roomId c.self.agentId
        (s.position c.self.scope source.roomId c.self.agentId)
        (s'.position c.self.scope source.roomId c.self.agentId) := by
  simp only [completeMessageDispatch, bind_eq_ok] at ha
  obtain ⟨q, hq, row, -, ha⟩ := ha
  have hqid : q.messageId = strip a.messageId := by
    simp only [requireComplete, bind_eq_ok, pure_eq_ok] at hq
    obtain ⟨id, hid, body, -, sha, -, usage, -, rfl⟩ := hq
    exact (requireIdentifier_ok hid).1
  split at ha
  · simp only [pure_eq_ok, Prod.mk.injEq] at ha
    obtain ⟨-, rfl⟩ := ha
    simp at hx
  · simp only [bind_eq_ok, pure_eq_ok, Prod.mk.injEq, requireSource, demand_eq_ok] at ha
    obtain ⟨_, ⟨source, hsource, -, -, rfl⟩, -, -, -, -, -, -, -, -, subject, -, ⟨s₁, reply⟩, hi, -,
      -, ⟨s₂, chain₂⟩, he₂, ⟨s₃, chain₃⟩, he₃, rfl, -⟩ := ha
    obtain ⟨hm₂, -, hl₂⟩ := Store.event_frame he₂
    obtain ⟨hm₃, -, hl₃⟩ := Store.event_frame he₃
    obtain ⟨hi, -, hl₁⟩ := insertReserved_ok hi
    have hc₁ := h.inserted hi hl₁
    obtain ⟨hc, hp⟩ := acknowledge_cursored (P := P) (c := c) source
      (evaluateRoute P c.self c.self.agentId s.rooms source) (utcNow c.clock.locked) hc₁
    have hold := hp c.self.scope source.roomId c.self.agentId
    have hunmoved : s₁.position c.self.scope source.roomId c.self.agentId =
        s.position c.self.scope source.roomId c.self.agentId := by
      rw [Store.position, hl₁, Store.position]
    rw [hunmoved] at hold
    have hmoved : s₃.position c.self.scope source.roomId c.self.agentId = _ ∧
        AtFrontier s₃.mail c.self.scope source.roomId c.self.agentId _ _ :=
      putCursor_atFrontier (utcNow c.clock.locked) hc hold hc.scan (by rw [hm₃, hm₂]; rfl)
        (by rw [hm₃, hm₂]; rfl) (by rw [hl₃, hl₂]; rfl)
    refine ⟨source, hqid ▸ hsource, ?_⟩
    rw [hmoved.1]
    exact hmoved.2

end Calls

theorem reachable_cursored {P : Platform} {w : World} (h : (mailbox P).Reachable w) :
    Cursored w.store := by
  refine h.invariant (fun w => Cursored w.store) ?_ (fun w i hw _ => ?_)
  · rintro w ⟨connections, now, rfl⟩
    refine ⟨List.Pairwise.nil, ?_, ?_, ?_, fun _ _ _ => .inl rfl⟩
    · exact fun x hx => by simp [World.initial, Store.initial, Mail.empty] at hx
    · exact fun x hx => by simp [World.initial, Store.initial, Mail.empty] at hx
    · exact fun _ _ _ x hx => by simpa [World.initial, Store.initial, Mail.empty] using hx.stored
  · show Cursored (attempt P w i).1.store
    cases hp : perform P i.2 w.store i.1 with
    | error e => simpa [attempt, hp] using hw
    | ok r => simpa [attempt, hp] using (perform_cursored hw hp).1

theorem cursors_never_skip {P : Platform} {w : World} (h : (mailbox P).Reachable w) :
    (∀ scope roomId consumer x, Inbox w.store.mail scope roomId consumer x →
      x.sequence ≤ w.store.position scope roomId consumer →
      (w.store.mail.receipt? scope x.messageId consumer).isSome = true) ∧
    (∀ i scope roomId consumer, w.store.position scope roomId consumer ≤
      ((mailbox P).exec w i).1.store.position scope roomId consumer) ∧
    (∀ a c s n, ackMessage P c a w.store = .ok (s, n) →
      ∃ row, w.store.mail.message? c.self.scope (strip a.messageId) = some row ∧
        s.position c.self.scope (strip row.roomId) c.self.agentId = n ∧
        AtFrontier s.mail c.self.scope (strip row.roomId) c.self.agentId
          (w.store.position c.self.scope (strip row.roomId) c.self.agentId) n) ∧
    (∀ a c s x, completeMessageDispatch P c a w.store = .ok (s, x) → x.replay = false →
      ∃ source, w.store.mail.message? c.self.scope (strip a.messageId) = some source ∧
        AtFrontier s.mail c.self.scope source.roomId c.self.agentId
          (w.store.position c.self.scope source.roomId c.self.agentId)
          (s.position c.self.scope source.roomId c.self.agentId)) ∧
    (∀ m : Mail, m.messages.Pairwise (fun x y => x.sequence < y.sequence) →
      ∀ scope roomId consumer current, acknowledgedCursor scope roomId consumer current m =
        advancedCursor scope roomId consumer current m) := by
  have hc := reachable_cursored h
  refine ⟨fun scope roomId consumer x hx hle => ?_, fun i scope roomId consumer => ?_,
    fun a c s n ha => ackMessage_frontier hc ha,
    fun a c s x ha hx => completeMessageDispatch_frontier hc ha hx,
    fun m hm scope roomId consumer current => acknowledgedCursor_eq hm⟩
  · have hack := hc.settled scope roomId consumer x hx hle
    rwa [Mail.acknowledged, hx.scope_eq] at hack
  · show _ ≤ (attempt P w i).1.store.position scope roomId consumer
    cases hp : perform P i.2 w.store i.1 with
    | error e => simp [attempt, hp]
    | ok r => simpa [attempt, hp] using (perform_cursored hc hp).2 scope roomId consumer

def acknowledgedBroadcast : List (Call × Ctx) :=
  asHuman 1 [.openScope,
    .sendMessage { recipient := "*", taskId := "t", subject := "s", body := "hello" }] ++
  [(.ack { messageId := sampleMessage 1 }, sampleCtx (sampleAgent "a") 3)]

set_option maxRecDepth 100000 in
theorem cursors_never_skip_acknowledged :
    ∃ w : World, w.store.position "demo" "lobby" "a" = 1 ∧
      ∀ x, Inbox w.store.mail "demo" "lobby" "a" x → x.sequence ≤ 1 →
        (w.store.mail.receipt? "demo" x.messageId "a").isSome = true := by
  have hcheck : (mailbox samplePlatform).AdmitsAll sampleWorld acknowledgedBroadcast ∧
      ((mailbox samplePlatform).play sampleWorld acknowledgedBroadcast).1.store.position
        "demo" "lobby" "a" = 1 := by decide +kernel
  obtain ⟨hopen, hposition⟩ := hcheck
  have hreach : (mailbox samplePlatform).Reachable
      ((mailbox samplePlatform).play sampleWorld acknowledgedBroadcast).1 :=
    ⟨sampleWorld, _, ⟨[], 0, rfl⟩, Machine.run_play _ _ hopen⟩
  generalize ((mailbox samplePlatform).play sampleWorld acknowledgedBroadcast).1 = w at *
  have hall := (cursors_never_skip hreach).1 "demo" "lobby" "a"
  exact ⟨w, hposition, fun x hx hle => hall x hx (hposition ▸ hle)⟩

end PeerBridge
