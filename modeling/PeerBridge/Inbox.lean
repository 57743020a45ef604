import PeerBridge.Permanence
import PeerBridge.Cursors
import PeerBridge.Lib.Paging

namespace PeerBridge
open Checked Rows

structure PollArgs where
  roomId : String := defaultRoomId
  agentId : Option String := none
  limit : Int := 50
  includeSent : Bool := false
  afterCursor : Option Int := none

structure PolledMessage where
  row : MessageRow
  acknowledged : Bool
  routeRequest : Option RouteRequest
  routeEvaluation : RouteEvaluation

structure Page where
  messages : List PolledMessage
  roomId : String
  storedCursor : Nat
  requestedCursor : Int
  nextCursor : Int

def PollArgs.pageSize (a : PollArgs) : Nat := (max 1 (min a.limit 500)).toNat

def visibleIn (scope roomId consumer : String) (includeSent : Bool) (x : MessageRow) : Bool :=
  x.scope = scope && x.roomId = roomId &&
    (addressedTo x consumer || (includeSent && x.sender = consumer))

def MessageRow.position (x : MessageRow) : Int := x.sequence

def polledMessage (P : Platform) (c : Ctx) (consumer : String) (s : Store) (x : MessageRow) :
    PolledMessage :=
  { row := x, acknowledged := s.mail.acknowledged consumer x,
    routeRequest := routeRequestFromRow x,
    routeEvaluation := evaluateRoute P c.self consumer s.rooms x }

def pollMessages (P : Platform) (c : Ctx) (a : PollArgs) (s : Store) :
    Except BridgeError Page := do
  let roomId ← requireIdentifier a.roomId "room_id"
  let consumer ← boundConsumer c.self a.agentId
  requireRoomMember c.self roomId consumer s.rooms
  let stored := consumerCursor c.self.scope ("messages:" ++ roomId) consumer s.ledger
  let cursor := a.afterCursor.getD stored
  let rows := (s.mail.messages.filter (fun x =>
    visibleIn c.self.scope roomId consumer a.includeSent x && cursor < x.position)).take a.pageSize
  pure { messages := rows.map (polledMessage P c consumer s), roomId, storedCursor := stored,
         requestedCursor := cursor,
         nextCursor := (rows.getLast?.map MessageRow.position).getD cursor }

/-- A reader that polls on from its last page while any other calls run. -/
inductive Reading (P : Platform) (self : Bridge) (roomId : String) (sent : Bool) (w : World)
    (n : Int) : World → List PolledMessage → Int → Prop
  | start : Reading P self roomId sent w n w [] n
  | others {v v' : World} {got : List PolledMessage} {k : Int} {tr : Trace} :
      Reading P self roomId sent w n v got k → (mailbox P).Run v tr v' →
      Reading P self roomId sent w n v' got k
  | poll {v : World} {got : List PolledMessage} {k : Int} {c : Ctx} {a : PollArgs} {page : Page} :
      Reading P self roomId sent w n v got k → c.self = self → a.roomId = roomId →
      a.includeSent = sent → a.afterCursor = some k → pollMessages P c a v.store = .ok page →
      Reading P self roomId sent w n v (got ++ page.messages) page.nextCursor

section Polls
variable {P : Platform} {c : Ctx} {a : PollArgs} {s : Store} {page : Page}

theorem boundConsumer_self {b : Bridge} {o : Option String} {consumer : String}
    (h : boundConsumer b o = .ok consumer) : consumer = b.agentId := by
  unfold boundConsumer at h
  split at h
  · exact (pure_eq_ok.mp h).symm
  · simp only [bind_eq_ok, require_eq_ok, pure_eq_ok] at h
    obtain ⟨_, -, -, hsame, rfl⟩ := h
    exact hsame

theorem pollMessages_ok (h : pollMessages P c a s = .ok page) :
    page.messages.map PolledMessage.row =
      Paging.page MessageRow.position
        (visibleIn c.self.scope (strip a.roomId) c.self.agentId a.includeSent)
        page.requestedCursor a.pageSize s.mail.messages ∧
    page.nextCursor = Paging.next MessageRow.position page.requestedCursor
      (page.messages.map PolledMessage.row) ∧
    page.requestedCursor =
      a.afterCursor.getD (s.position c.self.scope (strip a.roomId) c.self.agentId) := by
  simp only [pollMessages, bind_eq_ok, pure_eq_ok] at h
  obtain ⟨roomId, hroom, consumer, hconsumer, -, -, rfl⟩ := h
  obtain rfl := (requireIdentifier_ok hroom).1
  obtain rfl := boundConsumer_self hconsumer
  have hrows : ∀ xs : List MessageRow,
      (xs.map (polledMessage P c c.self.agentId s)).map PolledMessage.row = xs := by
    intro xs
    rw [List.map_map]
    exact List.map_id xs
  refine ⟨?_, ?_, rfl⟩
  · rw [hrows]
    rfl
  · rw [hrows]
    rfl

end Polls

section Runs
variable {P : Platform} {self : Bridge} {roomId : String} {sent : Bool} {w w' : World}
  {n k : Int} {got : List PolledMessage}

theorem Reading.reachable (hr : Reading P self roomId sent w n w' got k)
    (h : (mailbox P).Reachable w) : (mailbox P).Reachable w' := by
  induction hr with
  | start => exact h
  | others _ hrun ih => exact ih.run hrun
  | poll _ _ _ _ _ _ ih => exact ih

theorem Reading.read (hr : Reading P self roomId sent w n w' got k) :
    Paging.Read MessageRow.position (visibleIn self.scope (strip roomId) self.agentId sent) n
      w'.store.mail.messages (got.map PolledMessage.row) k := by
  induction hr with
  | start => exact .start _
  | others _ hrun ih => exact ih.grow (run_extends hrun).messages
  | @poll v got k c a page _ hself hroom hsent hcursor hpoll ih =>
    obtain ⟨hrows, hnext, hfrom⟩ := pollMessages_ok hpoll
    rw [hcursor, Option.getD_some] at hfrom
    rw [hfrom, hself, hroom, hsent] at hrows
    rw [hfrom, hrows] at hnext
    rw [List.map_append, hrows, hnext]
    exact ih.turn a.pageSize

theorem messages_sorted (h : (mailbox P).Reachable w) :
    Paging.Sorted MessageRow.position w.store.mail.messages :=
  (reachable_cursored h).sorted.imp Int.ofNat_lt.mpr

theorem between_filter (keep : MessageRow → Bool) (xs : List MessageRow) :
    Paging.between MessageRow.position keep n k xs = xs.filter (fun x =>
      keep x && decide (n < x.position) && decide (x.position ≤ k)) := by
  rw [Paging.between, Paging.after, List.filter_filter]
  exact List.filter_congr (fun x _ => Bool.and_comm _ _)

theorem Inbox.visible {m : Mail} {x : MessageRow}
    (hx : Inbox m self.scope roomId self.agentId x) :
    visibleIn self.scope roomId self.agentId sent x = true := by
  rw [visibleIn, hx.addressed, decide_eq_true hx.scope_eq, decide_eq_true hx.room_eq]
  rfl

/-- Reading page after page misses nothing, repeats nothing and keeps the order. -/
theorem pages_exact (h : (mailbox P).Reachable w)
    (hr : Reading P self roomId sent w n w' got k) :
    n ≤ k ∧
    got.map PolledMessage.row = w'.store.mail.messages.filter (fun x =>
      visibleIn self.scope (strip roomId) self.agentId sent x && decide (n < x.position) &&
        decide (x.position ≤ k)) ∧
    (∀ x, Inbox w'.store.mail self.scope (strip roomId) self.agentId x →
      n ≤ w'.store.position self.scope (strip roomId) self.agentId → x.position ≤ k →
      w'.store.mail.acknowledged self.agentId x = true ∨ x ∈ got.map PolledMessage.row) ∧
    (∀ c a page, c.self = self → a.roomId = roomId → a.includeSent = sent →
      a.afterCursor = some k → pollMessages P c a w'.store = .ok page →
      page.messages.length < a.pageSize →
      (got ++ page.messages).map PolledMessage.row = w'.store.mail.messages.filter (fun x =>
        visibleIn self.scope (strip roomId) self.agentId sent x && decide (n < x.position))) := by
  have hread := hr.read
  have hsorted := messages_sorted (hr.reachable h)
  obtain ⟨hle, hgot, -⟩ := hread.exact hsorted
  refine ⟨hle, hgot.trans (between_filter _ _), fun x hx hn hk => ?_,
    fun c a page hself hroom hsent hcursor hpoll hshort => ?_⟩
  · by_cases hnew : n < x.position
    · rw [hgot]
      exact .inr (Paging.mem_between.mpr ⟨hx.stored, hx.visible, hnew, hk⟩)
    · have hbehind := Int.ofNat_le.mp ((not_lt.mp hnew).trans hn)
      exact .inl ((reachable_cursored (hr.reachable h)).settled _ _ _ x hx hbehind)
  · obtain ⟨hrows, -, hfrom⟩ := pollMessages_ok hpoll
    rw [hcursor, Option.getD_some] at hfrom
    rw [hfrom, hself, hroom, hsent] at hrows
    rw [← List.length_map PolledMessage.row, hrows] at hshort
    rw [List.map_append, hrows]
    exact hread.caught_up hsorted hshort

end Runs

def nextPage (cursor : Int) : PollArgs := { limit := 1, afterCursor := some cursor }

def readerCtx : Ctx := sampleCtx (sampleAgent "a") 5

def pageEnd (cursor : Int) (w : World) : Option Int :=
  (pollMessages samplePlatform readerCtx (nextPage cursor) w.store).toOption.map Page.nextCursor

theorem exists_page {cursor k : Int} {w : World} (h : pageEnd cursor w = some k) :
    ∃ page, pollMessages samplePlatform readerCtx (nextPage cursor) w.store = .ok page ∧
      page.nextCursor = k := by
  unfold pageEnd at h
  cases hp : pollMessages samplePlatform readerCtx (nextPage cursor) w.store with
  | error e =>
    rw [hp] at h
    cases h
  | ok page =>
    rw [hp] at h
    exact ⟨page, rfl, Option.some.inj h⟩

set_option maxRecDepth 100000 in
theorem pages_exact_answered : ∃ got, Reading samplePlatform (sampleAgent "a") defaultRoomId false
      noticedWorld 0 answeredWorld got 2 ∧
    got.map PolledMessage.row = answeredWorld.store.mail.messages.filter (fun x =>
      visibleIn "demo" (strip defaultRoomId) "a" false x && decide (0 < x.position) &&
        decide (x.position ≤ 2)) := by
  have hends : pageEnd 0 noticedWorld = some 1 ∧ pageEnd 1 answeredWorld = some 2 := by
    decide +kernel
  obtain ⟨first, hfirst, hk⟩ := exists_page hends.1
  obtain ⟨second, hsecond, hk'⟩ := exists_page hends.2
  have hread : Reading samplePlatform (sampleAgent "a") defaultRoomId false noticedWorld 0
      answeredWorld (([] ++ first.messages) ++ second.messages) 2 := by
    rw [← hk']
    refine .poll ?_ rfl rfl rfl rfl hsecond
    rw [← hk]
    exact .others (.poll .start rfl rfl rfl rfl hfirst) answered_run
  exact ⟨_, hread, (pages_exact noticed_reachable hread).2.1⟩

end PeerBridge
