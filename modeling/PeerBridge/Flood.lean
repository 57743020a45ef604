import Mathlib.Tactic.Linarith
import PeerBridge.Starvation

namespace PeerBridge.Starvation
open Checked Rows

theorem uuid_ofNat_inj {a b : Nat} (ha : a < 16 ^ 32) (hb : b < 16 ^ 32)
    (h : (Uuid.ofNat a).text = (Uuid.ofNat b).text) : a = b := by
  have hnumber : ∀ n, n < 16 ^ 32 → hexNumber (Uuid.ofNat n).text.toList = n := by
    intro n hn
    rw [Uuid.ofNat, String.toList_ofList, hexNumber, hexNumber_hexText, Nat.zero_mul, Nat.zero_add,
      Nat.mod_eq_of_lt hn]
  rw [← hnumber a ha, h, hnumber b hb]

-- a store of at most k entries written by the sample contexts
structure Light (k : Nat) (s : Store) : Prop where
  sequence : s.mail.lastSequence ≤ k
  event : s.audit.lastEvent ≤ k
  messages : ∀ m ∈ s.mail.messages, ∃ i ≤ s.mail.lastSequence,
    m.messageId = (Uuid.ofNat (2000 + i)).text
  events : ∀ e ∈ s.audit.events, ∃ i ≤ s.audit.lastEvent,
    e.eventId = (Uuid.ofNat (100000 + i)).text
  messageRows : (s.audit.tally "demo").messageRows ≤ k
  messageBytes : (s.audit.tally "demo").messageBytes ≤ 1024 * k
  eventRows : (s.audit.tally "demo").eventRows ≤ k
  eventBytes : (s.audit.tally "demo").eventBytes ≤ 1024 * k

section Totality
variable {P : Platform} {c : Ctx} {n k : Nat} {a : Audit}

theorem reserveMessageStorage_total (hk : 1 ≤ k)
    (hrows : (a.tally c.self.scope).messageRows + k ≤ maxScopeMessageRows)
    (hbytes : (a.tally c.self.scope).messageBytes + n ≤ maxScopeMessageBytes) :
    ∃ a', reserveMessageStorage c k n a = .ok a' := by
  rw [← a.usage_tally c.self.scope (utcNow c.clock.locked)] at hrows hbytes
  exact ⟨_, bind_eq_ok.mpr ⟨(), require_eq_ok.mpr hk,
    bind_eq_ok.mpr ⟨(), require_eq_ok.mpr ⟨hrows, hbytes⟩, rfl⟩⟩⟩

theorem reserveEventStorage_total
    (hrows : (a.tally c.self.scope).eventRows + 1 ≤ maxScopeEventRows)
    (hbytes : (a.tally c.self.scope).eventBytes + n ≤ maxScopeEventBytes) :
    ∃ a', reserveEventStorage c n a = .ok a' := by
  rw [← a.usage_tally c.self.scope (utcNow c.clock.locked)] at hrows hbytes
  exact ⟨_, bind_eq_ok.mpr ⟨(), require_eq_ok.mpr ⟨hrows, hbytes⟩, rfl⟩⟩

theorem event_total (ty : String) (payload : List (String × Json)) (task : Option String)
    (hrows : (a.tally c.self.scope).eventRows + 1 ≤ maxScopeEventRows)
    (hbytes : (a.tally c.self.scope).eventBytes + P.encodedBytes (eventPayload c payload) ≤
      maxScopeEventBytes)
    (hfresh : ∀ e ∈ a.events, e.eventId ≠ (c.eventUuid (a.lastEvent + 1)).text) :
    ∃ x, event P c ty payload task a = .ok x := by
  obtain ⟨a', ha⟩ := reserveEventStorage_total (c := c) hrows hbytes
  exact ⟨_, bind_eq_ok.mpr ⟨a', ha, bind_eq_ok.mpr ⟨(), require_eq_ok.mpr hfresh, rfl⟩⟩⟩

theorem event_named {ty : String} {payload : List (String × Json)} {task : Option String}
    {a' : Audit} {chain : Sha256} (h : event P c ty payload task a = .ok (a', chain)) :
    ∃ a₁ row, reserveEventStorage c (P.encodedBytes (eventPayload c payload)) a = .ok a₁ ∧
      row.eventId = (c.eventUuid (a.lastEvent + 1)).text ∧
      a' = { a₁ with events := a.events ++ [row], lastEvent := a.lastEvent + 1 } := by
  simp only [event, bind_eq_ok, require_eq_ok, pure_eq_ok, Prod.mk.injEq] at h
  obtain ⟨a₁, hr, -, -, rfl, -⟩ := h
  refine ⟨a₁, _, hr, ?_, rfl⟩
  rfl

end Totality

-- a human at the desk writes one message after the other
def floodContext (second : Nat) : Ctx := sampleCtx sampleHuman second

section Writing
variable {k : Nat} {s : Store}

theorem Light.reserve (h : Light k s) (hk : k < 1000) (second : Nat) :
    ∃ a, s.reserve (floodContext second) 1 1024 = .ok (s.withAudit a) ∧
      a.events = s.audit.events ∧ a.lastEvent = s.audit.lastEvent ∧
      a.tally "demo" = { s.audit.tally "demo" with
        messageRows := (s.audit.tally "demo").messageRows + 1,
        messageBytes := (s.audit.tally "demo").messageBytes + 1024 } := by
  have hrows := h.messageRows
  have hbytes := h.messageBytes
  obtain ⟨a, ha⟩ := reserveMessageStorage_total (c := floodContext second) (n := 1024) (k := 1)
    (a := s.audit) le_rfl
    (show (s.audit.tally "demo").messageRows + 1 ≤ 200000 by omega)
    (show (s.audit.tally "demo").messageBytes + 1024 ≤ 256 * 1024 * 1024 by omega)
  obtain ⟨he, hl, ht, -⟩ := reserveMessageStorage_ok ha
  refine ⟨a, ?_, he, hl, (ht "demo").trans (if_pos rfl)⟩
  simp [Store.reserve, ha, bind, Except.bind, pure, Except.pure]

theorem Light.fresh_message (h : Light k s) (hk : k < 1000) :
    ∀ m ∈ s.mail.messages, m.messageId ≠ (Uuid.ofNat (2000 + (s.mail.lastSequence + 1))).text := by
  intro m hm he
  obtain ⟨i, hi, hid⟩ := h.messages m hm
  have hle := h.sequence
  have := uuid_ofNat_inj (by omega) (by omega) (hid.symm.trans he)
  omega

theorem Light.fresh_event (h : Light k s) (hk : k < 1000) :
    ∀ e ∈ s.audit.events, e.eventId ≠ (Uuid.ofNat (100000 + (s.audit.lastEvent + 1))).text := by
  intro e he hsame
  obtain ⟨i, hi, hid⟩ := h.events e he
  have hle := h.event
  have := uuid_ofNat_inj (by omega) (by omega) (hid.symm.trans hsame)
  omega

-- one message and its event
theorem Light.write (h : Light k s) (hk : k < 1000) (second : Nat) (d : Draft) (ty : String)
    (payload : MessageRow → List (String × Json)) (task : Option String) :
    let row := d.row samplePlatform "demo" (Uuid.ofNat (2000 + (s.mail.lastSequence + 1))).text
      (s.mail.lastSequence + 1)
    ∃ s₁ s' chain, insertReserved samplePlatform (floodContext second) d s = .ok (s₁, row) ∧
      s₁.event samplePlatform (floodContext second) ty (payload row) task = .ok (s', chain) ∧
      Light (k + 1) s' ∧ s'.rooms = s.rooms ∧ s'.mail = s.mail.addMessages [row] := by
  intro row
  obtain ⟨a, ha, hevents, hlast, htally⟩ := h.reserve hk second
  have hinsert : insertReserved samplePlatform (floodContext second) d s =
      .ok ((s.withAudit a).withMail (s.mail.addMessages [row]), row) := by
    refine bind_eq_ok.mpr ⟨s.withAudit a, ha, bind_eq_ok.mpr ⟨(), require_eq_ok.mpr ?_, rfl⟩⟩
    exact h.fresh_message hk
  have hrows := h.eventRows
  have hbytes := h.eventBytes
  have hmrows := h.messageRows
  have hmbytes := h.messageBytes
  obtain ⟨⟨a', chain⟩, hx⟩ := event_total (P := samplePlatform) (c := floodContext second) (a := a)
    ty (payload row) task
    (show (a.tally "demo").eventRows + 1 ≤ 1000000 by rw [htally]; simp only; omega)
    (show (a.tally "demo").eventBytes + 1024 ≤ 1024 * 1024 * 1024 by rw [htally]; simp only; omega)
    (by rw [hevents, hlast]; exact h.fresh_event hk)
  obtain ⟨a₁, e, hreserve, hid, rfl⟩ := event_named hx
  obtain ⟨-, -, ht, -⟩ := reserveEventStorage_ok hreserve
  have ht : a₁.tally "demo" = { a.tally "demo" with
      eventRows := (a.tally "demo").eventRows + 1,
      eventBytes := (a.tally "demo").eventBytes + 1024 } := (ht "demo").trans (if_pos rfl)
  have htally' : a₁.tally "demo" =
      { messageRows := (s.audit.tally "demo").messageRows + 1,
        messageBytes := (s.audit.tally "demo").messageBytes + 1024,
        eventRows := (s.audit.tally "demo").eventRows + 1,
        eventBytes := (s.audit.tally "demo").eventBytes + 1024 } := by rw [ht, htally]
  refine ⟨_, _, chain, hinsert, bind_eq_ok.mpr ⟨_, hx, rfl⟩, ?_, rfl, rfl⟩
  have hsequence := h.sequence
  have hevent := h.event
  refine ⟨Nat.succ_le_succ hsequence, ?_, fun m hm => ?_, fun x hx => ?_, ?_, ?_, ?_, ?_⟩
  · show a.lastEvent + 1 ≤ k + 1
    omega
  · rcases List.mem_append.mp hm with hm | hm
    · obtain ⟨i, hi, hid⟩ := h.messages m hm
      exact ⟨i, Nat.le_succ_of_le hi, hid⟩
    · obtain rfl := List.mem_singleton.mp hm
      exact ⟨_, le_rfl, rfl⟩
  · rcases List.mem_append.mp hx with hx | hx
    · rw [hevents] at hx
      obtain ⟨i, hi, hid⟩ := h.events x hx
      exact ⟨i, hi.trans (hlast ▸ Nat.le_succ _), hid⟩
    · obtain rfl := List.mem_singleton.mp hx
      exact ⟨_, le_rfl, hid⟩
  · show (a₁.tally "demo").messageRows ≤ k + 1
    rw [htally']
    exact Nat.succ_le_succ hmrows
  · show (a₁.tally "demo").messageBytes ≤ 1024 * (k + 1)
    rw [htally']
    show (s.audit.tally "demo").messageBytes + 1024 ≤ 1024 * (k + 1)
    omega
  · show (a₁.tally "demo").eventRows ≤ k + 1
    rw [htally']
    exact Nat.succ_le_succ hrows
  · show (a₁.tally "demo").eventBytes ≤ 1024 * (k + 1)
    rw [htally']
    show (s.audit.tally "demo").eventBytes + 1024 ≤ 1024 * (k + 1)
    omega

def note (roomId recipient : String) : SendArgs :=
  { roomId, recipient, taskId := "t", subject := "s", body := "b" }

def noteDraft (roomId recipient : String) (second : Nat) : Draft :=
  { roomId, taskId := "t", sender := humanOperatorId, recipient, subject := "s", body := "b",
    priority := "normal", visibility := if recipient = "*" then .room else .direct,
    createdUtc := utcNow (floodContext second).clock.locked }

def noteRow (roomId recipient : String) (second sequence : Nat) : MessageRow :=
  (noteDraft roomId recipient second).row samplePlatform "demo" (Uuid.ofNat (2000 + sequence)).text
    sequence

theorem send_note (roomId recipient : String) (second : Nat) (h : Light k s) (hk : k < 1000)
    (hroom : requireIdentifier roomId "room_id" = .ok roomId)
    (hto : requireRecipient recipient = .ok recipient)
    (hmember : requireRoomMember sampleHuman roomId humanOperatorId s.rooms = .ok ())
    (hopen : roomId = defaultRoomId ∨ recipient = "*") :
    ∃ s' row, sendMessage samplePlatform (floodContext second) (note roomId recipient) s =
        .ok (s', row) ∧ Light (k + 1) s' ∧ s'.rooms = s.rooms ∧
      s'.mail = s.mail.addMessages [noteRow roomId recipient second (s.mail.lastSequence + 1)] := by
  obtain ⟨s₁, s', chain, hinsert, hevent, hlight, hrooms, hmail⟩ := h.write hk second
    (noteDraft roomId recipient second) "message.sent"
    (fun row => [("message_id", .str row.messageId), ("room_id", .str roomId),
      ("sequence", .int row.sequence), ("content_sha256", .sha row.contentSha256),
      ("route_request_sha256", .optSha row.routeRequestSha256),
      ("route_profile_sha256", .optSha row.routeProfileSha256)]) (some "t")
  have hrequest : resolveRouteRequest samplePlatform "demo" recipient {} s.rooms = .ok none := rfl
  refine ⟨s', noteRow roomId recipient second (s.mail.lastSequence + 1), ?_, hlight, hrooms, hmail⟩
  have hvisible : ¬ (roomId ≠ defaultRoomId ∧ recipient ≠ "*") ∨
      (s.rooms.activeRoomMember "demo" roomId recipient).isSome = true :=
    .inl (fun hclosed => hopen.elim hclosed.1 hclosed.2)
  have hreply : strip "" = "" := rfl
  have htask : requireIdentifier "t" "task_id" = .ok "t" := rfl
  have hsubject : requireText samplePlatform "s" "subject" 500 = .ok "s" := rfl
  have hbody : requireText samplePlatform "b" "body" maxTextChars = .ok "b" := rfl
  have hpriority : requirePriority "normal" = .ok "normal" := rfl
  simp only [sendMessage, note, bind_eq_ok, require_eq_ok, pure_eq_ok, hreply, if_true]
  refine ⟨roomId, hroom, recipient, hto, "t", htask, "s", hsubject, "b", hbody, "normal",
    hpriority, (), hmember, (), hvisible, (), by simp, none, hrequest, _, hinsert, _, hevent, rfl⟩

end Writing

abbrev sampleMailbox : Machine World (Call × Ctx) (Except BridgeError Reply) :=
  mailbox samplePlatform

-- the room "r", which the agent "a" never joins, and n broadcasts in it
def floodWorld : Nat → World
  | 0 => (sampleMailbox.play sampleWorld
      [(.openScope, floodContext 1), (.createRoom { roomId := "r", name := "Room" }, floodContext 2)]).1
  | n + 1 => (sampleMailbox.exec (floodWorld n) (.sendMessage (note "r" "*"), floodContext (n + 3))).1

structure Flooded (n : Nat) (w : World) : Prop where
  reachable : sampleMailbox.Reachable w
  light : Light (n + 8) w.store
  rooms : w.store.rooms = (floodWorld 0).store.rooms
  now : w.now ≤ n + 2
  count : w.store.mail.messages.length = n
  rows : ∀ m ∈ w.store.mail.messages, ∃ second sequence, m = noteRow "r" "*" second sequence
  idle : w.store.mail.receipts = [] ∧ w.store.mail.dispatches = [] ∧ w.store.mail.discussions = []

theorem floodWorld_start : Flooded 0 (floodWorld 0) := by
  have hcheck : sampleMailbox.AdmitsAll sampleWorld
        [(.openScope, floodContext 1),
          (.createRoom { roomId := "r", name := "Room" }, floodContext 2)] ∧
      (floodWorld 0).store.mail.lastSequence ≤ 0 + 8 ∧ (floodWorld 0).store.audit.lastEvent ≤ 0 + 8 ∧
      (∀ e ∈ (floodWorld 0).store.audit.events, ∃ i ≤ (floodWorld 0).store.audit.lastEvent,
        e.eventId = (Uuid.ofNat (100000 + i)).text) ∧
      ((floodWorld 0).store.audit.tally "demo").messageRows ≤ 0 + 8 ∧
      ((floodWorld 0).store.audit.tally "demo").messageBytes ≤ 1024 * (0 + 8) ∧
      ((floodWorld 0).store.audit.tally "demo").eventRows ≤ 0 + 8 ∧
      ((floodWorld 0).store.audit.tally "demo").eventBytes ≤ 1024 * (0 + 8) ∧
      (floodWorld 0).now ≤ 2 := by decide +kernel
  obtain ⟨hadm, h1, h2, h3, h4, h5, h6, h7, h8⟩ := hcheck
  have hmail : (floodWorld 0).store.mail.messages = [] := rfl
  refine ⟨⟨sampleWorld, _, ⟨[], 0, rfl⟩, Machine.run_play _ _ hadm⟩,
    ⟨h1, h2, by simp [hmail], h3, h4, h5, h6, h7⟩, rfl, by simpa using h8, rfl,
    by simp [hmail], rfl, rfl, rfl⟩

theorem exec_send {w : World} {a : SendArgs} {second : Nat} {s : Store} {row : MessageRow}
    (h : sendMessage samplePlatform (floodContext second) a w.store = .ok (s, row)) :
    (sampleMailbox.exec w (.sendMessage a, floodContext second)).1 =
      { store := s, now := second, issued := w.issued } := by
  have hp : perform samplePlatform (floodContext second) w.store (.sendMessage a) =
      .ok (s, .done) := by
    rw [perform, h]
    rfl
  simp only [mailbox, attempt, hp]
  simp [tokensOf, floodContext, sampleCtx]

theorem admits_send {w : World} {second : Nat} (h : w.now ≤ second) (a : SendArgs) :
    sampleMailbox.admits w (.sendMessage a, floodContext second) :=
  ⟨h, ⟨le_rfl, le_rfl⟩, nofun⟩

theorem floodRoom (b : Bridge) (h : isOk (requireRoomMember b "r" b.agentId
    (floodWorld 0).store.rooms) = true) :
    requireRoomMember b "r" b.agentId (floodWorld 0).store.rooms = .ok () := by
  obtain ⟨_, hu⟩ := isOk_iff.mp h
  exact hu

theorem Flooded.next {n : Nat} {w : World} (h : Flooded n w) (hn : n ≤ 900) :
    Flooded (n + 1) (sampleMailbox.exec w (.sendMessage (note "r" "*"), floodContext (n + 3))).1 := by
  have hmember : requireRoomMember sampleHuman "r" humanOperatorId w.store.rooms = .ok () := by
    rw [h.rooms]
    exact floodRoom sampleHuman (by decide +kernel)
  obtain ⟨s, row, hsend, hlight, hrooms, hmail⟩ := send_note "r" "*" (n + 3) h.light (by omega)
    rfl rfl hmember (.inr rfl)
  have hnow := h.now
  have hlater : w.now ≤ ((n + 3 : Nat) : ℚ) := by
    push_cast
    linarith
  have hreach := h.reachable.next (admits_send hlater (note "r" "*"))
  rw [exec_send hsend] at hreach ⊢
  refine ⟨hreach, ?_, hrooms.trans h.rooms, ?_, ?_, fun m hm => ?_, ?_⟩
  · rw [show n + 1 + 8 = n + 8 + 1 by omega]
    exact hlight
  · show ((n + 3 : Nat) : ℚ) ≤ ((n + 1 : Nat) : ℚ) + 2
    push_cast
    linarith
  · rw [hmail, Mail.addMessages, List.length_append, h.count]
    rfl
  · rw [hmail] at hm
    rcases List.mem_append.mp hm with hm | hm
    · exact h.rows m hm
    · exact ⟨_, _, List.mem_singleton.mp hm⟩
  · rw [hmail]
    exact h.idle

theorem floodWorld_flooded {n : Nat} (hn : n ≤ 900) : Flooded n (floodWorld n) := by
  induction n with
  | zero => exact floodWorld_start
  | succ n ih => exact (ih (by omega)).next (by omega)

-- one more message, in the lobby and to the agent alone
def askInLobby (w : World) : World :=
  (sampleMailbox.exec w (.sendMessage (note defaultRoomId "a"), floodContext 503)).1

def claimant : Ctx := sampleCtx (sampleAgent "a") 600

structure Asked (w : World) (rows : List MessageRow) : Prop where
  reachable : sampleMailbox.Reachable w
  rooms : w.store.rooms = (floodWorld 0).store.rooms
  messages : ∃ sequence, w.store.mail.messages = rows ++ [noteRow defaultRoomId "a" 503 sequence]
  count : rows.length = claimScanLimit
  rows : ∀ m ∈ rows, ∃ second sequence, m = noteRow "r" "*" second sequence
  receipts : w.store.mail.receipts = []
  dispatches : w.store.mail.dispatches = []

theorem Flooded.ask {n : Nat} {w : World} (h : Flooded n w) (hn : n = claimScanLimit) :
    Asked (askInLobby w) w.store.mail.messages := by
  have hmember : requireRoomMember sampleHuman defaultRoomId humanOperatorId w.store.rooms =
      .ok () := by
    rw [h.rooms]
    obtain ⟨_, hu⟩ := isOk_iff.mp (show isOk (requireRoomMember sampleHuman defaultRoomId
      humanOperatorId (floodWorld 0).store.rooms) = true by decide +kernel)
    exact hu
  have hsmall : n + 8 < 1000 := by
    rw [hn]
    decide
  obtain ⟨s, row, hsend, -, hrooms, hmail⟩ := send_note defaultRoomId "a" 503 h.light hsmall
    rfl rfl hmember (.inl rfl)
  have hlater : w.now ≤ ((503 : Nat) : ℚ) := by
    refine h.now.trans ?_
    rw [hn]
    norm_num [claimScanLimit]
  have hreach := h.reachable.next (admits_send hlater (note defaultRoomId "a"))
  have hask : askInLobby w = { store := s, now := (503 : Nat), issued := w.issued } :=
    exec_send hsend
  rw [exec_send hsend] at hreach
  rw [hask]
  refine ⟨hreach, hrooms.trans h.rooms, ⟨w.store.mail.lastSequence + 1, ?_⟩, h.count.trans hn,
    h.rows, ?_, ?_⟩
  · simp only [hmail, Mail.addMessages]
  · rw [hmail]
    exact h.idle.1
  · rw [hmail]
    exact h.idle.2.1

theorem noteRow_listed {m : Mail} {roomId recipient : String} {second sequence : Nat}
    (hmem : noteRow roomId recipient second sequence ∈ m.messages)
    (hto : recipient = "a" ∨ recipient = "*") (hreceipts : m.receipts = []) :
    Listed claimant.self m (noteRow roomId recipient second sequence) where
  mem := hmem
  scope := rfl
  addressed := by
    rcases hto with rfl | rfl <;> rfl
  foreign := by
    show humanOperatorId ≠ "a"
    decide
  opening := .inl rfl
  pending := by
    rw [Mail.receipt?, hreceipts]
    rfl
  discussed := nofun

theorem asked_ready {w : World} {rows : List MessageRow} (h : Asked w rows) :
    ∃ row, Ready samplePlatform claimant maxDispatchAttempts w.store row := by
  obtain ⟨sequence, hmessages⟩ := h.messages
  have hidle : ∀ id, w.store.mail.dispatch? "demo" id "a" = none := by
    intro id
    rw [Mail.dispatch?, h.dispatches]
    rfl
  have hnone := hidle (noteRow defaultRoomId "a" 503 sequence).messageId
  refine ⟨noteRow defaultRoomId "a" 503 sequence, noteRow_listed ?_ (.inl rfl) h.receipts, ?_, ?_, ?_⟩
  · rw [hmessages]
    exact List.mem_append_right _ List.mem_cons_self
  · rw [h.rooms]
    show isOk (requireRoomMember claimant.self defaultRoomId claimant.self.agentId
      (floodWorld 0).store.rooms) = true
    decide +kernel
  · exact nofun
  · refine ⟨fun d hd => ?_, fun d hd => ?_, fun d hd => ?_, ?_⟩
    · cases hnone.symm.trans hd
    · cases hnone.symm.trans hd
    · cases hnone.symm.trans hd
    · show (((w.store.mail.dispatch? "demo" _ "a").map DispatchRow.attemptCount).getD 0 : Int) < _
      rw [hidle]
      decide

theorem asked_out_of_reach {w : World} {rows : List MessageRow} (h : Asked w rows) (n : Int) :
    ¬ InReach samplePlatform claimant n maxDispatchAttempts w.store := by
  rintro ⟨before, row, after, hlist, hlen, -, hready, -⟩
  obtain ⟨sequence, hmessages⟩ := h.messages
  have hall : listing claimant n maxDispatchAttempts w.store.mail = w.store.mail.messages := by
    refine List.filter_eq_self.mpr (fun m hm => (claimWhere_plain hm).mpr ?_)
    have hm' := hm
    rw [hmessages] at hm'
    rcases List.mem_append.mp hm' with hm' | hm'
    · obtain ⟨second, k, rfl⟩ := h.rows m hm'
      exact noteRow_listed hm (.inr rfl) h.receipts
    · obtain rfl := List.mem_singleton.mp hm'
      exact noteRow_listed hm (.inl rfl) h.receipts
  have hrow : row ∈ rows := by
    have htake : rows = (before ++ row :: after).take claimScanLimit := by
      rw [← hlist, hall, hmessages, List.take_left' h.count]
    obtain ⟨m, hm⟩ : ∃ m, claimScanLimit = before.length + (m + 1) :=
      ⟨claimScanLimit - before.length - 1, by omega⟩
    rw [htake, hm, List.take_length_add_append, List.take_succ_cons]
    exact List.mem_append_right _ List.mem_cons_self
  obtain ⟨second, k, rfl⟩ := h.rows row hrow
  have hmember := hready.member
  rw [h.rooms] at hmember
  have habsent : isOk (requireRoomMember claimant.self "r" claimant.self.agentId
      (floodWorld 0).store.rooms) = false := by decide +kernel
  exact absurd (habsent.symm.trans hmember) (by decide)

theorem asked_unclaimed {w : World} {rows : List MessageRow} (h : Asked w rows) :
    ¬ claimsSome (sampleMailbox.exec w (.claim {}, claimant)).2 := by
  intro hclaim
  have hsome := (exec_claim (n := defaultDispatchLeaseSeconds) (k := maxDispatchAttempts)).mp hclaim
  exact asked_out_of_reach h _ ((claim_plain (reachable_wf h.reachable).mail.sealed).mp hsome)

theorem flooded_asked : ∃ rows, Asked (askInLobby (floodWorld claimScanLimit)) rows :=
  ⟨_, (floodWorld_flooded (show claimScanLimit ≤ 900 by decide)).ask rfl⟩

-- five hundred broadcasts in a room that the agent has not joined fill the rows it looks at
theorem broadcasts_starve_claim :
    let w := askInLobby (floodWorld claimScanLimit)
    sampleMailbox.Reachable w ∧
      (∃ row, Ready samplePlatform claimant maxDispatchAttempts w.store row) ∧
      ¬ claimsSome (sampleMailbox.exec w (.claim {}, claimant)).2 := by
  obtain ⟨rows, h⟩ := flooded_asked
  exact ⟨h.reachable, asked_ready h, asked_unclaimed h⟩

theorem claim_starves_iff_lobby :
    let w := (sampleMailbox.play sampleWorld
      [(.openScope, floodContext 1), (.sendMessage (note defaultRoomId "a"), floodContext 2)]).1
    (∃ row, Ready samplePlatform claimant maxDispatchAttempts w.store row) →
      InReach samplePlatform claimant defaultDispatchLeaseSeconds maxDispatchAttempts w.store := by
  intro w
  have hcheck : sampleMailbox.AdmitsAll sampleWorld
        [(.openScope, floodContext 1), (.sendMessage (note defaultRoomId "a"), floodContext 2)] ∧
      claimsSome (sampleMailbox.exec w (.claim (plainClaim defaultDispatchLeaseSeconds
        maxDispatchAttempts), claimant)).2 := by decide +kernel
  have hw : sampleMailbox.Reachable w :=
    ⟨sampleWorld, _, ⟨[], 0, rfl⟩, Machine.run_play _ _ hcheck.1⟩
  exact (claim_starves_iff hw claimant _ _).mp (fun _ => hcheck.2)

end PeerBridge.Starvation
