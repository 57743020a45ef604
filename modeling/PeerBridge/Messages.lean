import PeerBridge.Rooms

namespace PeerBridge
open Checked Rows

def maxTextChars : Nat := 50000
def maxRoomFanoutRecipients : Nat := 32

structure Draft where
  roomId : String
  taskId : String
  sender : String
  recipient : String
  subject : String
  body : String
  priority : String
  replyTo : Option String := none
  artifactPaths : List String := []
  request : Option RouteRequest := none
  discussion : Option (String × Nat × DiscussionRole) := none
  namesDiscussion : Bool := false
  visibility : Visibility := .room
  createdUtc : Utc

-- the writer of a reply names the discussion also when there is none
def discussionFields (named : Bool) (discussion : Option (String × Nat × DiscussionRole)) :
    List (String × Json) :=
  match discussion with
  | some q => [("discussion_id", .str q.1), ("discussion_round", .int q.2.1),
      ("discussion_role", .str q.2.2.text)]
  | none => if named then [("discussion_id", .null), ("discussion_round", .null),
      ("discussion_role", .null)] else []

def Draft.content (scope messageId : String) (d : Draft) : Json :=
  .obj ([("message_id", .str messageId), ("scope", .str scope), ("room_id", .str d.roomId),
    ("task_id", .str d.taskId), ("sender", .str d.sender), ("recipient", .str d.recipient),
    ("subject", .str d.subject), ("body", .str d.body), ("priority", .str d.priority),
    ("reply_to", .opt d.replyTo), ("artifact_paths", .strs d.artifactPaths),
    ("route_request", d.request.elim .null RouteRequest.contentBinding)] ++
    discussionFields d.namesDiscussion d.discussion ++
    [("visibility", .str d.visibility.text), ("created_utc", .utc d.createdUtc)])

def Draft.bytes (P : Platform) (scope messageId : String) (d : Draft) : Nat :=
  P.encodedBytes (d.content scope messageId)

def Draft.row (P : Platform) (scope messageId : String) (sequence : Nat) (d : Draft) :
    MessageRow :=
  { sequence, messageId, scope, roomId := d.roomId, taskId := d.taskId, sender := d.sender,
    recipient := d.recipient, subject := d.subject, body := d.body, priority := d.priority,
    replyTo := d.replyTo, artifactPaths := d.artifactPaths,
    routeProfileId := d.request.bind RouteRequest.routeProfileId,
    routeProfileSha256 := d.request.bind (fun q => q.routeProfileSha256.getD none),
    requestedProviderId := d.request.bind RouteRequest.requestedProviderId,
    requestedModelId := d.request.bind RouteRequest.requestedModelId,
    requestedReasoningMode := d.request.bind RouteRequest.requestedReasoningMode,
    requestedRouteClass := d.request.bind RouteRequest.requestedRouteClass,
    routeRequestSha256 := d.request.bind RouteRequest.routeRequestSha256,
    discussionId := d.discussion.map Prod.fst,
    discussionRound := d.discussion.map (fun q => q.2.1),
    discussionRole := d.discussion.map (fun q => q.2.2),
    namesDiscussion := d.namesDiscussion, visibility := d.visibility,
    createdUtc := d.createdUtc,
    contentSha256 := P.stableSha256 (d.content scope messageId) }

def insertMessage (P : Platform) (c : Ctx) (d : Draft) (s : Store) :
    Except BridgeError (Store × MessageRow) := do
  let sequence := s.mail.lastSequence + 1
  let row := d.row P c.self.scope (c.messageUuid sequence).text sequence
  require (∀ m ∈ s.mail.messages, m.messageId ≠ row.messageId) (.integrity "messages.message_id")
  pure (s.withMail (s.mail.addMessages [row]), row)

def insertReserved (P : Platform) (c : Ctx) (d : Draft) (s : Store) :
    Except BridgeError (Store × MessageRow) := do
  let s ← s.reserve c 1 (d.bytes P c.self.scope (c.messageUuid (s.mail.lastSequence + 1)).text)
  insertMessage P c d s

def insertAll (P : Platform) (c : Ctx) :
    List Draft → Store → Except BridgeError (Store × List MessageRow)
  | [], s => pure (s, [])
  | d :: ds, s => do
    let (s, row) ← insertMessage P c d s
    let (s, rows) ← insertAll P c ds s
    pure (s, row :: rows)

def insertPrompts (P : Platform) (c : Ctx) :
    List Draft → Store → Except BridgeError (Store × List MessageRow)
  | [], s => pure (s, [])
  | d :: ds, s => do
    let (s, row) ← insertReserved P c d s
    let (s, rows) ← insertPrompts P c ds s
    pure (s, row :: rows)

def requirePriority (value : String) : Except BridgeError String := do
  let priority := lower (strip value)
  require (priority ∈ ["low", "normal", "high", "critical"])
    (.bridge "priority must be low, normal, high or critical")
  pure priority

def requireRecipient (value : String) : Except BridgeError String :=
  if strip value = "*" then pure "*" else requireIdentifier (strip value) "recipient"

structure SendArgs where
  roomId : String := defaultRoomId
  recipient : String
  taskId : String
  subject : String
  body : String
  priority : String := "normal"
  replyTo : String := ""
  artifactPaths : List String := []
  route : RouteArgs := {}

def sendMessage (P : Platform) (c : Ctx) (a : SendArgs) (s : Store) :
    Except BridgeError (Store × MessageRow) := do
  let roomId ← requireIdentifier a.roomId "room_id"
  let recipient ← requireRecipient a.recipient
  let taskId ← requireIdentifier a.taskId "task_id"
  let subject ← requireText P a.subject "subject" 500
  let body ← requireText P a.body "body" maxTextChars
  let priority ← requirePriority a.priority
  let replyTo := if strip a.replyTo = "" then none else some (strip a.replyTo)
  requireRoomMember c.self roomId c.self.agentId s.rooms
  require (¬ (roomId ≠ defaultRoomId ∧ recipient ≠ "*") ∨
      (s.rooms.activeRoomMember c.self.scope roomId recipient).isSome = true)
    (.bridge "recipient is not an active member of this room")
  require (∀ parentId ∈ replyTo,
      ((s.mail.message? c.self.scope parentId).any (fun m => m.roomId = roomId)) = true)
    (.bridge "reply_to must reference a message in the same room")
  let request ← resolveRouteRequest P c.self.scope recipient a.route s.rooms
  let (s, row) ← insertReserved P c
    { roomId, taskId, sender := c.self.agentId, recipient, subject, body, priority, replyTo,
      artifactPaths := a.artifactPaths, request,
      visibility := if recipient = "*" then .room else .direct,
      createdUtc := utcNow c.clock.locked } s
  let (s, _) ← s.event P c "message.sent"
    [("message_id", .str row.messageId), ("room_id", .str roomId),
      ("sequence", .int row.sequence), ("content_sha256", .sha row.contentSha256),
      ("route_request_sha256", .optSha row.routeRequestSha256),
      ("route_profile_sha256", .optSha row.routeProfileSha256)] (some taskId)
  pure (s, row)

structure Seat where
  agentId : String
  routeProfileId : String
  request : RouteRequest

def activeSeats (scope roomId : String) (excluded : List String) (r : Rooms) :
    List MembershipRow :=
  (r.memberships.filter (fun m => m.scope = scope ∧ m.roomId = roomId ∧ m.status = .active ∧
    m.agentId ∉ excluded)).insertionSort (fun a b => a.agentId ≤ b.agentId)

def prepareSeat (P : Platform) (scope tail : String) (r : Rooms) (m : MembershipRow) :
    Except BridgeError Seat := do
  let routeId := m.routeProfileId.getD ""
  require (routeId ≠ "") (.bridge ("room seat " ++ m.agentId ++ " has no route profile; " ++ tail))
  let resolved ← resolveRouteRequest P scope m.agentId { routeProfileId := routeId } r
  let request ← demand resolved
    (.bridge ("room seat " ++ m.agentId ++ " has no runnable route request"))
  pure { agentId := m.agentId, routeProfileId := routeId, request }

def prepareSeats (P : Platform) (scope tail : String) (r : Rooms) (rows : List MembershipRow) :
    Except BridgeError (List Seat) := do
  require (rows ≠ []) (.bridge "room has no active Agent seats")
  require (rows.length ≤ maxRoomFanoutRecipients)
    (.bridge "room fanout exceeds the active Agent seat limit")
  rows.mapM (prepareSeat P scope tail r)

def routedRoomSeats (P : Platform) (c : Ctx) (roomId : String) (excludeAgentId : Option String)
    (r : Rooms) : Except BridgeError (List Seat) :=
  prepareSeats P c.self.scope "room post was not written" r
    (activeSeats c.self.scope roomId (humanOperatorId :: excludeAgentId.toList) r)

structure Post where
  roomId : String
  taskId : String
  subject : String
  body : String
  priority : String
  artifactPaths : List String

structure PostArgs where
  roomId : String
  taskId : String
  subject : String
  body : String
  priority : String := "normal"
  artifactPaths : List String := []

def requirePost (P : Platform) (a : PostArgs) : Except BridgeError Post := do
  let roomId ← requireIdentifier a.roomId "room_id"
  let taskId ← requireIdentifier a.taskId "task_id"
  let subject ← requireText P a.subject "subject" 500
  let body ← requireText P a.body "body" maxTextChars
  let priority ← requirePriority a.priority
  pure { roomId, taskId, subject, body, priority, artifactPaths := a.artifactPaths }

def Post.draft (p : Post) (sender recipient : String) (createdUtc : Utc) : Draft :=
  { roomId := p.roomId, taskId := p.taskId, sender, recipient, subject := p.subject,
    body := p.body, priority := p.priority, artifactPaths := p.artifactPaths, createdUtc }

def recipientReceipt (m : MessageRow) : Json :=
  .obj [("agent_id", .str m.recipient), ("message_id", .str m.messageId),
    ("sequence", .int m.sequence), ("route_profile_id", .opt m.routeProfileId),
    ("route_profile_sha256", .optSha m.routeProfileSha256),
    ("route_request_sha256", .optSha m.routeRequestSha256),
    ("content_sha256", .sha m.contentSha256)]

def requireOncePolicy (b : Bridge) (roomId : String) (enforceOncePolicy : Bool) (r : Rooms) :
    Except BridgeError Unit :=
  if enforceOncePolicy then do
    let policy ← roomPolicy b roomId r
    require (policy.mode = .once)
      (.bridge ("direct room fanout requires automation mode once; " ++
        "use post_room_message for off or discussion mode"))
  else pure ()

def sendRoomFanoutLocked (P : Platform) (c : Ctx) (p : Post) (enforceOncePolicy : Bool)
    (s : Store) : Except BridgeError (Store × List MessageRow) := do
  requireRoomMember c.self p.roomId c.self.agentId s.rooms
  requireOncePolicy c.self p.roomId enforceOncePolicy s.rooms
  let created := utcNow c.clock.locked
  let prepared ← prepareSeats P c.self.scope "fanout was not written" s.rooms
    (activeSeats c.self.scope p.roomId [c.self.agentId, humanOperatorId] s.rooms)
  let drafts := prepared.map (fun seat =>
    { p.draft c.self.agentId seat.agentId created with request := some seat.request })
  let placeholder := String.ofList (List.replicate 32 '0')
  let s ← s.reserve c drafts.length (drafts.map (Draft.bytes P c.self.scope placeholder)).sum
  let (s, rows) ← insertAll P c drafts s
  let recipients := Json.arr (rows.map recipientReceipt)
  let fanout := Json.obj [("fanout_id", .str c.uuid.text), ("scope", .str c.self.scope),
    ("room_id", .str p.roomId), ("task_id", .str p.taskId), ("sender", .str c.self.agentId),
    ("recipients", recipients), ("created_utc", .utc created)]
  let (s, _) ← s.event P c "message.room_fanout_sent"
    [("fanout_id", .str c.uuid.text), ("fanout_sha256", .sha (P.stableSha256 fanout)),
      ("room_id", .str p.roomId), ("recipient_count", .int rows.length),
      ("recipients", recipients)] (some p.taskId)
  pure (s, rows)

def sendRoomFanout (P : Platform) (c : Ctx) (a : PostArgs) (s : Store) :
    Except BridgeError (Store × List MessageRow) := do
  let post ← requirePost P a
  sendRoomFanoutLocked P c post true s

def draftRows (P : Platform) (c : Ctx) : Nat → List Draft → List MessageRow
  | _, [] => []
  | n, d :: ds =>
    d.row P c.self.scope (c.messageUuid (n + 1)).text (n + 1) :: draftRows P c (n + 1) ds

-- what an insertion of drafts leaves in the message table
structure Inserted (P : Platform) (c : Ctx) (ds : List Draft) (rows : List MessageRow)
    (m m' : Mail) : Prop where
  rows_eq : rows = draftRows P c m.lastSequence ds
  fresh : ∀ x ∈ m.messages, ∀ row ∈ rows, x.messageId ≠ row.messageId
  nodup : (rows.map MessageRow.messageId).Nodup
  mail_eq : m' = m.addMessages rows

section Insertion
variable {P : Platform} {c : Ctx} {d : Draft} {ds : List Draft} {s s' : Store}
  {row : MessageRow} {rows : List MessageRow}

theorem mem_draftRows {n : Nat} (h : row ∈ draftRows P c n ds) :
    ∃ d ∈ ds, ∃ k, n < k ∧ k ≤ n + ds.length ∧
      row = d.row P c.self.scope (c.messageUuid k).text k := by
  induction ds generalizing n with
  | nil => simp [draftRows] at h
  | cons d ds ih =>
    rw [draftRows, List.mem_cons] at h
    rcases h with rfl | h
    · exact ⟨d, List.mem_cons_self, n + 1, by omega, by simp, rfl⟩
    · obtain ⟨e, he, k, h1, h2, rfl⟩ := ih h
      exact ⟨e, List.mem_cons_of_mem _ he, k, by omega, by simp; omega, rfl⟩

theorem draftRows_length {n : Nat} : (draftRows P c n ds).length = ds.length := by
  induction ds generalizing n with
  | nil => rfl
  | cons d ds ih => rw [draftRows, List.length_cons, ih, List.length_cons]

theorem draftRows_map {β : Type} {n : Nat} (f : MessageRow → β) (g : Draft → β)
    (h : ∀ d id k, f (d.row P c.self.scope id k) = g d) :
    (draftRows P c n ds).map f = ds.map g := by
  induction ds generalizing n with
  | nil => rfl
  | cons d ds ih => rw [draftRows, List.map_cons, ih, List.map_cons, h]

theorem draftRows_sorted {n : Nat} :
    (draftRows P c n ds).Pairwise (fun x y => x.sequence < y.sequence) := by
  induction ds generalizing n with
  | nil => exact List.Pairwise.nil
  | cons d ds ih =>
    refine List.pairwise_cons.mpr ⟨fun y hy => ?_, ih⟩
    obtain ⟨e, -, k, h1, -, rfl⟩ := mem_draftRows hy
    exact h1

theorem insertMessage_ok (h : insertMessage P c d s = .ok (s', row)) :
    Inserted P c [d] [row] s.mail s'.mail ∧ s'.rooms = s.rooms ∧ s'.ledger = s.ledger := by
  simp only [insertMessage, bind_eq_ok, require_eq_ok, pure_eq_ok, Prod.mk.injEq] at h
  obtain ⟨-, hf, rfl, rfl⟩ := h
  refine ⟨⟨rfl, fun x hx r hr => ?_, by simp, rfl⟩, rfl, rfl⟩
  rw [List.mem_singleton.mp hr]
  exact hf x hx

theorem Store.reserve_frame {rows bytes : Nat} (h : s.reserve c rows bytes = .ok s') :
    s'.mail = s.mail ∧ s'.rooms = s.rooms ∧ s'.ledger = s.ledger := by
  obtain ⟨a, rfl⟩ := Store.reserve_ok h
  exact ⟨rfl, rfl, rfl⟩

theorem Store.event_frame {ty : String} {payload : List (String × Json)} {task : Option String}
    {chain : Sha256} (h : s.event P c ty payload task = .ok (s', chain)) :
    s'.mail = s.mail ∧ s'.rooms = s.rooms ∧ s'.ledger = s.ledger := by
  obtain ⟨a, rfl⟩ := Store.event_ok h
  exact ⟨rfl, rfl, rfl⟩

theorem insertReserved_ok (h : insertReserved P c d s = .ok (s', row)) :
    Inserted P c [d] [row] s.mail s'.mail ∧ s'.rooms = s.rooms ∧ s'.ledger = s.ledger := by
  simp only [insertReserved, bind_eq_ok] at h
  obtain ⟨s₁, h₁, h₂⟩ := h
  obtain ⟨hm, hr, hl⟩ := Store.reserve_frame h₁
  obtain ⟨hi, hr', hl'⟩ := insertMessage_ok h₂
  exact ⟨hm ▸ hi, hr'.trans hr, hl'.trans hl⟩

theorem Inserted.nil (P : Platform) (c : Ctx) (m : Mail) : Inserted P c [] [] m m :=
  ⟨rfl, by simp, by simp, by simp⟩

theorem Inserted.cons {m m₁ m₂ : Mail} (h : Inserted P c [d] [row] m m₁)
    (k : Inserted P c ds rows m₁ m₂) : Inserted P c (d :: ds) (row :: rows) m m₂ := by
  obtain rfl : m₁ = m.addMessages [row] := h.mail_eq
  refine ⟨?_, fun x hx r hr => ?_, ?_, ?_⟩
  · have h1 := h.rows_eq
    simp only [draftRows, List.cons.injEq] at h1
    rw [draftRows, ← h1.1, k.rows_eq]
    rfl
  · rcases List.mem_cons.mp hr with rfl | hr
    · exact h.fresh x hx r (by simp)
    · exact k.fresh x (List.mem_append_left _ hx) r hr
  · refine List.nodup_cons.mpr ⟨fun hm => ?_, k.nodup⟩
    obtain ⟨r, hr, he⟩ := List.mem_map.mp hm
    exact k.fresh row (List.mem_append_right _ (by simp)) r hr he.symm
  · rw [k.mail_eq, Mail.addMessages_append]
    rfl

theorem insertAll_ok (h : insertAll P c ds s = .ok (s', rows)) :
    Inserted P c ds rows s.mail s'.mail ∧ s'.rooms = s.rooms ∧ s'.ledger = s.ledger := by
  induction ds generalizing s s' rows with
  | nil =>
    simp only [insertAll, pure_eq_ok, Prod.mk.injEq] at h
    obtain ⟨rfl, rfl⟩ := h
    exact ⟨.nil _ _ _, rfl, rfl⟩
  | cons d ds ih =>
    simp only [insertAll, bind_eq_ok, pure_eq_ok, Prod.mk.injEq] at h
    obtain ⟨⟨s₁, row⟩, h₁, ⟨s₂, rs⟩, h₂, rfl, rfl⟩ := h
    obtain ⟨hi, hr, hl⟩ := insertMessage_ok h₁
    obtain ⟨ki, kr, kl⟩ := ih h₂
    exact ⟨hi.cons ki, kr.trans hr, kl.trans hl⟩

theorem insertPrompts_ok (h : insertPrompts P c ds s = .ok (s', rows)) :
    Inserted P c ds rows s.mail s'.mail ∧ s'.rooms = s.rooms ∧ s'.ledger = s.ledger := by
  induction ds generalizing s s' rows with
  | nil =>
    simp only [insertPrompts, pure_eq_ok, Prod.mk.injEq] at h
    obtain ⟨rfl, rfl⟩ := h
    exact ⟨.nil _ _ _, rfl, rfl⟩
  | cons d ds ih =>
    simp only [insertPrompts, bind_eq_ok, pure_eq_ok, Prod.mk.injEq] at h
    obtain ⟨⟨s₁, row⟩, h₁, ⟨s₂, rs⟩, h₂, rfl, rfl⟩ := h
    obtain ⟨hi, hr, hl⟩ := insertReserved_ok h₁
    obtain ⟨ki, kr, kl⟩ := ih h₂
    exact ⟨hi.cons ki, kr.trans hr, kl.trans hl⟩

end Insertion

theorem sendMessage_ok {P : Platform} {c : Ctx} {a : SendArgs} {s s' : Store} {row : MessageRow}
    (h : sendMessage P c a s = .ok (s', row)) :
    ∃ d : Draft, d.discussion = none ∧ d.sender = c.self.agentId ∧
      Inserted P c [d] [row] s.mail s'.mail ∧ s'.rooms = s.rooms := by
  simp only [sendMessage, bind_eq_ok, require_eq_ok, pure_eq_ok, Prod.mk.injEq] at h
  obtain ⟨room, -, recipient, -, task, -, subj, -, body, -, prio, -, -, -, -, -, -, -, req, -,
    ⟨s₁, r₁⟩, hi, ⟨s₂, chain⟩, he, rfl, rfl⟩ := h
  obtain ⟨hi, hr, -⟩ := insertReserved_ok hi
  obtain ⟨hm, hr', -⟩ := Store.event_frame he
  exact ⟨_, rfl, rfl, hm ▸ hi, hr'.trans hr⟩

theorem sendRoomFanoutLocked_ok {P : Platform} {c : Ctx} {p : Post} {once : Bool} {s s' : Store}
    {rows : List MessageRow} (h : sendRoomFanoutLocked P c p once s = .ok (s', rows)) :
    ∃ ds : List Draft, (∀ d ∈ ds, d.discussion = none ∧ d.sender = c.self.agentId) ∧
      Inserted P c ds rows s.mail s'.mail ∧ s'.rooms = s.rooms := by
  simp only [sendRoomFanoutLocked, bind_eq_ok, pure_eq_ok, Prod.mk.injEq] at h
  obtain ⟨-, -, -, -, seats, -, s₀, h₀, ⟨s₁, rs⟩, hi, ⟨s₂, chain⟩, he, rfl, rfl⟩ := h
  obtain ⟨hm₀, hr₀, -⟩ := Store.reserve_frame h₀
  obtain ⟨hi, hr, -⟩ := insertAll_ok hi
  obtain ⟨hm, hr', -⟩ := Store.event_frame he
  refine ⟨_, fun d hd => ?_, hm₀ ▸ hm ▸ hi, (hr'.trans hr).trans hr₀⟩
  obtain ⟨seat, -, rfl⟩ := List.mem_map.mp hd
  exact ⟨rfl, rfl⟩

theorem sendRoomFanout_ok {P : Platform} {c : Ctx} {a : PostArgs} {s s' : Store}
    {rows : List MessageRow} (h : sendRoomFanout P c a s = .ok (s', rows)) :
    ∃ ds : List Draft, (∀ d ∈ ds, d.discussion = none ∧ d.sender = c.self.agentId) ∧
      Inserted P c ds rows s.mail s'.mail ∧ s'.rooms = s.rooms := by
  simp only [sendRoomFanout, bind_eq_ok] at h
  obtain ⟨post, -, h⟩ := h
  exact sendRoomFanoutLocked_ok h

end PeerBridge
