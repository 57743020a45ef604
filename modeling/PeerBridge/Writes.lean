import PeerBridge.Preservation

namespace PeerBridge
open Checked Rows

def Draft.Bound (d : Draft) : Prop :=
  ∀ q ∈ d.request, q.targetAgentId = d.recipient ∧ q.routeRequestSha256.isSome = true

-- the request was resolved against these rooms
def Draft.Resolved (P : Platform) (scope : String) (r : Rooms) (d : Draft) : Prop :=
  ∀ q ∈ d.request, ∃ args, resolveRouteRequest P scope d.recipient args r = .ok (some q)

def Seat.Resolved (P : Platform) (scope : String) (r : Rooms) (seat : Seat) : Prop :=
  ∃ args, resolveRouteRequest P scope seat.agentId args r = .ok (some seat.request)

structure RouteProfileRow.Accepted (P : Platform) (p : RouteProfileRow) : Prop where
  scope_safe : isIdentifier p.scope = true
  routeId_safe : isIdentifier p.routeId = true
  agentId_safe : isIdentifier p.agentId = true
  providerId_safe : p.providerId.all isIdentifier = true
  modelId_safe : p.modelId.all isSafeModelId = true
  reasoningMode_safe : p.reasoningMode.all isIdentifier = true
  sealed : p.profileSha256 = routeProfileIdentitySha P p []

-- route profiles are only ever added
inductive Registers (P : Platform) (r r' : Rooms) : Prop
  | same (h : r'.routeProfiles = r.routeProfiles)
  | added (p : RouteProfileRow) (hp : p.Accepted P) (hn : r.profile? p.scope p.routeId = none)
      (h : r'.routeProfiles = r.routeProfiles ++ [p])

-- what a call may write besides mail, rooms and cursors
inductive Entry where
  | event (eventType : String)
  | routeReceipt
  | trustedReceipt
  deriving DecidableEq

def Entry.quiet : Entry → Bool
  | .event eventType => eventType ≠ "message.dispatch_completed"
  | .routeReceipt | .trustedReceipt => false

def Entry.acknowledging (x : Entry) : Bool := x.quiet || x = .routeReceipt

def Call.entries : Call → Entry → Bool
  | .complete _ => fun x => x ≠ .trustedReceipt
  | .recordTrusted _ => fun x => x.quiet || x = .trustedReceipt
  | .ack _ => Entry.acknowledging
  | _ => Entry.quiet

def Store.ignoreRouteReceipt (P : Platform) (c : Ctx) (source : MessageRow) (now : Utc)
    (s : Store) : Store :=
  s.withLedger (s.ledger.ignoreRouteReceipt (routeReceipt P c source now))

-- one statement's effect on the store, the audit log included
inductive Write (P : Platform) (c : Ctx) (E : Entry → Bool) (s : Store) : Store → Prop
  | event {s' : Store} {ty : String} {payload : List (String × Json)} {task : Option String}
      {chain : Sha256} (hty : E (.event ty) = true)
      (h : s.event P c ty payload task = .ok (s', chain)) : Write P c E s s'
  | insert {s' : Store} {d : Draft} {row : MessageRow}
      (hd : d.Resolved P c.self.scope s.rooms)
      (h : insertReserved P c d s = .ok (s', row)) : Write P c E s s'
  | fanout {s₁ s' : Store} {ds : List Draft} {rows : List MessageRow}
      (hd : ∀ d ∈ ds, d.Resolved P c.self.scope s.rooms)
      (hr : s.reserve c ds.length
        (ds.map (Draft.bytes P c.self.scope (String.ofList (List.replicate 32 '0')))).sum = .ok s₁)
      (h : insertAll P c ds s₁ = .ok (s', rows)) : Write P c E s s'
  | receipt (r : ReceiptRow) : Write P c E s (s.withMail (s.mail.ignoreReceipt r))
  | advance (roomId : String) (now : Utc) : Write P c E s (s.advanceCursor c roomId now).1
  | acknowledge (roomId : String) (now : Utc) : Write P c E s (s.ackCursor c roomId now).1
  | mail {m : Mail} (hm : m.messages = s.mail.messages) (hl : m.lastSequence = s.mail.lastSequence)
      (hr : m.receipts = s.mail.receipts) : Write P c E s (s.withMail m)
  | rooms (r : Rooms) (h : Registers P s.rooms r) : Write P c E s (s.withRooms r)
  | routeReceipt {source : MessageRow} (hE : E .routeReceipt = true)
      (hs : s.mail.message? c.self.scope source.messageId = some source)
      (hr : routeRequestFromRow source ≠ none) (now : Utc) :
      Write P c E s (s.ignoreRouteReceipt P c source now)
  | trusted (row : TrustedReceiptRow) (hE : E .trustedReceipt = true) :
      Write P c E s
        (s.withLedger { s.ledger with trustedReceipts := s.ledger.trustedReceipts ++ [row] })
  | ledger {l : Ledger} (hc : l.cursors = s.ledger.cursors)
      (hr : l.routeReceipts = s.ledger.routeReceipts)
      (ht : l.trustedReceipts = s.ledger.trustedReceipts) : Write P c E s (s.withLedger l)

abbrev Writes (P : Platform) (c : Ctx) (E : Entry → Bool) : Store → Store → Prop :=
  Relation.ReflTransGen (Write P c E)

section Routes
variable {P : Platform}

theorem resolveRouteRequest_bound {scope recipient : String} {args : RouteArgs} {r : Rooms}
    {q : RouteRequest} (h : resolveRouteRequest P scope recipient args r = .ok (some q)) :
    q.targetAgentId = recipient ∧ q.routeRequestSha256.isSome = true := by
  simp only [resolveRouteRequest, bind_eq_ok] at h
  obtain ⟨route, -, provider, -, model, -, reasoning, -, cls, -, h⟩ := h
  cases route with
  | some routeId =>
    simp only [bind_eq_ok, pure_eq_ok, Option.some.injEq] at h
    obtain ⟨row, -, sha, -, -, -, p, -, m, -, g, -, k, -, -, -, rfl⟩ := h
    exact ⟨rfl, rfl⟩
  | none =>
    simp only at h
    split at h
    · simp at h
    · simp only [bind_eq_ok, pure_eq_ok, Option.some.injEq] at h
      obtain ⟨-, -, -, -, rfl⟩ := h
      exact ⟨rfl, rfl⟩

theorem Draft.Resolved.bound {scope : String} {r : Rooms} {d : Draft}
    (h : d.Resolved P scope r) : d.Bound := by
  intro q hq
  obtain ⟨args, hr⟩ := h q hq
  exact resolveRouteRequest_bound hr

theorem prepareSeat_resolved {scope tail : String} {r : Rooms} {m : MembershipRow} {seat : Seat}
    (h : prepareSeat P scope tail r m = .ok seat) : seat.Resolved P scope r := by
  simp only [prepareSeat, bind_eq_ok, demand_eq_ok, pure_eq_ok] at h
  obtain ⟨-, -, resolved, hr, request, rfl, rfl⟩ := h
  exact ⟨_, hr⟩

theorem prepareSeats_resolved {scope tail : String} {r : Rooms} {rows : List MembershipRow}
    {seats : List Seat} (h : prepareSeats P scope tail r rows = .ok seats) :
    ∀ seat ∈ seats, seat.Resolved P scope r := by
  simp only [prepareSeats, bind_eq_ok] at h
  obtain ⟨-, -, -, -, h⟩ := h
  intro seat hs
  obtain ⟨m, -, hm⟩ := exists_of_mapM h hs
  exact prepareSeat_resolved hm

theorem discussionParticipants_resolved {scope id : String} {s : Store} {seats : List Seat}
    (h : discussionParticipants P scope id s = .ok seats) :
    ∀ seat ∈ seats, seat.Resolved P scope s.rooms := by
  intro seat hs
  obtain ⟨y, -, hy⟩ := participants_seat h hs
  refine ⟨{ routeProfileId := y.routeProfileId.getD "" }, ?_⟩
  rw [hy.agent_eq]
  exact hy.current

theorem Seat.draft_resolved {scope : String} {r : Rooms} {seat : Seat}
    (h : seat.Resolved P scope r) (d : DiscussionRow) (n : Nat) (subject body : String)
    (reply : Option String) (now : Utc) :
    (seat.draft d n subject body reply now).Resolved P scope r := by
  intro q hq
  obtain rfl := Option.mem_some_iff.mp hq
  exact h

theorem optionalModelIdentifier_ok {value label : String} {o : Option String}
    (h : optionalModelIdentifier value label = .ok o) : o.all isSafeModelId = true := by
  simp only [optionalModelIdentifier, bind_eq_ok, require_eq_ok, pure_eq_ok] at h
  obtain ⟨-, hsafe, rfl⟩ := h
  split
  · rfl
  · rename_i hne
    exact hsafe.resolve_left hne

end Routes

section Calls
variable {P : Platform} {c : Ctx} {E : Entry → Bool} {s s' : Store}

theorem insertPrompts_writes {ds : List Draft} {rows : List MessageRow}
    (hd : ∀ d ∈ ds, d.Resolved P c.self.scope s.rooms)
    (h : insertPrompts P c ds s = .ok (s', rows)) : Writes P c E s s' := by
  induction ds generalizing s rows with
  | nil =>
    simp only [insertPrompts, pure_eq_ok, Prod.mk.injEq] at h
    rw [h.1]
  | cons d ds ih =>
    simp only [insertPrompts, bind_eq_ok, pure_eq_ok, Prod.mk.injEq] at h
    obtain ⟨⟨s₁, row⟩, h₁, ⟨s₂, rs⟩, h₂, rfl, -⟩ := h
    have htail := ih (fun e he => by
      rw [(insertReserved_ok h₁).2.1]
      exact hd e (List.mem_cons_of_mem _ he)) h₂
    exact htail.head (.insert (hd d List.mem_cons_self) h₁)

theorem event_writes {s₀ : Store} {ty : String} {payload : List (String × Json)}
    {task : Option String} {chain : Sha256} (hty : E (.event ty) = true)
    (h : s.event P c ty payload task = .ok (s', chain)) (hw : Writes P c E s₀ s) :
    Writes P c E s₀ s' :=
  hw.tail (.event hty h)

theorem mail_writes {s₀ : Store} {m : Mail} (hw : Writes P c E s₀ s)
    (hm : m.messages = s.mail.messages) (hl : m.lastSequence = s.mail.lastSequence)
    (hr : m.receipts = s.mail.receipts) : Writes P c E s₀ (s.withMail m) :=
  hw.tail (.mail hm hl hr)

theorem ledger_writes {s₀ : Store} {l : Ledger} (hw : Writes P c E s₀ s)
    (hc : l.cursors = s.ledger.cursors) (hr : l.routeReceipts = s.ledger.routeReceipts)
    (ht : l.trustedReceipts = s.ledger.trustedReceipts) : Writes P c E s₀ (s.withLedger l) :=
  hw.tail (.ledger hc hr ht)

theorem stopForPolicy_frame (now : Utc) (ds : List DiscussionRow) (m : Mail) :
    (stopForPolicy P now ds m).messages = m.messages ∧
      (stopForPolicy P now ds m).lastSequence = m.lastSequence ∧
      (stopForPolicy P now ds m).receipts = m.receipts := by
  induction ds generalizing m with
  | nil => exact ⟨rfl, rfl, rfl⟩
  | cons d ds ih => exact ih _

theorem createRoom_writes {a : CreateRoomArgs} {row : RoomRow}
    (h : createRoom P c a s = .ok (s', row)) : Writes P c Entry.quiet s s' := by
  simp only [createRoom, bind_eq_ok, pure_eq_ok, Prod.mk.injEq] at h
  obtain ⟨_, -, -, -, -, -, name, -, -, -, ⟨r, m, seat⟩, hq, -, -, ⟨s₁, chain⟩, he, rfl, -⟩ := h
  obtain ⟨roles, rfl⟩ := (upsertRoomMembership_ok hq).rooms_eq
  exact event_writes rfl he (.single (.rooms _ (.same rfl)))

theorem joinRoom_writes {a : JoinRoomArgs} {m : MembershipRow}
    (h : joinRoom P c a s = .ok (s', m)) : Writes P c Entry.quiet s s' := by
  simp only [joinRoom, bind_eq_ok, pure_eq_ok, Prod.mk.injEq] at h
  obtain ⟨_, -, _, -, -, -, route, -, role, -, row, -, -, -, ⟨r, mem, seat⟩, hq,
    ⟨s₁, chain⟩, he, rfl, -⟩ := h
  obtain ⟨roles, rfl⟩ := (upsertRoomMembership_ok hq).rooms_eq
  exact event_writes rfl he (.single (.rooms _ (.same rfl)))

theorem leaveRoom_writes {a : LeaveRoomArgs} {m : MembershipRow}
    (h : leaveRoom P c a s = .ok (s', m)) : Writes P c Entry.quiet s s' := by
  simp only [leaveRoom, bind_eq_ok, pure_eq_ok, Prod.mk.injEq] at h
  obtain ⟨_, -, _, -, row, -, -, -, -, -, -, -, ⟨r, mem, seat⟩, hq, ⟨s₁, chain⟩, he, rfl, -⟩ := h
  obtain ⟨-, roles, rfl⟩ := putMembership_ok hq
  exact event_writes rfl he (.single (.rooms _ (.same rfl)))

theorem setRoomAutomation_writes {a : SetRoomAutomationArgs} {policy : PolicyRow}
    (h : setRoomAutomation P c a s = .ok (s', policy)) : Writes P c Entry.quiet s s' := by
  simp only [setRoomAutomation, bind_eq_ok, pure_eq_ok, Prod.mk.injEq] at h
  obtain ⟨_, -, mode, -, limits, -, stag, -, -, -, row, -, existing, -, ⟨s₁, chain⟩, he, rfl, -⟩ := h
  refine event_writes rfl he ?_
  split
  · exact .single (.rooms _ (.same rfl))
  · obtain ⟨hm, hl, hr⟩ := stopForPolicy_frame (P := P) (utcNow c.clock.entry)
      (openDiscussions c.self.scope _ s.mail) s.mail
    exact mail_writes (.single (.rooms _ (.same rfl))) hm hl hr

theorem upsertRouteProfile_writes {a : RouteProfileArgs} {row : RouteProfileRow}
    (h : upsertRouteProfile P c a s = .ok (s', row)) : Writes P c Entry.quiet s s' := by
  simp only [upsertRouteProfile, bind_eq_ok] at h
  obtain ⟨routeId, hroute, agentId, hagent, -, -, -, -, client, -, provider, hprovider, model, hmodel,
    response, -, timeout, -, reasoning, hreasoning, cls, -, -, -, h⟩ := h
  split at h
  · simp only [bind_eq_ok, pure_eq_ok, Prod.mk.injEq] at h
    obtain ⟨sha, -, -, -, rfl, -⟩ := h
    exact .refl
  · rename_i hnone
    simp only [bind_eq_ok, pure_eq_ok, Prod.mk.injEq] at h
    obtain ⟨⟨s₁, chain⟩, he, rfl, -⟩ := h
    refine event_writes rfl he (.single (.rooms _ (.added _ ?_ hnone rfl)))
    exact ⟨c.self.scope_safe, (requireIdentifier_ok hroute).2, (requireIdentifier_ok hagent).2,
      optionalIdentifier_ok hprovider, optionalModelIdentifier_ok hmodel,
      optionalIdentifier_ok hreasoning, rfl⟩

theorem sendMessage_writes {a : SendArgs} {row : MessageRow}
    (h : sendMessage P c a s = .ok (s', row)) : Writes P c Entry.quiet s s' := by
  simp only [sendMessage, bind_eq_ok, pure_eq_ok, Prod.mk.injEq] at h
  obtain ⟨room, -, recipient, -, task, -, subj, -, body, -, prio, -, -, -, -, -, -, -, req, hreq,
    ⟨s₁, r₁⟩, hi, ⟨s₂, chain⟩, he, rfl, -⟩ := h
  refine event_writes rfl he (.single (.insert (fun q hq => ?_) hi))
  obtain rfl : req = some q := hq
  exact ⟨_, hreq⟩

theorem sendRoomFanoutLocked_writes {p : Post} {once : Bool} {rows : List MessageRow}
    (h : sendRoomFanoutLocked P c p once s = .ok (s', rows)) : Writes P c Entry.quiet s s' := by
  simp only [sendRoomFanoutLocked, bind_eq_ok, pure_eq_ok, Prod.mk.injEq] at h
  obtain ⟨-, -, -, -, seats, hseats, s₀, h₀, ⟨s₁, rs⟩, hi, ⟨s₂, chain⟩, he, rfl, -⟩ := h
  refine event_writes rfl he (.single (.fanout (fun d hd => ?_) h₀ hi))
  obtain ⟨seat, hs, rfl⟩ := List.mem_map.mp hd
  intro q hq
  obtain rfl := Option.mem_some_iff.mp hq
  exact prepareSeats_resolved hseats seat hs

theorem sendRoomFanout_writes {a : PostArgs} {rows : List MessageRow}
    (h : sendRoomFanout P c a s = .ok (s', rows)) : Writes P c Entry.quiet s s' := by
  simp only [sendRoomFanout, bind_eq_ok] at h
  obtain ⟨post, -, h⟩ := h
  exact sendRoomFanoutLocked_writes h

theorem supersede_writes {replacement : String} {ds : List DiscussionRow}
    (h : supersede P c replacement ds s = .ok s') : Writes P c Entry.quiet s s' := by
  induction ds generalizing s with
  | nil =>
    rw [pure_eq_ok.mp h]
  | cons d ds ih =>
    simp only [supersede, bind_eq_ok] at h
    obtain ⟨⟨s₁, chain⟩, he, h⟩ := h
    have hfirst : Writes P c Entry.quiet s s₁ :=
      event_writes rfl he (mail_writes (mail_writes .refl rfl rfl rfl) rfl rfl rfl)
    exact hfirst.trans (ih h)

theorem openDiscussion_writes {p : Post} {policy : PolicyRow} {rows : List MessageRow}
    (h : openDiscussion P c p policy s = .ok (s', rows)) : Writes P c Entry.quiet s s' := by
  simp only [openDiscussion, bind_eq_ok, pure_eq_ok, Prod.mk.injEq] at h
  obtain ⟨seats, hseats, -, -, s₁, h₁, ⟨s₂, rs⟩, h₂, -, -, ⟨s₃, chain⟩, he, rfl, -⟩ := h
  have hprompts : Writes P c Entry.quiet s₁ s₂ := by
    refine insertPrompts_writes (fun d hd => ?_) h₂
    obtain ⟨seat, hs, rfl⟩ := List.mem_map.mp hd
    intro q hq
    obtain rfl := Option.mem_some_iff.mp hq
    rw [(supersede_ok h₁).2]
    exact prepareSeats_resolved hseats seat hs
  exact event_writes rfl he (mail_writes ((supersede_writes h₁).trans hprompts) rfl rfl rfl)

theorem postRoomMessage_writes {a : PostArgs} {rows : List MessageRow}
    (h : postRoomMessage P c a s = .ok (s', rows)) : Writes P c Entry.quiet s s' := by
  simp only [postRoomMessage, bind_eq_ok] at h
  obtain ⟨p, -, -, -, policy, -, h⟩ := h
  split at h
  · simp only [postHistory, bind_eq_ok, pure_eq_ok, Prod.mk.injEq] at h
    obtain ⟨⟨s₁, row⟩, hi, ⟨s₂, chain⟩, he, rfl, -⟩ := h
    exact event_writes rfl he (.single (.insert (fun q hq => by simp [Post.draft] at hq) hi))
  · exact sendRoomFanoutLocked_writes h
  all_goals exact openDiscussion_writes h

theorem claimMessageDispatch_writes {a : ClaimArgs} {g : Option ClaimGrant}
    (h : claimMessageDispatch P c a s = .ok (s', g)) : Writes P c Entry.quiet s s' := by
  simp only [claimMessageDispatch, bind_eq_ok] at h
  obtain ⟨q, -, selected, -, h⟩ := h
  cases selected with
  | none =>
    simp only [bind_eq_ok, pure_eq_ok, Prod.mk.injEq] at h
    obtain ⟨-, -, rfl, -⟩ := h
    exact .refl
  | some row =>
    simp only [bind_eq_ok, pure_eq_ok, Prod.mk.injEq] at h
    obtain ⟨⟨s₁, chain⟩, he, rfl, -⟩ := h
    exact event_writes rfl he (mail_writes .refl rfl rfl rfl)

theorem renewMessageDispatch_writes {a : RenewArgs} {d : DispatchRow}
    (h : renewMessageDispatch P c a s = .ok (s', d)) : Writes P c Entry.quiet s s' := by
  simp only [renewMessageDispatch, bind_eq_ok, pure_eq_ok, Prod.mk.injEq] at h
  obtain ⟨id, -, row, -, source, -, ⟨s₁, chain⟩, he, rfl, -⟩ := h
  exact event_writes rfl he (mail_writes .refl rfl rfl rfl)

theorem failMessageDispatch_writes {a : FailArgs} {d : DispatchRow}
    (h : failMessageDispatch P c a s = .ok (s', d)) : Writes P c Entry.quiet s s' := by
  simp only [failMessageDispatch, bind_eq_ok, pure_eq_ok, Prod.mk.injEq] at h
  obtain ⟨id, -, code, -, row, -, source, -, -, -, ⟨s₁, chain⟩, he, rfl, -⟩ := h
  refine event_writes rfl he (mail_writes .refl ?_ ?_ ?_) <;> cases a.retryable <;> rfl

theorem recordTrustedInferenceReceipt_writes {a : TrustedArgs} {row : TrustedReceiptRow}
    (h : recordTrustedInferenceReceipt P c a s = .ok (s', row)) :
    Writes P c (Call.recordTrusted a).entries s s' := by
  simp only [recordTrustedInferenceReceipt, bind_eq_ok] at h
  obtain ⟨q, -, usage, -, dispatch, -, source, -, -, -, -, -, execution, -, connection, -,
    validated, -, -, -, h⟩ := h
  split at h
  · simp only [bind_eq_ok, pure_eq_ok, Prod.mk.injEq] at h
    obtain ⟨-, -, rfl, -⟩ := h
    exact .refl
  · simp only [bind_eq_ok, pure_eq_ok, Prod.mk.injEq] at h
    obtain ⟨-, -, ⟨s₁, chain⟩, he, rfl, -⟩ := h
    exact event_writes rfl he (.single (.trusted _ rfl))

theorem ledger_acknowledge_frame (l : Ledger) (source : MessageRow) (now : Utc) :
    (l.acknowledge source now).cursors = l.cursors ∧
      (l.acknowledge source now).routeReceipts = l.routeReceipts ∧
      (l.acknowledge source now).trustedReceipts = l.trustedReceipts := by
  unfold Ledger.acknowledge
  split <;> exact ⟨rfl, rfl, rfl⟩

theorem ledger_ignoreRouteReceipt_frame (l : Ledger) (r : RouteReceiptRow) :
    (l.ignoreRouteReceipt r).cursors = l.cursors ∧
      (l.ignoreRouteReceipt r).trustedReceipts = l.trustedReceipts := by
  unfold Ledger.ignoreRouteReceipt
  split <;> exact ⟨rfl, rfl⟩

theorem acknowledge_cursors (source : MessageRow) (route : RouteEvaluation) (now : Utc) :
    (s.acknowledge P c source route now).ledger.cursors = s.ledger.cursors := by
  show (Ledger.acknowledge _ source now).cursors = s.ledger.cursors
  rw [(ledger_acknowledge_frame _ source now).1]
  split
  · exact (ledger_ignoreRouteReceipt_frame _ _).1
  · rfl

theorem evaluateRoute_verified_routed {b : Bridge} {consumer : String} {r : Rooms}
    {source : MessageRow} (h : (evaluateRoute P b consumer r source).status = .verified) :
    routeRequestFromRow source ≠ none := by
  intro hn
  rw [evaluateRoute, hn] at h
  cases h

theorem acknowledge_writes {source : MessageRow} (consumer : String) (r : Rooms) (now : Utc)
    (hE : E .routeReceipt = true)
    (hs : s.mail.message? c.self.scope source.messageId = some source) :
    Writes P c E s
      (s.acknowledge P c source (evaluateRoute P c.self consumer r source) now) := by
  have hmail : (s.mail.ignoreReceipt
      { scope := c.self.scope, messageId := source.messageId, agentId := c.self.agentId,
        acknowledgedUtc := now }).message? c.self.scope source.messageId = some source := by
    rw [Mail.message?, Mail.ignoreReceipt_messages]
    exact hs
  have hread : Writes P c E s (s.withMail (s.mail.ignoreReceipt
      { scope := c.self.scope, messageId := source.messageId, agentId := c.self.agentId,
        acknowledgedUtc := now })) := .single (.receipt _)
  have settle {t : Store} (hw : Writes P c E s t) :
      Writes P c E s (t.withLedger (t.ledger.acknowledge source now)) := by
    obtain ⟨hc, hr, ht⟩ := ledger_acknowledge_frame t.ledger source now
    exact ledger_writes hw hc hr ht
  unfold Store.acknowledge
  by_cases hv : (evaluateRoute P c.self consumer r source).status = .verified
  · rw [if_pos hv]
    exact settle (hread.tail (.routeReceipt hE hmail (evaluateRoute_verified_routed hv) now))
  · rw [if_neg hv]
    exact settle hread

theorem message?_id {m : Mail} {scope messageId : String} {x : MessageRow}
    (h : m.message? scope messageId = some x) : x.messageId = messageId := by
  have hk : x.key = (scope, messageId) := lookup_key h
  exact (Prod.mk.inj hk).2

theorem ackMessage_writes {a : AckArgs} {cursor : Nat} (h : ackMessage P c a s = .ok (s', cursor)) :
    Writes P c (Call.ack a).entries s s' := by
  simp only [ackMessage, bind_eq_ok, demand_eq_ok, pure_eq_ok, Prod.mk.injEq] at h
  obtain ⟨id, -, consumer, -, row, hrow, -, -, roomId, -, -, -, -, -, ⟨s₁, chain⟩, he, rfl, -⟩ := h
  rw [← message?_id hrow] at hrow
  exact event_writes rfl he ((acknowledge_writes _ _ _ rfl hrow).tail (.acknowledge _ _))

theorem insertAll_audit {ds : List Draft} {rows : List MessageRow}
    (h : insertAll P c ds s = .ok (s', rows)) : s'.audit = s.audit := by
  induction ds generalizing s s' rows with
  | nil =>
    simp only [insertAll, pure_eq_ok, Prod.mk.injEq] at h
    rw [h.1]
  | cons d ds ih =>
    simp only [insertAll, insertMessage, bind_eq_ok, pure_eq_ok, Prod.mk.injEq] at h
    obtain ⟨⟨s₁, row⟩, ⟨-, -, rfl, rfl⟩, ⟨s₂, rs⟩, h₂, rfl, -⟩ := h
    exact (ih h₂ :)

theorem Write.messages (hw : Write P c E s s') :
    ∃ rows, s'.mail.messages = s.mail.messages ++ rows := by
  cases hw with
  | event _ he => exact ⟨[], by rw [(Store.event_frame he).1, List.append_nil]⟩
  | insert _ hi => exact ⟨_, by rw [(insertReserved_ok hi).1.mail_eq]; rfl⟩
  | fanout _ hr hi =>
    exact ⟨_, by rw [(insertAll_ok hi).1.mail_eq, (Store.reserve_frame hr).1]; rfl⟩
  | receipt r => exact ⟨[], by rw [List.append_nil]; exact Mail.ignoreReceipt_messages _ _⟩
  | mail hm => exact ⟨[], by rw [List.append_nil]; exact hm⟩
  | advance roomId now | acknowledge roomId now | rooms | routeReceipt | trusted | ledger =>
    exact ⟨[], by rw [List.append_nil]; rfl⟩

theorem Writes.messages (hw : Writes P c E s s') :
    ∃ rows, s'.mail.messages = s.mail.messages ++ rows := by
  induction hw with
  | refl => exact ⟨[], by rw [List.append_nil]⟩
  | tail _ hw ih =>
    obtain ⟨xs, hxs⟩ := ih
    obtain ⟨ys, hys⟩ := hw.messages
    exact ⟨xs ++ ys, by rw [hys, hxs, List.append_assoc]⟩

theorem Write.mono {E' : Entry → Bool} (hE : ∀ x, E x = true → E' x = true)
    (hw : Write P c E s s') : Write P c E' s s' := by
  cases hw with
  | event hty he => exact .event (hE _ hty) he
  | insert hd hi => exact .insert hd hi
  | fanout hd hr hi => exact .fanout hd hr hi
  | receipt r => exact .receipt r
  | advance roomId now => exact .advance roomId now
  | acknowledge roomId now => exact .acknowledge roomId now
  | mail hm hl hr => exact .mail hm hl hr
  | rooms r hr => exact .rooms r hr
  | routeReceipt hr hs hq now => exact .routeReceipt (hE _ hr) hs hq now
  | trusted row hr => exact .trusted row (hE _ hr)
  | ledger hc hr ht => exact .ledger hc hr ht

theorem Writes.mono {E' : Entry → Bool} (hE : ∀ x, E x = true → E' x = true)
    (hw : Writes P c E s s') : Writes P c E' s s' := by
  induction hw with
  | refl => exact .refl
  | tail _ hlast ih => exact ih.tail (hlast.mono hE)

-- the state in which a completion writes its last event
structure Completing (P : Platform) (c : Ctx) (s t : Store) (source : MessageRow)
    (route : RouteEvaluation) : Prop where
  source_eq : s.mail.message? c.self.scope source.messageId = some source
  route_eq : route = evaluateRoute P c.self c.self.agentId s.rooms source
  accepted : route.status ≠ .mismatch
  writes : Writes P c Entry.acknowledging s t
  receipts_eq : t.ledger.routeReceipts = (if route.status = .verified then
    s.ledger.ignoreRouteReceipt (routeReceipt P c source (utcNow c.clock.locked))
    else s.ledger).routeReceipts

def completionPayload (P : Platform) (c : Ctx) (source : MessageRow) (route : RouteEvaluation)
    (replyId : String) (completed : DispatchRow) (used : InferenceUsageRow) :
    List (String × Json) :=
  [("message_id", .str source.messageId), ("reply_message_id", .str replyId),
    ("dispatch_sha256", .sha completed.dispatchSha256),
    ("inference_receipt_sha256", .sha used.inferenceReceiptSha256),
    ("route_receipt_sha256", .optSha (if route.status = .verified then
      some (routeReceipt P c source (utcNow c.clock.locked)).receiptSha256 else none)),
    ("inference_usage_sha256", .sha used.usageSha256),
    ("inference_usage_status", .str used.usage.status)]

theorem completeMessageDispatch_last {a : CompleteArgs} {x : Completion}
    (h : completeMessageDispatch P c a s = .ok (s', x)) :
    (x.replay = true ∧ s' = s) ∨ ∃ t row source route replyId used chain,
      requireDispatchLease P c (strip a.messageId) a.leaseToken true s.mail = .ok row ∧
      row.status ≠ .completed ∧ source.messageId = strip a.messageId ∧
      Completing P c s t source route ∧
      t.event P c "message.dispatch_completed"
        (completionPayload P c source route replyId x.dispatch used) (some source.taskId) =
          .ok (s', chain) := by
  simp only [completeMessageDispatch, bind_eq_ok] at h
  obtain ⟨q, hq, row, hrow, h⟩ := h
  have hqid : q.messageId = strip a.messageId := by
    simp only [requireComplete, bind_eq_ok, pure_eq_ok] at hq
    obtain ⟨id, hid, body, -, sha, -, usage, -, rfl⟩ := hq
    exact (requireIdentifier_ok hid).1
  split at h
  · simp only [pure_eq_ok, Prod.mk.injEq] at h
    obtain ⟨rfl, rfl⟩ := h
    exact .inl ⟨rfl, rfl⟩
  · rename_i hopen
    simp only [bind_eq_ok, pure_eq_ok, Prod.mk.injEq, requireSource, demand_eq_ok] at h
    obtain ⟨_, ⟨source, hsource, -, -, rfl⟩, -, -, -, -, _, hroute, -, -, subject, -, ⟨s₁, reply⟩,
      hi, -, -, ⟨s₂, chain₂⟩, he₂, ⟨s₃, chain₃⟩, he₃, rfl, rfl⟩ := h
    have hid := message?_id hsource
    rw [hqid] at hrow
    refine .inr ⟨s₂, row, source, _, reply.messageId, usageRow P c q source reply.messageId
      (utcNow c.clock.locked), chain₃, hrow, hopen, hid.trans hqid,
      ⟨by rwa [hid], rfl, require_eq_ok.mp hroute, ?_, ?_⟩, ?_⟩
    · have hreply : Writes P c Entry.acknowledging s s₁ :=
        .single (.insert (fun q hq => by simp [replyDraft] at hq) hi)
      have hs : s₁.mail.message? c.self.scope source.messageId = some source := by
        rw [hid, (insertReserved_ok hi).1.mail_eq]
        exact message?_grow rfl hsource
      have hack := (hreply.trans (acknowledge_writes c.self.agentId s.rooms
        (utcNow c.clock.locked) rfl hs)).tail (.advance source.roomId (utcNow c.clock.locked))
      refine event_writes rfl he₂ ?_
      exact ledger_writes (mail_writes hack rfl rfl rfl) rfl rfl rfl
    · rw [(Store.event_frame he₂).2.2]
      show (Ledger.acknowledge _ source (utcNow c.clock.locked)).routeReceipts = _
      rw [(ledger_acknowledge_frame _ source _).2.1, (insertReserved_ok hi).2.2]
    · rw [← he₃, completionPayload, hid]
      rfl

theorem completeMessageDispatch_writes {a : CompleteArgs} {x : Completion}
    (h : completeMessageDispatch P c a s = .ok (s', x)) :
    Writes P c (Call.complete a).entries s s' := by
  rcases completeMessageDispatch_last h with
    ⟨-, rfl⟩ | ⟨t, row, source, route, replyId, used, chain, -, -, -, ht, he⟩
  · exact .refl
  · refine event_writes rfl he (ht.writes.mono fun y hy => ?_)
    cases y with
    | event ty | routeReceipt => rfl
    | trustedReceipt => cases hy

theorem blockParticipants_writes {ty : String} {e : BridgeError} {extra : List (String × Json)}
    {d blocked : DiscussionRow} {x : Advance} (hty : (Entry.event ty).quiet = true)
    (h : blockParticipants P c ty e extra d blocked s = .ok (s', x)) :
    Writes P c Entry.quiet s s' := by
  simp only [blockParticipants, bind_eq_ok, pure_eq_ok, Prod.mk.injEq] at h
  obtain ⟨⟨s₁, chain⟩, he, rfl, -⟩ := h
  exact event_writes hty he (mail_writes (mail_writes .refl rfl rfl rfl) rfl rfl rfl)

theorem blockFailedDispatch_writes {d : DiscussionRow} {failed : MessageRow} {x : Advance}
    (h : blockFailedDispatch P c d failed s = .ok (s', x)) : Writes P c Entry.quiet s s' := by
  simp only [blockFailedDispatch, bind_eq_ok, pure_eq_ok, Prod.mk.injEq] at h
  obtain ⟨⟨s₁, chain⟩, he, rfl, -⟩ := h
  exact event_writes rfl he (mail_writes .refl rfl rfl rfl)

theorem takeFreeStep_writes {d : DiscussionRow} {f : FreeStep} {x : Advance}
    (hf : ∀ seat ∈ f.targets, seat.Resolved P c.self.scope s.rooms)
    (h : takeFreeStep P c d f s = .ok (s', x)) :
    Writes P c Entry.quiet s s' := by
  simp only [takeFreeStep, bind_eq_ok, pure_eq_ok, Prod.mk.injEq] at h
  obtain ⟨⟨s₁, rows⟩, hi, ⟨s₂, chain⟩, he, rfl, -⟩ := h
  refine event_writes rfl he (mail_writes (insertPrompts_writes (fun d hd => ?_) hi) rfl rfl rfl)
  unfold FreeStep.drafts at hd
  split at hd
  · obtain ⟨seat, hs, rfl⟩ := List.mem_map.mp hd
    exact Seat.draft_resolved (hf seat hs) _ _ _ _ _ _
  · simp at hd

theorem takeRoundStep_writes {d : DiscussionRow} {r : RoundStep} {x : Advance}
    (hr : ∀ seat ∈ r.participants, seat.Resolved P c.self.scope s.rooms)
    (h : takeRoundStep P c d r s = .ok (s', x)) :
    Writes P c Entry.quiet s s' := by
  simp only [takeRoundStep, bind_eq_ok, pure_eq_ok, Prod.mk.injEq] at h
  obtain ⟨⟨s₁, rows⟩, hi, ⟨s₂, chain⟩, he, rfl, -⟩ := h
  refine event_writes rfl he (mail_writes (insertPrompts_writes (fun d hd => ?_) hi) rfl rfl rfl)
  unfold RoundStep.drafts at hd
  split at hd
  · obtain ⟨seat, hs, rfl⟩ := List.mem_map.mp hd
    exact Seat.draft_resolved (hr seat hs) _ _ _ _ _ _
  · simp at hd

theorem idle_writes {o : Option Advance} (h : idle s = .ok (s', o)) : Writes P c E s s' := by
  simp only [idle, pure_eq_ok, Prod.mk.injEq] at h
  rw [h.1]

theorem advanceFreeDiscussionLocked_writes {d : DiscussionRow} {o : Option Advance}
    (h : advanceFreeDiscussionLocked P c d s = .ok (s', o)) : Writes P c Entry.quiet s s' := by
  unfold advanceFreeDiscussionLocked at h
  split at h
  · obtain ⟨x, hx, -⟩ := advanced_ok h
    exact blockParticipants_writes rfl hx
  · rename_i seats hseats
    split at h
    · split at h
      · exact idle_writes h
      · obtain ⟨x, hx, -⟩ := advanced_ok h
        exact blockFailedDispatch_writes hx
    · split at h
      · exact idle_writes h
      · obtain ⟨x, hx, -⟩ := advanced_ok h
        refine takeFreeStep_writes (fun seat hs => ?_) hx
        exact discussionParticipants_resolved hseats seat (List.mem_of_mem_filter hs)

theorem advanceRound_writes {d : DiscussionRow} {o : Option Advance}
    (h : advanceRound P c d s = .ok (s', o)) : Writes P c Entry.quiet s s' := by
  unfold advanceRound at h
  split at h
  · exact idle_writes h
  · split at h
    · obtain ⟨x, hx, -⟩ := advanced_ok h
      exact blockParticipants_writes rfl hx
    · rename_i seats hseats
      simp only [bind_eq_ok] at h
      obtain ⟨-, -, h⟩ := h
      split at h
      · exact idle_writes h
      · obtain ⟨x, hx, -⟩ := advanced_ok h
        exact takeRoundStep_writes (discussionParticipants_resolved hseats) hx

theorem advanceEach_writes {ds : List DiscussionRow} {xs : List Advance}
    (h : advanceEach P c ds s = .ok (s', xs)) : Writes P c Entry.quiet s s' := by
  induction ds generalizing s xs with
  | nil =>
    simp only [advanceEach, pure_eq_ok, Prod.mk.injEq] at h
    rw [h.1]
  | cons d ds ih =>
    simp only [advanceEach, bind_eq_ok, pure_eq_ok, Prod.mk.injEq] at h
    obtain ⟨⟨s₁, o⟩, h₁, ⟨s₂, ys⟩, h₂, rfl, -⟩ := h
    refine Relation.ReflTransGen.trans ?_ (ih h₂)
    unfold advanceOne at h₁
    split at h₁
    · exact advanceFreeDiscussionLocked_writes h₁
    · exact advanceRound_writes h₁

theorem continueDiscussion_writes {n k : Nat} {d x : DiscussionRow}
    (h : continueDiscussion P c n d s = .ok (s', x, k)) : Writes P c Entry.quiet s s' := by
  simp only [continueDiscussion, bind_eq_ok] at h
  obtain ⟨-, -, h⟩ := h
  split at h
  · simp only [pure_eq_ok, Prod.mk.injEq] at h
    rw [h.1]
  · simp only [bind_eq_ok, pure_eq_ok, Prod.mk.injEq] at h
    obtain ⟨-, -, seats, hseats, -, -, -, -, ⟨s₁, rows⟩, hi, rfl, -⟩ := h
    refine insertPrompts_writes (fun d hd => ?_) hi
    obtain ⟨seat, hs, rfl⟩ := List.mem_map.mp hd
    exact Seat.draft_resolved (discussionParticipants_resolved hseats seat hs) _ _ _ _ _ _

theorem controlUpdate_writes {action : ControlAction} {n k : Nat} {d x : DiscussionRow}
    (h : controlUpdate P c action n d s = .ok (s', x, k)) : Writes P c Entry.quiet s s' := by
  cases action with
  | pause =>
    simp only [controlUpdate, bind_eq_ok, pure_eq_ok, Prod.mk.injEq] at h
    obtain ⟨-, -, rfl, -⟩ := h
    exact .refl
  | resume =>
    simp only [controlUpdate, bind_eq_ok, pure_eq_ok, Prod.mk.injEq] at h
    obtain ⟨-, -, rfl, -⟩ := h
    exact .refl
  | stop =>
    simp only [controlUpdate, bind_eq_ok, pure_eq_ok, Prod.mk.injEq] at h
    obtain ⟨-, -, rfl, -⟩ := h
    exact mail_writes .refl rfl rfl rfl
  | «continue» => exact continueDiscussion_writes h

theorem controlDiscussion_writes {a : ControlArgs} {d : DiscussionRow}
    (h : controlDiscussion P c a s = .ok (s', d)) : Writes P c Entry.quiet s s' := by
  simp only [controlDiscussion, bind_eq_ok, pure_eq_ok, Prod.mk.injEq] at h
  obtain ⟨id, -, action, -, n, -, row, -, manager, -, ⟨s₁, updated, k⟩, hu, ⟨s₂, chain⟩, he, rfl,
    -⟩ := h
  exact event_writes rfl he (mail_writes (controlUpdate_writes hu) rfl rfl rfl)

theorem reconcileMessageDispatches_writes {a : ReconcileArgs} {xs : List Reconciled}
    (h : reconcileMessageDispatches P c a s = .ok (s', xs)) : Writes P c Entry.quiet s s' := by
  simp only [reconcileMessageDispatches, bind_eq_ok] at h
  obtain ⟨-, -, limit, -, attempts, -, observations, -, ys, -, -, -, h⟩ := h
  obtain ⟨ds, hds⟩ := putReconciled_frame ys s.mail
  have hput : Writes P c Entry.quiet s (s.withMail (putReconciled ys s.mail)) := by
    rw [hds]
    exact mail_writes .refl rfl rfl rfl
  split at h
  · simp only [pure_eq_ok, Prod.mk.injEq] at h
    obtain ⟨rfl, -⟩ := h
    exact hput
  · simp only [bind_eq_ok, pure_eq_ok, Prod.mk.injEq] at h
    obtain ⟨⟨s₁, chain⟩, he, rfl, -⟩ := h
    exact event_writes rfl he hput

theorem perform_writes {call : Call} {r : Reply} (h : perform P c s call = .ok (s', r)) :
    (call = .openScope ∧ s' = initDb P c s) ∨ Writes P c call.entries s s' := by
  cases call <;> simp only [perform] at h
  case openScope =>
    simp only [pure_eq_ok, Prod.mk.injEq] at h
    exact .inl ⟨rfl, h.1.symm⟩
  all_goals
    obtain ⟨x, hx, rfl⟩ := replyWith_ok h
    refine .inr ?_
  case createRoom a => exact createRoom_writes hx
  case joinRoom a => exact joinRoom_writes hx
  case leaveRoom a => exact leaveRoom_writes hx
  case setRoomAutomation a => exact setRoomAutomation_writes hx
  case upsertRouteProfile a => exact upsertRouteProfile_writes hx
  case sendMessage a => exact sendMessage_writes hx
  case sendRoomFanout a => exact sendRoomFanout_writes hx
  case postRoomMessage a => exact postRoomMessage_writes hx
  case claim a => exact claimMessageDispatch_writes hx
  case renew a => exact renewMessageDispatch_writes hx
  case fail a => exact failMessageDispatch_writes hx
  case recordTrusted a => exact recordTrustedInferenceReceipt_writes hx
  case complete a => exact completeMessageDispatch_writes hx
  case ack a => exact ackMessage_writes hx
  case advance a =>
    simp only [advanceDiscussions, bind_eq_ok] at hx
    obtain ⟨selected, -, hx⟩ := hx
    exact advanceEach_writes hx
  case control a => exact controlDiscussion_writes hx
  case reconcile a => exact reconcileMessageDispatches_writes hx

end Calls

end PeerBridge
