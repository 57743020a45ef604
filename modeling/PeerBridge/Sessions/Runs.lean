import PeerBridge.Sessions.Registry
import PeerBridge.Scenario

namespace PeerBridge.AuthorizedSessions
open Checked Rows

inductive Request where
  | connect (a : ConnectArgs)
  | publish (a : PublishArgs)
  | close (a : CloseArgs)
  -- the other operations of the bridge leave their own tables in any state
  | bridge (s : Store)

inductive Answer where
  | done
  | published (p : Published)

def PublishArgs.key (a : PublishArgs) (c : Ctx) : Option Key :=
  (SourceType.parse? (lower (strip a.sourceType))).map
    (fun ty => (c.self.scope, ty, strip a.sourceSessionId))

def ConnectArgs.key (a : ConnectArgs) (c : Ctx) : Option Key :=
  (SourceType.parse? (lower (strip a.sourceType))).map
    (fun ty => (c.self.scope, ty, strip a.sourceSessionId))

-- the event a call has newly stored
def accepted : Except SessionError Answer → Option Published
  | .ok (.published p) => if p.idempotentReplay then none else some p
  | _ => none

theorem accepted_eq_some {r : Except SessionError Answer} {p : Published} :
    accepted r = some p ↔ r = .ok (.published p) ∧ p.idempotentReplay = false := by
  cases r with
  | error e => simp [accepted]
  | ok answer =>
    cases answer with
    | done => simp [accepted]
    | published q =>
      cases hq : q.idempotentReplay with
      | true =>
        simp only [accepted, hq, if_true]
        constructor
        · intro hn
          cases hn
        · rintro ⟨he, hp⟩
          cases he
          rw [hq] at hp
          cases hp
      | false =>
        simp only [accepted, hq, Bool.false_eq_true, if_false, Option.some.injEq, Except.ok.injEq,
          Answer.published.injEq]
        exact ⟨fun he => ⟨he, he ▸ hq⟩, fun he => he.1⟩

structure World where
  registry : Registry
  now : ℚ

def perform (H : Host) (c : Ctx) (g : Registry) :
    Request → Except SessionError (Registry × Answer)
  | .connect a => (fun g' => (g', .done)) <$> connect H c a g
  | .publish a => (fun r => (r.1, .published r.2)) <$> publishEvent H c a g
  | .close a => (fun g' => (g', .done)) <$> close H c a g
  | .bridge s => pure ({ g with store := s }, .done)

-- a call that raises rolls its transaction back
def attempt (H : Host) (w : World) (i : Request × Ctx) : World × Except SessionError Answer :=
  match perform H i.2 w.registry i.1 with
  | .ok (g, answer) => ({ registry := g, now := i.2.clock.later }, .ok answer)
  | .error e => ({ w with now := i.2.clock.later }, .error e)

def Clock.steady (k : Clock) : Prop := k.entry ≤ k.locked ∧ k.locked ≤ k.later

instance (k : Clock) : Decidable (Clock.steady k) := inferInstanceAs (Decidable (_ ∧ _))

def registry (H : Host) : Machine World (Request × Ctx) (Except SessionError Answer) where
  start w := w.registry.sessions = [] ∧ w.registry.events = []
  admits w i := w.now ≤ i.2.clock.locked ∧ Clock.steady i.2.clock
  exec := attempt H

instance (H : Host) (w : World) (i : Request × Ctx) : Decidable ((registry H).admits w i) :=
  inferInstanceAs (Decidable (_ ∧ _))

def SessionRow.Sealed (P : Platform) (r : SessionRow) : Prop :=
  r.sessionSha256 = P.stableSha256 (sessionPayload r)

def SessionEvent.Sealed (P : Platform) (e : SessionEvent) : Prop :=
  e.eventSha256 = P.stableSha256 (eventPayload e)

theorem sealSession_sealed (P : Platform) (r : SessionRow) : (sealSession P r).Sealed P := rfl

theorem sealEvent_sealed (P : Platform) (e : SessionEvent) : (sealEvent P e).Sealed P := rfl

def without (gone : List Key) (rows : List SessionRow) : List SessionRow :=
  rows.filter (fun r => r.key ∉ gone)

def withoutEvents (gone : List Key) (events : List SessionEvent) : List SessionEvent :=
  events.filter (fun e => e.key ∉ gone)

-- what one call leaves in the two tables
structure Connected (H : Host) (c : Ctx) (g g' : Registry) (row : SessionRow) (gone : List Key) :
    Prop where
  sessions_eq : g'.sessions = upsert SessionRow.key row (without gone g.sessions)
  events_eq : g'.events = withoutEvents gone g.events
  sealed : row.Sealed H.platform
  scope_eq : row.scope = c.self.scope
  seen : row.lastSeenEpoch = c.clock.entry
  alone : ∀ room ∈ row.roomSessionId, ∀ r ∈ g.sessions, r.scope = row.scope →
    r.roomSessionId = some room → r.key ≠ row.key → r.live H c.clock.entry = false
  opened : g.session? row.key = none → row.latestSequence = 0 ∧
    gone = (g.victims H c.self.scope c.clock.entry).map SessionRow.key
  resumed : ∀ q, g.session? row.key = some q → row.latestSequence = q.latestSequence ∧ gone = []

structure Touched (H : Host) (c : Ctx) (g g' : Registry) (row updated : SessionRow) : Prop where
  sessions_eq : g'.sessions = upsert SessionRow.key updated g.sessions
  found : g.session? updated.key = some row
  scope_eq : updated.scope = c.self.scope
  owner : row.ownerAgentId = c.self.agentId ∧ row.ownerBridgeSessionId = c.self.sessionId
  sealed : updated.Sealed H.platform
  room_eq : updated.roomSessionId = row.roomSessionId
  seen : updated.lastSeenEpoch = c.clock.entry

structure Appended (H : Host) (c : Ctx) (g g' : Registry) (row updated : SessionRow)
    (e : SessionEvent) : Prop extends Touched H c g g' row updated where
  events_eq : g'.events = storeEvent e g.events
  supports : row.supportsEvents = true
  key_eq : e.key = updated.key
  unused : g.eventOf e.key e.adapterEventId = none
  state_eq : updated.state = e.stateAfter
  latest : updated.latestSequence = row.latestSequence + 1
  sequence_eq : e.sequence = row.latestSequence + 1
  event_sealed : e.Sealed H.platform

-- the arguments of a publish call name the row and the event
structure Named (a : PublishArgs) (row : SessionRow) (e : SessionEvent) : Prop where
  sourceType_eq : SourceType.parse? (lower (strip a.sourceType)) = some row.sourceType
  session_eq : strip a.sourceSessionId = row.sourceSessionId
  event_eq : strip a.eventId = e.adapterEventId
  state_eq : SessionState.parse? (lower (strip (if a.state = "" then "running" else a.state))) =
    some e.stateAfter

structure Closed (H : Host) (c : Ctx) (g g' : Registry) (row updated : SessionRow) : Prop
    extends Touched H c g g' row updated where
  terminal : updated.state.terminal = true
  latest : updated.latestSequence = row.latestSequence
  events_eq : g'.events = g.events

section Inversion
variable {H : Host} {P : Platform} {c : Ctx} {g g' : Registry}

theorem Registry.event_ok {ty : String} {payload : List (String × Json)}
    (h : g.event P c ty payload = .ok g') : g'.sessions = g.sessions ∧ g'.events = g.events := by
  unfold Registry.event at h
  cases hs : g.store.event P c ty payload none with
  | error e => simp [hs] at h
  | ok r =>
    simp only [hs, pure_eq_ok] at h
    subst h
    exact ⟨rfl, rfl⟩

theorem pruneRow_ok {now : ℚ} {r : SessionRow} (h : pruneRow H c now g r = .ok g') :
    g'.sessions = without [r.key] g.sessions ∧ g'.events = withoutEvents [r.key] g.events := by
  obtain ⟨hs, he⟩ := Registry.event_ok h
  refine ⟨hs.trans ?_, he.trans ?_⟩
  · simp [without]
  · simp [withoutEvents]

theorem without_append (xs ys : List Key) (rows : List SessionRow) :
    without ys (without xs rows) = without (xs ++ ys) rows := by
  simp only [without, List.filter_filter]
  congr 1
  funext r
  simp [Bool.and_comm]

theorem withoutEvents_append (xs ys : List Key) (events : List SessionEvent) :
    withoutEvents ys (withoutEvents xs events) = withoutEvents (xs ++ ys) events := by
  simp only [withoutEvents, List.filter_filter]
  congr 1
  funext e
  simp [Bool.and_comm]

theorem pruneRows_ok {now : ℚ} {rows : List SessionRow}
    (h : rows.foldlM (pruneRow H c now) g = .ok g') :
    g'.sessions = without (rows.map SessionRow.key) g.sessions ∧
      g'.events = withoutEvents (rows.map SessionRow.key) g.events := by
  induction rows generalizing g with
  | nil =>
    obtain rfl := (pure_eq_ok).mp h
    simp [without, withoutEvents]
  | cons r rows ih =>
    rw [List.foldlM_cons, bind_eq_ok] at h
    obtain ⟨g₁, hr, h⟩ := h
    obtain ⟨hs, he⟩ := pruneRow_ok hr
    obtain ⟨hs', he'⟩ := ih h
    rw [hs', hs, he', he, without_append, withoutEvents_append]
    exact ⟨rfl, rfl⟩

theorem pruneForNewSession_ok {now : ℚ} (h : pruneForNewSession H c now g = .ok g') :
    g'.sessions = without ((g.victims H c.self.scope now).map SessionRow.key) g.sessions ∧
      g'.events = withoutEvents ((g.victims H c.self.scope now).map SessionRow.key) g.events := by
  simp only [pruneForNewSession, bind_eq_ok] at h
  obtain ⟨-, -, -, -, h⟩ := h
  exact pruneRows_ok h

theorem without_nil (rows : List SessionRow) : without [] rows = rows := by simp [without]

theorem withoutEvents_nil (events : List SessionEvent) : withoutEvents [] events = events := by
  simp [withoutEvents]

theorem verifiedSessionRow_ok {k : Key} {row : SessionRow}
    (h : verifiedSessionRow P k g = .ok row) : g.session? k = some row := by
  simp only [verifiedSessionRow, bind_eq_ok, demand_eq_ok, pure_eq_ok] at h
  obtain ⟨r, hr, -, -, rfl⟩ := h
  exact hr

theorem identifier_ok {value label t : String} (h : identifier H value label = .ok t) :
    t = strip value := by
  simp only [identifier, bind_eq_ok, pure_eq_ok] at h
  obtain ⟨-, -, rfl⟩ := h
  rfl

theorem admit_ok {now : ℚ} {conv : String} {room : RoomBinding} {existing : Option SessionRow}
    (h : admitSession H c now conv room existing g = .ok g') :
    ∃ gone, g'.sessions = without gone g.sessions ∧ g'.events = withoutEvents gone g.events ∧
      (existing = none → gone = (g.victims H c.self.scope now).map SessionRow.key) ∧
      (existing.isSome = true → gone = []) := by
  cases existing with
  | none =>
    obtain ⟨hs, he⟩ := pruneForNewSession_ok h
    exact ⟨_, hs, he, fun _ => rfl, by simp⟩
  | some row =>
    simp only [admitSession, bind_eq_ok, pure_eq_ok] at h
    obtain ⟨-, -, rfl⟩ := h
    exact ⟨[], (without_nil _).symm, (withoutEvents_nil _).symm, (by simp), fun _ => rfl⟩

theorem connect_ok {a : ConnectArgs} (h : connect H c a g = .ok g') :
    ∃ row gone, Connected H c g g' row gone ∧ a.key c = some row.key := by
  simp only [connect, requireSourceType, bind_eq_ok, demand_eq_ok] at h
  obtain ⟨ty, hty, sid, hsid, conv, -, adapter, -, state, -, ⟨display, b1⟩, -, ⟨client, b2⟩, -,
    ⟨version, b3⟩, -, ⟨requested, b4⟩, -, ⟨observed, b5⟩, -, ⟨osource, b6⟩, -, ⟨model, b7⟩, -,
    ⟨msource, b8⟩, -, roomId, -, room, -, _, halone, g₁, hadmit, h⟩ := h
  obtain ⟨hs, he⟩ := Registry.event_ok h
  obtain ⟨gone, hps, hpe, hopened, hresumed⟩ := admit_ok hadmit
  obtain rfl := identifier_ok hsid
  simp only [requireNoConflict, require_eq_ok] at halone
  have hroom : ∀ r ∈ room.roomSessionId, ∀ q ∈ g.sessions, q.scope = c.self.scope →
      q.roomSessionId = some r → q.key ≠ (c.self.scope, ty, strip a.sourceSessionId) →
      q.live H c.clock.entry = false := by
    intro r hr q hq h1 h2 h3
    have hall := (Option.all_eq_true _ _).mp halone r hr
    have hrow := List.all_eq_true.mp hall q hq
    simpa [h1, h2, h3] using hrow
  have hrows := hs.trans (congrArg (upsert SessionRow.key _) hps)
  refine ⟨_, gone, ⟨hrows, he.trans hpe, sealSession_sealed _ _, rfl, rfl, hroom,
    fun hn => ?_, fun q hq => ?_⟩, by rw [ConnectArgs.key, hty]; rfl⟩
  · have hx : g.session? (c.self.scope, ty, strip a.sourceSessionId) = none := hn
    exact ⟨by simp [hx, sealSession], hopened hx⟩
  · have hx : g.session? (c.self.scope, ty, strip a.sourceSessionId) = some q := hq
    exact ⟨by simp [hx, sealSession], hresumed (by rw [hx]; rfl)⟩

theorem publishEvent_ok {a : PublishArgs} {p : Published}
    (h : publishEvent H c a g = .ok (g', p)) :
    (g' = g ∧ p.idempotentReplay = true) ∨
      (p.idempotentReplay = false ∧
        ∃ row updated e, Appended H c g g' row updated e ∧ Named a row e ∧
          e.sequence = p.sequence) := by
  simp only [publishEvent, requireSourceType, requireState, bind_eq_ok, demand_eq_ok] at h
  obtain ⟨ty, hty, sid, hsid, eid, heid, stream, -, kind, -, ⟨text, tr⟩, -, ⟨summary, sr⟩, -,
    state, hstate, row, hrow, _, howner, _, hsupports, h⟩ := h
  obtain rfl := identifier_ok hsid
  obtain rfl := identifier_ok heid
  have hfound := verifiedSessionRow_ok hrow
  simp only [requireAdapterOwner, require_eq_ok] at howner hsupports
  cases hx : g.eventOf (c.self.scope, ty, strip a.sourceSessionId) (strip a.eventId) with
  | some e =>
    rw [hx] at h
    simp only [bind_eq_ok, pure_eq_ok, Prod.mk.injEq] at h
    obtain ⟨-, -, rfl, rfl⟩ := h
    exact .inl ⟨rfl, rfl⟩
  | none =>
    rw [hx] at h
    simp only [bind_eq_ok, pure_eq_ok, Prod.mk.injEq] at h
    obtain ⟨g₁, hev, rfl, rfl⟩ := h
    obtain ⟨hs, he⟩ := Registry.event_ok hev
    have hkey := lookup_key hfound
    have hk : row.scope = c.self.scope ∧ row.sourceType = ty ∧
        row.sourceSessionId = strip a.sourceSessionId := by
      simpa [SessionRow.key] using hkey
    refine .inr ⟨rfl, row, _, _, ⟨⟨hs, ?_, hk.1, howner, sealSession_sealed _ _, rfl, rfl⟩,
      he, hsupports, ?_, hx, rfl, rfl, rfl, sealEvent_sealed _ _⟩,
      ⟨by rw [hk.2.1, hty], hk.2.2.symm, rfl, hstate⟩, rfl⟩
    · exact (congrArg g.session? hkey).trans hfound
    · exact hkey.symm

theorem close_ok {a : CloseArgs} (h : close H c a g = .ok g') :
    ∃ row updated, Closed H c g g' row updated := by
  simp only [close, bind_eq_ok] at h
  obtain ⟨ty, -, sid, -, state, -, _, hterminal, row, hrow, _, howner, h⟩ := h
  have hfound := verifiedSessionRow_ok hrow
  simp only [requireAdapterOwner, require_eq_ok] at howner hterminal
  obtain ⟨hs, he⟩ := Registry.event_ok h
  have hkey := lookup_key hfound
  have hk : row.scope = c.self.scope ∧ row.sourceType = ty ∧ row.sourceSessionId = sid := by
    simpa [SessionRow.key] using hkey
  exact ⟨row, _, ⟨hs, (congrArg g.session? hkey).trans hfound, hk.1, howner,
    sealSession_sealed _ _, rfl, rfl⟩, hterminal, rfl, he⟩

end Inversion

-- what one step of a run leaves in the two tables
inductive Change (H : Host) (c : Ctx) (g g' : Registry) (q : Request) : Prop
  | kept : g'.sessions = g.sessions → g'.events = g.events → Change H c g g' q
  | connected (a : ConnectArgs) (row : SessionRow) (gone : List Key) :
      q = .connect a → a.key c = some row.key → Connected H c g g' row gone → Change H c g g' q
  | appended (a : PublishArgs) (row updated : SessionRow) (e : SessionEvent) :
      q = .publish a → Named a row e → Appended H c g g' row updated e → Change H c g g' q
  | closed (row updated : SessionRow) : Closed H c g g' row updated → Change H c g g' q

theorem perform_change {H : Host} {c : Ctx} {g g' : Registry} {q : Request} {answer : Answer}
    (h : perform H c g q = .ok (g', answer)) : Change H c g g' q := by
  cases q with
  | connect a =>
    cases hc : connect H c a g with
    | error e => simp [perform, hc] at h
    | ok g₁ =>
      obtain ⟨rfl, -⟩ : g₁ = g' ∧ Answer.done = answer := by simpa [perform, hc] using h
      obtain ⟨row, gone, hrow, hkey⟩ := connect_ok hc
      exact .connected a row gone rfl hkey hrow
  | publish a =>
    cases hc : publishEvent H c a g with
    | error e => simp [perform, hc] at h
    | ok r =>
      obtain ⟨g₁, p⟩ := r
      obtain ⟨rfl, -⟩ : g₁ = g' ∧ Answer.published p = answer := by simpa [perform, hc] using h
      rcases publishEvent_ok hc with ⟨rfl, -⟩ | ⟨-, row, updated, e, he, hnamed, -⟩
      · exact .kept rfl rfl
      · exact .appended a row updated e rfl hnamed he
  | close a =>
    cases hc : close H c a g with
    | error e => simp [perform, hc] at h
    | ok g₁ =>
      obtain ⟨rfl, -⟩ : g₁ = g' ∧ Answer.done = answer := by simpa [perform, hc] using h
      obtain ⟨row, updated, hrow⟩ := close_ok hc
      exact .closed row updated hrow
  | bridge s =>
    obtain ⟨rfl, -⟩ : { g with store := s } = g' ∧ Answer.done = answer := by
      simpa [perform] using h
    exact .kept rfl rfl

theorem exec_change (H : Host) (w : World) (i : Request × Ctx) :
    Change H i.2 w.registry ((registry H).exec w i).1.registry i.1 ∧
      ((registry H).exec w i).1.now = i.2.clock.later := by
  change Change H i.2 w.registry (attempt H w i).1.registry i.1 ∧ (attempt H w i).1.now = _
  unfold attempt
  cases hp : perform H i.2 w.registry i.1 with
  | error e => exact ⟨.kept rfl rfl, rfl⟩
  | ok r => exact ⟨@perform_change _ _ _ r.1 _ r.2 hp, rfl⟩

def sampleHost (maxRetainedSessions : Nat)
    (bounds : 1 ≤ maxRetainedSessions ∧ maxRetainedSessions ≤ maxAuthorizedSessions) : Host :=
  { platform := samplePlatform, redactSecrets := id, adapterTtlSeconds := 90,
    maxRetainedSessions, ttl_bounds := by decide, retained_bounds := bounds }

def sampleSeat : MembershipRow :=
  { scope := "demo", roomId := "lab", agentId := "worker", routeProfileId := none,
    roomSessionId := "seat", status := .active, joinedUtc := 0, updatedUtc := 0, leftUtc := none,
    membershipSha256 := zeroSha256 }

def seatedWorld : World :=
  { registry :=
      { store := { Store.initial [] with rooms := { Rooms.empty with memberships := [sampleSeat] } },
        sessions := [], events := [] },
    now := 0 }

def workerCtx (second : Nat) : Ctx := sampleCtx (sampleAgent "worker") second

def asWorker (second : Nat) (q : Request) : Request × Ctx := (q, workerCtx second)

def sampleConnect (id : String) (roomId : String := "") : Request :=
  .connect { sourceType := "authorized-terminal", sourceSessionId := id,
             sourceConversationId := "talk", adapterId := "adapter", supportsEvents := true,
             displayName := "Worker", clientName := "client", roomId }

def samplePublish (id eventId : String) : Request :=
  .publish { sourceType := "authorized-terminal", sourceSessionId := id, eventId, text := "hello" }

def sampleClose (id : String) : Request :=
  .close { sourceType := "authorized-terminal", sourceSessionId := id }

end PeerBridge.AuthorizedSessions
