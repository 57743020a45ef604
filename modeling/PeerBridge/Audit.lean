import PeerBridge.Store

namespace PeerBridge
open Checked Rows

def zeroSha256 : Sha256 := ⟨0⟩

def maxScopeMessageRows : Nat := 200000
def maxScopeMessageBytes : Nat := 256 * 1024 * 1024
def maxScopeEventRows : Nat := 1000000
def maxScopeEventBytes : Nat := 1024 * 1024 * 1024

def Audit.usage (a : Audit) (scope : String) (now : Utc) : StorageUsageRow :=
  (lookup StorageUsageRow.scope scope a.storageUsage).getD
    { scope, messageRows := 0, messageBytes := 0, eventRows := 0, eventBytes := 0,
      updatedUtc := now }

def reserveEventStorage (c : Ctx) (payloadBytes : Nat) (a : Audit) : Except BridgeError Audit := do
  let now := utcNow c.clock.locked
  let row := a.usage c.self.scope now
  require (row.eventRows + 1 ≤ maxScopeEventRows ∧ row.eventBytes + payloadBytes ≤ maxScopeEventBytes)
    (.bridge "durable event storage quota exceeded")
  let counted := { row with eventRows := row.eventRows + 1,
                            eventBytes := row.eventBytes + payloadBytes, updatedUtc := now }
  pure { a with storageUsage := upsert StorageUsageRow.scope counted a.storageUsage }

def reserveMessageStorage (c : Ctx) (rows bodyBytes : Nat) (a : Audit) :
    Except BridgeError Audit := do
  require (1 ≤ rows) (.bridge "message storage reservation is invalid")
  let now := utcNow c.clock.locked
  let row := a.usage c.self.scope now
  require (row.messageRows + rows ≤ maxScopeMessageRows ∧
      row.messageBytes + bodyBytes ≤ maxScopeMessageBytes)
    (.bridge "durable message storage quota exceeded")
  let counted := { row with messageRows := row.messageRows + rows,
                            messageBytes := row.messageBytes + bodyBytes, updatedUtc := now }
  pure { a with storageUsage := upsert StorageUsageRow.scope counted a.storageUsage }

def Audit.head (a : Audit) (scope : String) : Sha256 :=
  ((a.events.filter (fun e => e.scope = scope)).getLast?.map EventRow.chainSha256).getD zeroSha256

def runtimeIdentity (b : Bridge) : Json :=
  .obj [("client_name", .opt b.clientName), ("provider_id", .opt b.providerId),
    ("model_id", .opt b.modelId), ("reasoning_mode", .opt b.reasoningMode),
    ("route_class", .opt (b.routeClass.map RouteClass.text))]

def eventPayload (c : Ctx) (payload : List (String × Json)) : Json :=
  .obj (payload.filter (fun f => f.1 ≠ "session_id" ∧ f.1 ≠ "runtime_identity") ++
    [("session_id", .str c.self.sessionId), ("runtime_identity", runtimeIdentity c.self)])

def eventEnvelope (e : EventRow) : Json :=
  .obj [("event_id", .str e.eventId), ("scope", .str e.scope), ("actor", .str e.actor),
    ("event_type", .str e.eventType), ("task_id", .opt e.taskId),
    ("payload_sha256", .sha e.payloadSha256), ("created_utc", .utc e.createdUtc),
    ("prev_chain_sha256", .sha e.prevChainSha256)]

def event (P : Platform) (c : Ctx) (eventType : String) (payload : List (String × Json))
    (taskId : Option String) (a : Audit) : Except BridgeError (Audit × Sha256) := do
  let payload := eventPayload c payload
  let reserved ← reserveEventStorage c (P.encodedBytes payload) a
  let row : EventRow :=
    { sequence := a.lastEvent + 1, eventId := (c.eventUuid (a.lastEvent + 1)).text,
      scope := c.self.scope, actor := c.self.agentId, eventType, taskId, payload,
      createdUtc := utcNow c.clock.locked, payloadSha256 := P.stableSha256 payload,
      prevChainSha256 := a.head c.self.scope, chainSha256 := zeroSha256 }
  let chain := P.stableSha256 (eventEnvelope row)
  require (∀ e ∈ a.events, e.eventId ≠ row.eventId) (.integrity "events.event_id")
  pure ({ reserved with events := a.events ++ [{ row with chainSha256 := chain }],
                        lastEvent := a.lastEvent + 1 }, chain)

def Store.event (P : Platform) (c : Ctx) (eventType : String) (payload : List (String × Json))
    (taskId : Option String) (s : Store) : Except BridgeError (Store × Sha256) := do
  let (a, chain) ← PeerBridge.event P c eventType payload taskId s.audit
  pure (s.withAudit a, chain)

def Store.reserve (c : Ctx) (rows bodyBytes : Nat) (s : Store) : Except BridgeError Store := do
  let a ← reserveMessageStorage c rows bodyBytes s.audit
  pure (s.withAudit a)

structure Tally where
  messageRows : Nat := 0
  messageBytes : Nat := 0
  eventRows : Nat := 0
  eventBytes : Nat := 0
  deriving DecidableEq

def StorageUsageRow.tally (r : StorageUsageRow) : Tally :=
  { messageRows := r.messageRows, messageBytes := r.messageBytes, eventRows := r.eventRows,
    eventBytes := r.eventBytes }

def Audit.tally (a : Audit) (scope : String) : Tally :=
  ((lookup StorageUsageRow.scope scope a.storageUsage).map StorageUsageRow.tally).getD {}

section Reservation
variable {c : Ctx} {n k : Nat} {a a' : Audit}

theorem Audit.usage_tally (scope : String) (now : Utc) :
    (a.usage scope now).tally = a.tally scope := by
  unfold usage tally
  cases lookup StorageUsageRow.scope scope a.storageUsage <;> rfl

theorem Audit.usage_scope (scope : String) (now : Utc) : (a.usage scope now).scope = scope := by
  unfold usage
  cases h : lookup StorageUsageRow.scope scope a.storageUsage with
  | none => rfl
  | some r => exact lookup_key h

theorem Audit.tally_upsert (row : StorageUsageRow) (scope : String) :
    ({ a with storageUsage := upsert StorageUsageRow.scope row a.storageUsage }).tally scope =
      if row.scope = scope then row.tally else a.tally scope := by
  unfold tally
  rw [lookup_upsert]
  split <;> rfl

theorem reserveEventStorage_ok (h : reserveEventStorage c n a = .ok a') :
    a'.events = a.events ∧ a'.lastEvent = a.lastEvent ∧
      (∀ scope, a'.tally scope = if c.self.scope = scope then
        { a.tally scope with eventRows := (a.tally scope).eventRows + 1,
                             eventBytes := (a.tally scope).eventBytes + n } else a.tally scope) ∧
      (a'.tally c.self.scope).eventRows ≤ maxScopeEventRows ∧
      (a'.tally c.self.scope).eventBytes ≤ maxScopeEventBytes := by
  simp only [reserveEventStorage, bind_eq_ok, require_eq_ok, pure_eq_ok] at h
  obtain ⟨-, hq, rfl⟩ := h
  have hs := a.usage_scope c.self.scope (utcNow c.clock.locked)
  have ht := a.usage_tally c.self.scope (utcNow c.clock.locked)
  refine ⟨rfl, rfl, fun scope => ?_, ?_⟩
  · rw [Audit.tally_upsert]
    by_cases hc : c.self.scope = scope
    · subst hc
      rw [if_pos hs, if_pos rfl, ← ht]
      rfl
    · rw [if_neg hc, if_neg (by rw [hs]; exact hc)]
  · rw [Audit.tally_upsert, if_pos hs]
    exact hq

theorem reserveMessageStorage_ok (h : reserveMessageStorage c k n a = .ok a') :
    a'.events = a.events ∧ a'.lastEvent = a.lastEvent ∧
      (∀ scope, a'.tally scope = if c.self.scope = scope then
        { a.tally scope with messageRows := (a.tally scope).messageRows + k,
                             messageBytes := (a.tally scope).messageBytes + n }
        else a.tally scope) ∧
      (a'.tally c.self.scope).messageRows ≤ maxScopeMessageRows ∧
      (a'.tally c.self.scope).messageBytes ≤ maxScopeMessageBytes := by
  simp only [reserveMessageStorage, bind_eq_ok, require_eq_ok, pure_eq_ok] at h
  obtain ⟨-, -, -, hq, rfl⟩ := h
  have hs := a.usage_scope c.self.scope (utcNow c.clock.locked)
  have ht := a.usage_tally c.self.scope (utcNow c.clock.locked)
  refine ⟨rfl, rfl, fun scope => ?_, ?_⟩
  · rw [Audit.tally_upsert]
    by_cases hc : c.self.scope = scope
    · subst hc
      rw [if_pos hs, if_pos rfl, ← ht]
      rfl
    · rw [if_neg hc, if_neg (by rw [hs]; exact hc)]
  · rw [Audit.tally_upsert, if_pos hs]
    exact hq

end Reservation

-- what one event appends, the reserved counters apart
structure Appended (P : Platform) (c : Ctx) (a : Audit) (row : EventRow) : Prop where
  sequence : row.sequence = a.lastEvent + 1
  scope : row.scope = c.self.scope
  payloadSha : row.payloadSha256 = P.stableSha256 row.payload
  previous : row.prevChainSha256 = a.head c.self.scope
  chain : row.chainSha256 = P.stableSha256 (eventEnvelope row)

theorem event_ok {P : Platform} {c : Ctx} {ty : String} {payload : List (String × Json)}
    {task : Option String} {a a' : Audit} {chain : Sha256}
    (h : event P c ty payload task a = .ok (a', chain)) :
    ∃ row a₁, Appended P c a row ∧
      reserveEventStorage c (P.encodedBytes row.payload) a = .ok a₁ ∧
      a' = { a₁ with events := a.events ++ [row], lastEvent := a.lastEvent + 1 } := by
  simp only [event, bind_eq_ok, require_eq_ok, pure_eq_ok, Prod.mk.injEq] at h
  obtain ⟨a₁, hr, -, -, rfl, -⟩ := h
  exact ⟨_, a₁, ⟨rfl, rfl, rfl, rfl, rfl⟩, hr, rfl⟩

theorem Store.event_ok {P : Platform} {c : Ctx} {ty : String} {payload : List (String × Json)}
    {task : Option String} {s s' : Store} {chain : Sha256}
    (h : s.event P c ty payload task = .ok (s', chain)) : ∃ a, s' = s.withAudit a := by
  simp only [Store.event, bind_eq_ok, pure_eq_ok, Prod.mk.injEq] at h
  obtain ⟨⟨a, _⟩, -, rfl, -⟩ := h
  exact ⟨a, rfl⟩

theorem Store.reserve_ok {c : Ctx} {rows bytes : Nat} {s s' : Store}
    (h : s.reserve c rows bytes = .ok s') : ∃ a, s' = s.withAudit a := by
  simp only [Store.reserve, bind_eq_ok, pure_eq_ok] at h
  obtain ⟨a, -, rfl⟩ := h
  exact ⟨a, rfl⟩

end PeerBridge
