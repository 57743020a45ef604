import PeerBridge.Routing
import PeerBridge.CanonicalCode

namespace PeerBridge
open Checked Rows

def Call.completing : Call → Option CompleteArgs
  | .complete a => some a
  | _ => none

structure RouteReceiptRow.Observed (r : RouteReceiptRow) (c : Ctx) : Prop where
  session_eq : r.sessionId = c.self.sessionId
  provider_eq : r.observedProviderId = c.self.providerId
  model_eq : r.observedModelId = c.self.modelId
  reasoning_eq : r.observedReasoningMode = c.self.reasoningMode
  class_eq : r.observedRouteClass = c.self.routeClass
  acknowledged_eq : r.acknowledgedUtc = utcNow c.clock.locked

instance (r : RouteReceiptRow) (c : Ctx) : Decidable (r.Observed c) :=
  decidable_of_iff (r.sessionId = c.self.sessionId ∧ r.observedProviderId = c.self.providerId ∧
      r.observedModelId = c.self.modelId ∧ r.observedReasoningMode = c.self.reasoningMode ∧
      r.observedRouteClass = c.self.routeClass ∧ r.acknowledgedUtc = utcNow c.clock.locked)
    ⟨fun ⟨h1, h2, h3, h4, h5, h6⟩ => ⟨h1, h2, h3, h4, h5, h6⟩,
      fun ⟨h1, h2, h3, h4, h5, h6⟩ => ⟨h1, h2, h3, h4, h5, h6⟩⟩

-- a completion under a live lease finds no route receipt but one it would write itself
def Unreceipted (P : Platform) (w : World) (i : Call × Ctx) : Prop :=
  ∀ a ∈ i.1.completing, ∀ d ∈ (requireDispatchLease P i.2 (strip a.messageId) a.leaseToken true
    w.store.mail).toOption, d.status = .claimed →
      ∀ r ∈ w.store.ledger.routeReceipt? i.2.self.scope (strip a.messageId) i.2.self.agentId,
        r.Observed i.2

instance (P : Platform) (w : World) (i : Call × Ctx) : Decidable (Unreceipted P w i) :=
  inferInstanceAs (Decidable (∀ a ∈ i.1.completing, ∀ d ∈ (requireDispatchLease P i.2
    (strip a.messageId) a.leaseToken true w.store.mail).toOption, d.status = .claimed →
      ∀ r ∈ w.store.ledger.routeReceipt? i.2.self.scope (strip a.messageId) i.2.self.agentId,
        r.Observed i.2))

def Ledger.routeReceiptSha (l : Ledger) (scope messageId agentId : String) : Option Sha256 :=
  (l.routeReceipt? scope messageId agentId).map RouteReceiptRow.receiptSha256

-- a completion event carries the digest of the stored route receipt
structure Store.Evidenced (s : Store) (e : EventRow) (messageId : String) : Prop where
  message_eq : e.payload.field? "message_id" = some (.str messageId)
  receipt_eq : e.payload.field? "route_receipt_sha256" =
    some (.optSha (s.ledger.routeReceiptSha e.scope messageId e.actor))

def routeReceiptContent (r : RouteReceiptRow) (request : Option Sha256) : Json :=
  .obj [("scope", .str r.scope), ("message_id", .str r.messageId), ("agent_id", .str r.agentId),
    ("session_id", .str r.sessionId), ("observed_provider_id", .opt r.observedProviderId),
    ("observed_model_id", .opt r.observedModelId),
    ("observed_reasoning_mode", .opt r.observedReasoningMode),
    ("observed_route_class", .opt (r.observedRouteClass.map RouteClass.text)),
    ("route_status", .str "verified"), ("acknowledged_utc", .utc r.acknowledgedUtc),
    ("route_request_sha256", .optSha request)]

structure RouteReceiptRow.Sealed (P : Platform) (m : Mail) (r : RouteReceiptRow)
    (source : MessageRow) : Prop where
  source_eq : m.message? r.scope r.messageId = some source
  routed : routeRequestFromRow source ≠ none
  sha_eq : r.receiptSha256 = P.stableSha256 (routeReceiptContent r source.routeRequestSha256)

-- the receipt is there, or none can come
structure Store.Settled (s : Store) (e : EventRow) (messageId : String) (source : MessageRow) :
    Prop extends s.Evidenced e messageId where
  source_eq : s.mail.message? e.scope messageId = some source
  settled : (s.ledger.routeReceipt? e.scope messageId e.actor).isSome = true ∨
    routeRequestFromRow source = none

structure Store.RouteEvidence (P : Platform) (s : Store) : Prop where
  receipts : ∀ r ∈ s.ledger.routeReceipts, ∃ source, r.Sealed P s.mail source
  events : ∀ e ∈ s.audit.events, e.eventType = "message.dispatch_completed" →
    ∃ messageId source, s.Settled e messageId source

section Steps
variable {P : Platform} {c : Ctx} {E : Entry → Bool} {s s' : Store}

theorem routeReceipt_content (source : MessageRow) (now : Utc) :
    (routeReceipt P c source now).receiptSha256 = P.stableSha256
      (routeReceiptContent (routeReceipt P c source now) source.routeRequestSha256) := rfl

theorem RouteReceiptRow.Observed.content_eq {r : RouteReceiptRow} {source : MessageRow}
    (h : r.Observed c)
    (hk : r.scope = c.self.scope ∧ r.messageId = source.messageId ∧ r.agentId = c.self.agentId)
    (request : Option Sha256) : routeReceiptContent r request =
      routeReceiptContent (routeReceipt P c source (utcNow c.clock.locked)) request := by
  obtain ⟨h1, h2, h3⟩ := hk
  simp only [routeReceiptContent, routeReceipt, h1, h2, h3, h.session_eq, h.provider_eq,
    h.model_eq, h.reasoning_eq, h.class_eq, h.acknowledged_eq]

theorem routeReceipt?_key {l : Ledger} {scope messageId agentId : String} {r : RouteReceiptRow}
    (h : l.routeReceipt? scope messageId agentId = some r) :
    r.scope = scope ∧ r.messageId = messageId ∧ r.agentId = agentId := by
  simpa using List.find?_some h

theorem routeReceipt?_ignore (l : Ledger) (r : RouteReceiptRow) (scope messageId agentId : String) :
    (l.ignoreRouteReceipt r).routeReceipt? scope messageId agentId =
      (l.routeReceipt? scope messageId agentId).or
        (if r.scope = scope ∧ r.messageId = messageId ∧ r.agentId = agentId then some r
         else none) := by
  unfold Ledger.ignoreRouteReceipt
  split
  · rename_i h
    split
    · rename_i hk
      obtain ⟨rfl, rfl, rfl⟩ := hk
      obtain ⟨x, hx⟩ := Option.isSome_iff_exists.mp h
      rw [hx]
      rfl
    · rw [Option.or_none]
  · rw [Ledger.routeReceipt?, List.find?_append, ← Ledger.routeReceipt?]
    congr 1
    by_cases hk : r.scope = scope ∧ r.messageId = messageId ∧ r.agentId = agentId
    · simp [hk]
    · rw [if_neg hk, List.find?_cons_of_neg (by simpa using hk), List.find?_nil]

theorem RouteReceiptRow.Sealed.grow {m m' : Mail} {r : RouteReceiptRow} {source : MessageRow}
    {rows : List MessageRow} (h : r.Sealed P m source) (hm : m'.messages = m.messages ++ rows) :
    r.Sealed P m' source :=
  ⟨message?_grow hm h.source_eq, h.routed, h.sha_eq⟩

theorem Store.Settled.grow {e : EventRow} {messageId : String} {source : MessageRow}
    {rows : List MessageRow} (h : s.Settled e messageId source)
    (hm : s'.mail.messages = s.mail.messages ++ rows)
    (hl : s'.ledger.routeReceipts = s.ledger.routeReceipts) :
    s'.Settled e messageId source := by
  have hr : s'.ledger.routeReceipt? e.scope messageId e.actor =
      s.ledger.routeReceipt? e.scope messageId e.actor := by
    rw [Ledger.routeReceipt?, hl, Ledger.routeReceipt?]
  have hsha : s'.ledger.routeReceiptSha e.scope messageId e.actor =
      s.ledger.routeReceiptSha e.scope messageId e.actor := by
    rw [Ledger.routeReceiptSha, hr, Ledger.routeReceiptSha]
  exact ⟨⟨h.message_eq, hsha ▸ h.receipt_eq⟩, message?_grow hm h.source_eq, hr ▸ h.settled⟩

theorem Store.RouteEvidence.grow {rows : List MessageRow} (h : s.RouteEvidence P)
    (hm : s'.mail.messages = s.mail.messages ++ rows)
    (hl : s'.ledger.routeReceipts = s.ledger.routeReceipts)
    (he : s'.audit.events = s.audit.events) : s'.RouteEvidence P := by
  refine ⟨fun r hr => ?_, fun e hm' hty => ?_⟩
  · obtain ⟨source, hs⟩ := h.receipts r (hl ▸ hr)
    exact ⟨source, hs.grow hm⟩
  · obtain ⟨messageId, source, hs⟩ := h.events e (he ▸ hm') hty
    exact ⟨messageId, source, hs.grow hm hl⟩

theorem Store.RouteEvidence.frame (h : s.RouteEvidence P)
    (hm : s'.mail.messages = s.mail.messages)
    (hl : s'.ledger.routeReceipts = s.ledger.routeReceipts)
    (he : s'.audit.events = s.audit.events) : s'.RouteEvidence P :=
  h.grow (by rw [hm, List.append_nil]) hl he

theorem Store.event_row {ty : String} {payload : List (String × Json)} {task : Option String}
    {chain : Sha256} (h : s.event P c ty payload task = .ok (s', chain)) :
    ∃ e : EventRow, s'.audit.events = s.audit.events ++ [e] ∧ e.eventType = ty ∧
      e.scope = c.self.scope ∧ e.actor = c.self.agentId ∧ e.payload = eventPayload c payload := by
  simp only [Store.event, PeerBridge.event, bind_eq_ok, pure_eq_ok, Prod.mk.injEq] at h
  obtain ⟨_, ⟨a, -, -, -, rfl⟩, rfl, -⟩ := h
  exact ⟨_, rfl, rfl, rfl, rfl, rfl⟩

theorem Store.RouteEvidence.event {ty : String} {payload : List (String × Json)}
    {task : Option String} {chain : Sha256} (h : s.RouteEvidence P)
    (he : s.event P c ty payload task = .ok (s', chain))
    (hnew : ty = "message.dispatch_completed" → ∀ e : EventRow, e.scope = c.self.scope →
      e.actor = c.self.agentId → e.payload = eventPayload c payload →
        ∃ messageId source, s.Settled e messageId source) : s'.RouteEvidence P := by
  obtain ⟨e, hevents, hty, hscope, hactor, hpayload⟩ := Store.event_row he
  obtain ⟨hm, -, hl⟩ := Store.event_frame he
  refine ⟨fun r hr => ?_, fun x hx hxty => ?_⟩
  · rw [hl] at hr
    obtain ⟨source, hs⟩ := h.receipts r hr
    exact ⟨source, hm ▸ hs⟩
  · have hgrow {messageId : String} {source : MessageRow} (hs : s.Settled x messageId source) :
        s'.Settled x messageId source :=
      @Store.Settled.grow _ _ _ _ _ [] hs (by rw [hm, List.append_nil]) (by rw [hl])
    rw [hevents] at hx
    rcases List.mem_append.mp hx with hx | hx
    · obtain ⟨messageId, source, hs⟩ := h.events x hx hxty
      exact ⟨messageId, source, hgrow hs⟩
    · obtain rfl := List.mem_singleton.mp hx
      obtain ⟨messageId, source, hs⟩ := hnew (hty.symm.trans hxty) x hscope hactor hpayload
      exact ⟨messageId, source, hgrow hs⟩

theorem Store.RouteEvidence.receipt {source : MessageRow} (h : s.RouteEvidence P)
    (hs : s.mail.message? c.self.scope source.messageId = some source)
    (hr : routeRequestFromRow source ≠ none) (now : Utc) :
    (s.ignoreRouteReceipt P c source now).RouteEvidence P := by
  refine ⟨fun r hm => ?_, fun e hm hty => ?_⟩
  · have hm : r ∈ s.ledger.routeReceipts ∨ r = routeReceipt P c source now := by
      unfold Store.ignoreRouteReceipt Ledger.ignoreRouteReceipt at hm
      split at hm
      · exact .inl hm
      · exact (List.mem_append.mp hm).imp id List.mem_singleton.mp
    rcases hm with hm | rfl
    · exact h.receipts r hm
    · exact ⟨source, hs, hr, routeReceipt_content source now⟩
  · obtain ⟨messageId, x, hx⟩ := h.events e hm hty
    have hkept : ((s.ignoreRouteReceipt P c source now).ledger.routeReceipt? e.scope messageId
        e.actor) = s.ledger.routeReceipt? e.scope messageId e.actor := by
      show (s.ledger.ignoreRouteReceipt _).routeReceipt? e.scope messageId e.actor = _
      rw [routeReceipt?_ignore]
      rcases hx.settled with hsome | hnone
      · obtain ⟨r, hr⟩ := Option.isSome_iff_exists.mp hsome
        rw [hr]
        rfl
      · rw [if_neg, Option.or_none]
        rintro ⟨hscope, hid, -⟩
        have hsame : s.mail.message? e.scope messageId = some source := by
          rw [← hscope, ← hid]
          exact hs
        rw [hx.source_eq] at hsame
        exact hr (Option.some.inj hsame ▸ hnone)
    refine ⟨messageId, x, ⟨hx.message_eq, ?_⟩, hx.source_eq, hkept ▸ hx.settled⟩
    rw [Ledger.routeReceiptSha, hkept]
    exact hx.receipt_eq

theorem Store.reserve_events {rows bytes : Nat} (h : s.reserve c rows bytes = .ok s') :
    s'.audit.events = s.audit.events := by
  simp only [Store.reserve, bind_eq_ok, pure_eq_ok] at h
  obtain ⟨a, ha, rfl⟩ := h
  exact (reserveMessageStorage_ok ha).1

theorem Write.routeEvidence (hE : E (.event "message.dispatch_completed") = false)
    (hw : Write P c E s s') (h : s.RouteEvidence P) : s'.RouteEvidence P := by
  cases hw with
  | event hty he =>
    refine h.event he fun hc => ?_
    rw [hc, hE] at hty
    cases hty
  | insert hd hi =>
    have hl := (insertReserved_ok hi).2.2
    have hm := (insertReserved_ok hi).1.mail_eq
    simp only [insertReserved, insertMessage, bind_eq_ok, pure_eq_ok, Prod.mk.injEq] at hi
    obtain ⟨s₁, hr, -, -, rfl, -⟩ := hi
    refine h.grow (by rw [hm]; rfl) (by rw [hl]) ?_
    rw [← Store.reserve_events hr]
    rfl
  | fanout hd hr hi =>
    obtain ⟨hm, -, hl⟩ := Store.reserve_frame hr
    obtain ⟨hin, -, hl'⟩ := insertAll_ok hi
    refine h.grow (by rw [hin.mail_eq, hm]; rfl) (by rw [hl', hl]) ?_
    rw [insertAll_audit hi]
    exact Store.reserve_events hr
  | receipt r => exact h.frame (Mail.ignoreReceipt_messages _ _) rfl rfl
  | advance roomId now | acknowledge roomId now | rooms | trusted => exact h.frame rfl rfl rfl
  | mail hm => exact h.frame hm rfl rfl
  | routeReceipt _ hs hr now => exact h.receipt hs hr now
  | ledger _ hr => exact h.frame rfl hr rfl

theorem Writes.routeEvidence (hE : E (.event "message.dispatch_completed") = false)
    (hw : Writes P c E s s') (h : s.RouteEvidence P) : s'.RouteEvidence P := by
  induction hw with
  | refl => exact h
  | tail _ hw ih => exact hw.routeEvidence hE ih

theorem Completing.settled {t : Store} {source : MessageRow} {route : RouteEvaluation}
    {messageId replyId : String} {completed : DispatchRow} {used : InferenceUsageRow}
    (hid : source.messageId = messageId) (h : Completing P c s t source route)
    (hs : s.RouteEvidence P)
    (hfree : ∀ r ∈ s.ledger.routeReceipt? c.self.scope messageId c.self.agentId, r.Observed c)
    {e : EventRow} (hscope : e.scope = c.self.scope) (hactor : e.actor = c.self.agentId)
    (hpayload : e.payload =
      eventPayload c (completionPayload P c source route replyId completed used)) :
    t.Settled e messageId source := by
  obtain ⟨rows, hrows⟩ := h.writes.messages
  subst hid
  have hsource : t.mail.message? e.scope source.messageId = some source := by
    rw [hscope]
    exact message?_grow hrows h.source_eq
  have hfind : t.ledger.routeReceipt? e.scope source.messageId e.actor =
      (if route.status = .verified then
        s.ledger.ignoreRouteReceipt (routeReceipt P c source (utcNow c.clock.locked))
        else s.ledger).routeReceipt? c.self.scope source.messageId c.self.agentId := by
    rw [Ledger.routeReceipt?, h.receipts_eq, hscope, hactor, Ledger.routeReceipt?]
  have hfield : e.payload.field? "route_receipt_sha256" =
      some (.optSha (if route.status = .verified then
        some (routeReceipt P c source (utcNow c.clock.locked)).receiptSha256 else none)) := by
    rw [hpayload]
    rfl
  have hmessage : e.payload.field? "message_id" = some (.str source.messageId) := by
    rw [hpayload]
    rfl
  by_cases hv : route.status = .verified
  · rw [if_pos hv, routeReceipt?_ignore, if_pos ⟨rfl, rfl, rfl⟩] at hfind
    rw [if_pos hv] at hfield
    cases hstored : s.ledger.routeReceipt? c.self.scope source.messageId c.self.agentId with
    | none =>
      rw [hstored] at hfind
      refine ⟨⟨hmessage, ?_⟩, hsource, .inl (by rw [hfind]; rfl)⟩
      rw [hfield, Ledger.routeReceiptSha, hfind]
      rfl
    | some r =>
      rw [hstored] at hfind
      have hkey := routeReceipt?_key hstored
      obtain ⟨x, hx⟩ := hs.receipts r (List.mem_of_find?_eq_some hstored)
      have hxs : x = source := by
        have hsame := hx.source_eq
        rw [hkey.1, hkey.2.1, h.source_eq] at hsame
        exact (Option.some.inj hsame).symm
      refine ⟨⟨hmessage, ?_⟩, hsource, .inl (by rw [hfind]; rfl)⟩
      rw [hfield, Ledger.routeReceiptSha, hfind, routeReceipt_content,
        ← (hfree r hstored).content_eq hkey, ← hxs, ← hx.sha_eq]
      rfl
  · have hnone : routeRequestFromRow source = none := by
      have hacc := h.accepted
      rw [h.route_eq, evaluateRoute] at hv hacc
      split at hv
      · assumption
      · rename_i q hq
        rw [hq] at hacc
        simp only at hv hacc
        split at hv <;> simp_all
    rw [if_neg hv] at hfind hfield
    have habsent : s.ledger.routeReceipt? c.self.scope source.messageId c.self.agentId = none := by
      cases hstored : s.ledger.routeReceipt? c.self.scope source.messageId c.self.agentId with
      | none => rfl
      | some r =>
        have hkey := routeReceipt?_key hstored
        obtain ⟨x, hx⟩ := hs.receipts r (List.mem_of_find?_eq_some hstored)
        have hsame := hx.source_eq
        rw [hkey.1, hkey.2.1, h.source_eq] at hsame
        exact absurd hnone (Option.some.inj hsame ▸ hx.routed)
    refine ⟨⟨hmessage, ?_⟩, hsource, .inr hnone⟩
    rw [hfield, Ledger.routeReceiptSha, hfind, habsent]
    rfl

theorem perform_routeEvidence {w : World} {i : Call × Ctx} {r : Reply}
    (hfree : Unreceipted P w i) (h : w.store.RouteEvidence P)
    (hp : perform P i.2 w.store i.1 = .ok (s', r)) : s'.RouteEvidence P := by
  obtain ⟨call, c⟩ := i
  rcases perform_writes hp with ⟨rfl, rfl⟩ | hw
  · exact h.frame rfl rfl rfl
  · cases call with
    | complete a =>
      obtain ⟨x, hx, -⟩ := replyWith_ok hp
      rcases completeMessageDispatch_last hx with
        ⟨-, rfl⟩ | ⟨t, row, source, route, replyId, used, chain, hrow, hopen, hid, ht, he⟩
      · exact h
      · have hclaimed : row.status = .claimed :=
          (requireDispatchLease_replay hrow).2.1.resolve_right hopen
        refine (ht.writes.routeEvidence rfl h).event he fun _ e hscope hactor hpayload =>
          ⟨strip a.messageId, source, ht.settled hid h ?_ hscope hactor hpayload⟩
        exact hfree a rfl row (by rw [hrow]; rfl) hclaimed
    | _ => exact hw.routeEvidence rfl h

theorem reachable_routeEvidence {w : World}
    (h : ((mailbox P).restrict (Unreceipted P)).Reachable w) : w.store.RouteEvidence P := by
  refine h.invariant (fun w => w.store.RouteEvidence P) ?_ fun w i hw ha => ?_
  · rintro w ⟨connections, now, rfl⟩
    exact ⟨fun r hr => (by cases hr), fun e he => (by cases he)⟩
  · show (attempt P w i).1.store.RouteEvidence P
    unfold attempt
    split
    · rename_i s' r hp
      exact perform_routeEvidence ha.2 hw hp
    · exact hw

end Steps

theorem completion_evidence {P : Platform} {w : World}
    (h : ((mailbox P).restrict (Unreceipted P)).Reachable w) {e : EventRow}
    (he : e ∈ w.store.audit.events) (hty : e.eventType = "message.dispatch_completed") :
    ∃ messageId, w.store.Evidenced e messageId := by
  obtain ⟨messageId, source, hs⟩ := (reachable_routeEvidence h).events e he hty
  exact ⟨messageId, hs.toEvidenced⟩

def routedReply (acks : List (Call × Ctx)) : List (Call × Ctx) :=
  let a := sampleAgent "a"
  routedThrough "model" ++
    [(.claim { messageId := sampleMessage 1, routeProfileId := "route" }, sampleCtx a 6)] ++
    acks ++ sampleReply a 1 6 "done"

def isCompletion (e : EventRow) : Bool := e.eventType = "message.dispatch_completed"

set_option maxRecDepth 100000 in
theorem completion_evidence_routed :
    let M := (mailbox samplePlatform).restrict (Unreceipted samplePlatform)
    ∃ e ∈ (M.play sampleWorld (routedReply [])).1.store.audit.events,
      ∃ messageId, (M.play sampleWorld (routedReply [])).1.store.Evidenced e messageId := by
  intro M
  have hcheck : M.AdmitsAll sampleWorld (routedReply []) ∧
      (M.play sampleWorld (routedReply [])).1.store.audit.events.any isCompletion = true := by
    decide +kernel
  obtain ⟨hopen, hsent⟩ := hcheck
  have hreach : M.Reachable (M.play sampleWorld (routedReply [])).1 :=
    ⟨_, _, ⟨[], 0, rfl⟩, Machine.run_play _ _ hopen⟩
  generalize (M.play sampleWorld (routedReply [])).1 = w at hreach hsent ⊢
  obtain ⟨e, he, hty⟩ := List.any_eq_true.mp hsent
  exact ⟨e, he, completion_evidence hreach he (of_decide_eq_true hty)⟩

def Json.digest? : Json → Option Sha256
  | .sha d => some d
  | _ => none

-- the event's digest differs from that of the stored row
def Store.misreported (s : Store) (e : EventRow) : Bool :=
  (e.payload.field? "route_receipt_sha256").bind Json.digest? ≠
    ((e.payload.field? "message_id").bind Json.text?).bind
      (fun messageId => s.ledger.routeReceiptSha e.scope messageId e.actor)

theorem Store.Evidenced.not_misreported {s : Store} {e : EventRow} {messageId : String}
    (h : s.Evidenced e messageId) : s.misreported e = false := by
  rw [Store.misreported, h.message_eq, h.receipt_eq]
  cases hs : s.ledger.routeReceiptSha e.scope messageId e.actor <;>
    simp [Json.optSha, Json.digest?, Json.text?, hs]

def earlyAck : List (Call × Ctx) :=
  [(.ack { messageId := sampleMessage 1 }, sampleCtx (sampleAgent "a") 7)]

set_option maxRecDepth 100000 in
theorem acknowledged_completion_misreports :
    let M := mailbox samplePlatform
    ¬ ∀ w e, M.Reachable w → e ∈ w.store.audit.events →
      e.eventType = "message.dispatch_completed" → ∃ messageId, w.store.Evidenced e messageId := by
  intro M h
  have hcheck : M.AdmitsAll sampleWorld (routedReply earlyAck) ∧
      (M.play sampleWorld (routedReply earlyAck)).1.store.audit.events.any (fun e =>
        isCompletion e &&
          (M.play sampleWorld (routedReply earlyAck)).1.store.misreported e) = true := by
    decide +kernel
  obtain ⟨hopen, hsent⟩ := hcheck
  have hreach : M.Reachable (M.play sampleWorld (routedReply earlyAck)).1 :=
    ⟨_, _, ⟨[], 0, rfl⟩, Machine.run_play _ _ hopen⟩
  generalize (M.play sampleWorld (routedReply earlyAck)).1 = w at hreach hsent
  obtain ⟨e, he, hbad⟩ := List.any_eq_true.mp hsent
  rw [Bool.and_eq_true] at hbad
  obtain ⟨messageId, hs⟩ := h w e hreach he (of_decide_eq_true hbad.1)
  rw [hs.not_misreported] at hbad
  cases hbad.2

end PeerBridge
