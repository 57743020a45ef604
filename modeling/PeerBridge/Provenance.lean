import PeerBridge.Evidence
import PeerBridge.Inference

namespace PeerBridge
open Checked Rows

def TrustedReceiptRow.key (t : TrustedReceiptRow) : String × String × String × Nat :=
  (t.scope, t.messageId, t.agentId, t.attemptCount)

structure TrustedReceiptRow.Backs (P : Platform) (m : Mail) (x : Completion)
    (t : TrustedReceiptRow) : Prop where
  dispatch_eq : (t.scope, t.messageId, t.agentId) = x.dispatch.key
  session_eq : x.dispatch.claimedSessionId = some t.sessionId
  attempt_eq : t.attemptCount = x.dispatch.attemptCount
  token_eq : x.dispatch.leaseTokenSha256 = some t.leaseTokenSha256
  receipt_eq : x.dispatch.inferenceReceiptSha256 = some t.inferenceReceiptSha256
  source : ∃ source, m.message? t.scope t.messageId = some source ∧
    t.sourceContentSha256 = source.contentSha256
  reply : ∃ id reply, x.replyMessageId = some id ∧ m.message? t.scope id = some reply ∧
    t.replyBodySha256 = P.sha256Bytes reply.body

def createdBy : Except BridgeError Reply → Option Completion
  | .ok (.completed x) => if x.replay then none else some x
  | _ => none

-- the completions of a trace that stored a reply
def created (tr : Trace) : List Completion := tr.filterMap (fun e => createdBy e.2)

structure Provenance (P : Platform) (tr : Trace) (s : Store) : Prop where
  keyed : (s.ledger.trustedReceipts.map TrustedReceiptRow.key).Nodup
  backed : ∀ x ∈ created tr, ∃! t, t ∈ s.ledger.trustedReceipts ∧ t.Backs P s.mail x
  unshared : ∀ x ∈ created tr, ∀ y ∈ created tr, ∀ t ∈ s.ledger.trustedReceipts,
    ∀ u ∈ s.ledger.trustedReceipts, t.Backs P s.mail x → u.Backs P s.mail y →
      t.inferenceReceiptSha256 = u.inferenceReceiptSha256 →
        x.dispatch.scope = y.dispatch.scope ∧ x.dispatch.messageId = y.dispatch.messageId

-- what the recorded receipts of a trace put through SHA-256
def Call.hashedTexts (F : TextForms) : Call → List String
  | .recordTrusted a => [dumps F a.receipt.unsigned, dumps F (.str (strip a.messageId))]
  | _ => []

def traceTexts (F : TextForms) (tr : Trace) : List String :=
  tr.flatMap (fun e => e.1.1.hashedTexts F)

def CollisionFree (P : Platform) (texts : List String) : Prop :=
  ∀ u ∈ texts, ∀ v ∈ texts, P.sha256Bytes u = P.sha256Bytes v → u = v

-- the row was written for a receipt that validated for its message
def TrustedReceiptRow.Recorded (P : Platform) (tr : Trace) (t : TrustedReceiptRow) : Prop :=
  ∃ e ∈ tr, ∃ a body route v, e.1.1 = .recordTrusted a ∧ strip a.messageId = t.messageId ∧
    P.validateInferenceReceipt a.receipt t.messageId a.assistantMessage body route = .ok v ∧
    v.inferenceReceiptSha256 = t.inferenceReceiptSha256

section Steps
variable {P : Platform} {c : Ctx} {E : Entry → Bool} {s s' : Store} {m m' : Mail} {tr : Trace}

theorem TrustedReceiptRow.Backs.grow {x : Completion} {t : TrustedReceiptRow}
    {rows : List MessageRow} (h : t.Backs P m x) (hm : m'.messages = m.messages ++ rows) :
    t.Backs P m' x := by
  obtain ⟨source, hs, hsha⟩ := h.source
  obtain ⟨id, reply, hid, hr, hbody⟩ := h.reply
  exact { h with
    source := ⟨source, message?_grow hm hs, hsha⟩
    reply := ⟨id, reply, hid, message?_grow hm hr, hbody⟩ }

theorem TrustedReceiptRow.Backs.key_eq {x : Completion} {t u : TrustedReceiptRow}
    (ht : t.Backs P m x) (hu : u.Backs P m x) : t.key = u.key := by
  have hk := ht.dispatch_eq.trans hu.dispatch_eq.symm
  simp only [Prod.mk.injEq] at hk
  simp only [TrustedReceiptRow.key, hk.1, hk.2.1, hk.2.2, ht.attempt_eq, hu.attempt_eq]

theorem TrustedReceiptRow.Recorded.grow {t : TrustedReceiptRow} {ys : Trace}
    (h : t.Recorded P tr) : t.Recorded P (tr ++ ys) := by
  obtain ⟨e, he, h⟩ := h
  exact ⟨e, List.mem_append_left _ he, h⟩

theorem Write.trustedReceipts (hE : E .trustedReceipt = false) (hw : Write P c E s s') :
    s'.ledger.trustedReceipts = s.ledger.trustedReceipts := by
  cases hw with
  | event _ he => rw [(Store.event_frame he).2.2]
  | insert _ hi => rw [(insertReserved_ok hi).2.2]
  | fanout _ hr hi => rw [(insertAll_ok hi).2.2, (Store.reserve_frame hr).2.2]
  | routeReceipt => exact (ledger_ignoreRouteReceipt_frame _ _).2
  | trusted _ ht =>
    rw [hE] at ht
    cases ht
  | ledger _ _ ht => exact ht
  | receipt | advance | acknowledge | mail | rooms => rfl

theorem Writes.trustedReceipts (hE : E .trustedReceipt = false) (hw : Writes P c E s s') :
    s'.ledger.trustedReceipts = s.ledger.trustedReceipts := by
  induction hw with
  | refl => rfl
  | tail _ hw ih => rw [hw.trustedReceipts hE, ih]

theorem message?_insert {reply : MessageRow} {ds : List Draft}
    (h : Inserted P c ds [reply] m (m.addMessages [reply])) :
    (m.addMessages [reply]).message? reply.scope reply.messageId = some reply := by
  have hold : m.message? reply.scope reply.messageId = none := by
    refine lookup_eq_none.mpr fun x hx hk => ?_
    exact h.fresh x hx reply (by simp) (Prod.mk.inj hk).2
  rw [Mail.message?, Mail.addMessages, lookup_append, ← Mail.message?, hold]
  simp [lookup, MessageRow.key]

theorem completeMessageDispatch_backed {a : CompleteArgs} {x : Completion}
    (h : completeMessageDispatch P c a s = .ok (s', x)) (hx : x.replay = false) :
    ∃ t ∈ s'.ledger.trustedReceipts, t.Backs P s'.mail x := by
  have hrows : s'.ledger.trustedReceipts = s.ledger.trustedReceipts :=
    (completeMessageDispatch_writes h).trustedReceipts rfl
  simp only [completeMessageDispatch, bind_eq_ok] at h
  obtain ⟨q, -, row, hrow, h⟩ := h
  obtain ⟨hh, -, -⟩ := requireDispatchLease_replay hrow
  split at h
  · simp only [pure_eq_ok, Prod.mk.injEq] at h
    rw [← h.2] at hx
    cases hx
  · simp only [bind_eq_ok, pure_eq_ok, Prod.mk.injEq, requireSource, demand_eq_ok] at h
    obtain ⟨_, ⟨source, hsource, -, -, rfl⟩, -, -, -, -, -, -, _, hbind, subject, -, ⟨s₁, reply⟩,
      hi, -, -, ⟨s₂, chain₂⟩, he₂, ⟨s₃, chain₃⟩, he₃, rfl, rfl⟩ := h
    simp only [requireTrustedBinding, bind_eq_ok, demand_eq_ok, require_eq_ok] at hbind
    obtain ⟨t, ht, -, hsource', -, hbody, -⟩ := hbind
    have hkey : t.scope = c.self.scope ∧ t.messageId = q.messageId ∧ t.agentId = c.self.agentId ∧
        t.sessionId = c.self.sessionId ∧ t.attemptCount = row.attemptCount ∧
        t.leaseTokenSha256 = P.sha256Bytes a.leaseToken ∧
        t.inferenceReceiptSha256 = q.inferenceReceiptSha256 := by
      simpa using List.find?_some ht
    obtain ⟨hscope, hid, hagent, hsession, hattempt, htoken, hreceipt⟩ := hkey
    obtain ⟨hin, -, -⟩ := insertReserved_ok hi
    have hmail : s₃.mail.messages = s.mail.messages ++ [reply] := by
      rw [(Store.event_frame he₃).1, (Store.event_frame he₂).1]
      show (Mail.ignoreReceipt _ _).messages = _
      rw [Mail.ignoreReceipt_messages, hin.mail_eq]
      rfl
    have hreply : reply.scope = c.self.scope ∧ reply.body = q.body := by
      have hrows := hin.rows_eq
      simp only [draftRows, List.cons.injEq, and_true] at hrows
      rw [hrows]
      exact ⟨rfl, rfl⟩
    refine ⟨t, hrows ▸ List.mem_of_find?_eq_some ht, ⟨?_, ?_, hattempt, ?_, ?_, ?_, ?_⟩⟩
    · rw [completedDispatch_key, hh.key_eq, hscope, hid, hagent]
    · exact hh.session_eq.trans (congrArg some hsession.symm)
    · exact hh.token_eq.trans (congrArg some htoken.symm)
    · exact congrArg some hreceipt.symm
    · refine ⟨source, message?_grow hmail ?_, hsource'⟩
      rw [hscope, hid]
      exact hsource
    · refine ⟨reply.messageId, reply, rfl, ?_, hreply.2 ▸ hbody⟩
      rw [hin.mail_eq] at hin
      rw [hscope, ← hreply.1, Mail.message?, hmail]
      exact message?_insert hin

theorem recordTrusted_rows {a : TrustedArgs} {row : TrustedReceiptRow}
    (h : recordTrustedInferenceReceipt P c a s = .ok (s', row)) :
    s'.ledger.trustedReceipts = s.ledger.trustedReceipts ∨
      s'.ledger.trustedReceipts = s.ledger.trustedReceipts ++ [row] ∧
        row.key ∉ s.ledger.trustedReceipts.map TrustedReceiptRow.key ∧
        row.messageId = strip a.messageId ∧ ∃ body route v,
          P.validateInferenceReceipt a.receipt row.messageId a.assistantMessage body route = .ok v ∧
          v.inferenceReceiptSha256 = row.inferenceReceiptSha256 := by
  simp only [recordTrustedInferenceReceipt, bind_eq_ok] at h
  obtain ⟨q, hq, usage, -, dispatch, -, source, -, -, -, -, -, execution, -, connection, -,
    validated, hv, -, -, h⟩ := h
  have hqid : q.messageId = strip a.messageId := by
    simp only [requireTrusted, bind_eq_ok, pure_eq_ok] at hq
    obtain ⟨id, hid, _, -, _, -, _, -, _, -, _, -, _, -, _, -, rfl⟩ := hq
    exact (requireIdentifier_ok hid).1
  split at h
  · simp only [bind_eq_ok, pure_eq_ok, Prod.mk.injEq] at h
    obtain ⟨-, -, rfl, -⟩ := h
    exact .inl rfl
  · rename_i hnone
    simp only [bind_eq_ok, pure_eq_ok, Prod.mk.injEq] at h
    obtain ⟨-, -, ⟨s₁, chain⟩, he, rfl, rfl⟩ := h
    refine .inr ⟨?_, fun hm => ?_, hqid, _, _, validated, liftText_eq_ok.mp hv, rfl⟩
    · rw [(Store.event_frame he).2.2]
      rfl
    · obtain ⟨t, ht, hk⟩ := List.mem_map.mp hm
      simp only [TrustedReceiptRow.key, Prod.mk.injEq] at hk
      have habsent := List.find?_eq_none.mp hnone t ht
      exact habsent (by simpa using hk)

structure Traced (P : Platform) (tr : Trace) (s : Store) : Prop where
  keyed : (s.ledger.trustedReceipts.map TrustedReceiptRow.key).Nodup
  recorded : ∀ t ∈ s.ledger.trustedReceipts, t.Recorded P tr
  backed : ∀ x ∈ created tr, ∃ t ∈ s.ledger.trustedReceipts, t.Backs P s.mail x

theorem created_snoc (e : (Call × Ctx) × Except BridgeError Reply) :
    created (tr ++ [e]) = created tr ++ (createdBy e.2).toList := by
  rw [created, List.filterMap_append, ← created]
  cases h : createdBy e.2 <;> simp [h]

theorem Traced.step {e : (Call × Ctx) × Except BridgeError Reply} {rows : List MessageRow}
    (h : Traced P tr s) (hm : s'.mail.messages = s.mail.messages ++ rows)
    (ht : s'.ledger.trustedReceipts = s.ledger.trustedReceipts)
    (hnew : ∀ x ∈ createdBy e.2, ∃ t ∈ s'.ledger.trustedReceipts, t.Backs P s'.mail x) :
    Traced P (tr ++ [e]) s' := by
  refine ⟨ht ▸ h.keyed, fun t hmem => (h.recorded t (ht ▸ hmem)).grow, fun x hx => ?_⟩
  rw [created_snoc, List.mem_append, Option.mem_toList] at hx
  rcases hx with hx | hx
  · obtain ⟨t, hmem, hb⟩ := h.backed x hx
    exact ⟨t, ht ▸ hmem, hb.grow hm⟩
  · exact hnew x hx

theorem Traced.record {i : Call × Ctx} {a : TrustedArgs} {r : Reply} {row : TrustedReceiptRow}
    (h : Traced P tr s) (hi : i.1 = .recordTrusted a) (hr : createdBy (.ok r) = none)
    (hp : recordTrustedInferenceReceipt P i.2 a s = .ok (s', row)) :
    Traced P (tr ++ [(i, .ok r)]) s' := by
  have hmail := (recordTrustedInferenceReceipt_ok hp).1
  rcases recordTrusted_rows hp with hrows | ⟨hrows, hfresh, hid, body, route, v, hv, hsha⟩
  · exact @Traced.step _ _ _ _ _ [] h (by rw [hmail, List.append_nil]) hrows (fun x hx => by simp [hr] at hx)
  · refine ⟨?_, fun t hm => ?_, fun x hx => ?_⟩
    · rw [hrows, List.map_append]
      refine List.nodup_append.mpr ⟨h.keyed, by simp, fun k hk l hl he => ?_⟩
      rw [List.map_singleton, List.mem_singleton] at hl
      exact hfresh (hl ▸ he ▸ hk)
    · rw [hrows] at hm
      rcases List.mem_append.mp hm with hm | hm
      · exact (h.recorded t hm).grow
      · rw [List.mem_singleton.mp hm]
        exact ⟨_, List.mem_append_right _ (List.mem_singleton_self _), a, body, route, v, hi,
          hid.symm, hv, hsha⟩
    · rw [created_snoc, hr, Option.toList_none, List.append_nil] at hx
      obtain ⟨t, hm, hb⟩ := h.backed x hx
      exact ⟨t, by rw [hrows]; exact List.mem_append_left _ hm, hmail ▸ hb⟩

theorem attempt_traced {w : World} (i : Call × Ctx) (h : Traced P tr w.store) :
    Traced P (tr ++ [(i, (attempt P w i).2)]) (attempt P w i).1.store := by
  obtain ⟨call, c⟩ := i
  cases hp : perform P c w.store call with
  | error e =>
    simp only [attempt, hp]
    exact @Traced.step _ _ _ _ _ [] h (List.append_nil _).symm rfl (fun x hx => by cases hx)
  | ok y =>
    obtain ⟨s', r⟩ := y
    simp only [attempt, hp]
    rcases perform_writes hp with ⟨rfl, rfl⟩ | hw
    · obtain rfl : Reply.done = r := by
        simp only [perform, pure_eq_ok, Prod.mk.injEq] at hp
        exact hp.2
      exact @Traced.step _ _ _ _ _ [] h (List.append_nil _).symm rfl (fun x hx => by cases hx)
    · obtain ⟨rows, hrows⟩ := hw.messages
      have plain (hE : call.entries .trustedReceipt = false) (hr : createdBy (.ok r) = none) :
          Traced P (tr ++ [((call, c), .ok r)]) s' :=
        h.step hrows (hw.trustedReceipts hE) (fun x hx => by simp [hr] at hx)
      cases call with
      | complete a =>
        obtain ⟨x, hx, rfl⟩ := replyWith_ok hp
        refine h.step hrows (hw.trustedReceipts rfl) fun y hy => ?_
        have hy : (if x.replay = true then none else some x) = some y := hy
        split at hy
        · cases hy
        · rename_i hnew
          obtain rfl := Option.some.inj hy
          exact completeMessageDispatch_backed hx (by simpa using hnew)
      | recordTrusted a =>
        simp only [perform] at hp
        obtain ⟨row, hrow, rfl⟩ := replyWith_ok hp
        exact h.record rfl rfl hrow
      | openScope =>
        simp only [perform, pure_eq_ok, Prod.mk.injEq] at hp
        obtain ⟨-, rfl⟩ := hp
        exact plain rfl rfl
      | createRoom | joinRoom | leaveRoom | setRoomAutomation | upsertRouteProfile | sendMessage
      | sendRoomFanout | postRoomMessage | claim | renew | fail | ack | advance | control
      | reconcile =>
        simp only [perform] at hp
        obtain ⟨_, -, rfl⟩ := replyWith_ok hp
        exact plain rfl rfl

theorem run_traced {w w' : World} (h : (mailbox P).Run w tr w')
    (hw : w.store.ledger.trustedReceipts = []) : Traced P tr w'.store := by
  refine h.preserves_trace (fun tr w => Traced P tr w.store) (fun tr w i ht _ => attempt_traced i ht)
    ⟨by simp [hw], by simp [hw], fun x hx => (by cases hx)⟩

end Steps

theorem reply_provenance {P : Platform} {F : TextForms} (hF : F.Plain) (hP : P.Hashes F)
    {w₀ w : World} {tr : Trace} (h₀ : (mailbox (P.inference F)).start w₀)
    (h : (mailbox (P.inference F)).Run w₀ tr w) (hfree : CollisionFree P (traceTexts F tr)) :
    Provenance (P.inference F) tr w.store := by
  obtain ⟨connections, now, rfl⟩ := h₀
  have ht := run_traced h rfl
  have hids := (reachable_wf ⟨_, _, ⟨connections, now, rfl⟩, h⟩).mail.ids
  refine ⟨ht.keyed, fun x hx => ?_, fun x _ y _ t htm u hum hb hb' hsha => ?_⟩
  · obtain ⟨t, hm, hb⟩ := ht.backed x hx
    exact ⟨t, ⟨hm, hb⟩, fun u ⟨hum, hu⟩ => eq_of_key_eq ht.keyed hum hm (hu.key_eq hb)⟩
  · obtain ⟨e, he, a, body, route, v, hcall, hid, hv, hvsha⟩ := ht.recorded t htm
    obtain ⟨e', he', a', body', route', v', hcall', hid', hv', hvsha'⟩ := ht.recorded u hum
    have mem {e : (Call × Ctx) × Except BridgeError Reply} (he : e ∈ tr) {a : TrustedArgs}
        (hcall : e.1.1 = .recordTrusted a) : dumps F a.receipt.unsigned ∈ traceTexts F tr ∧
          dumps F (.str (strip a.messageId)) ∈ traceTexts F tr := by
      constructor <;> exact List.mem_flatMap.mpr ⟨e, he, by simp [hcall, Call.hashedTexts]⟩
    have hmessage : t.messageId = u.messageId := by
      refine Validated.message_eq hF hP (validateInferenceReceipt_ok hv)
        (validateInferenceReceipt_ok hv') (hvsha.trans (hsha.trans hvsha'.symm))
        (fun hs => hfree _ (mem he hcall).1 _ (mem he' hcall').1 hs) (fun hs => ?_)
      rw [← hid, ← hid'] at hs ⊢
      exact hfree _ (mem he hcall).2 _ (mem he' hcall').2 hs
    obtain ⟨source, hs, -⟩ := hb.source
    obtain ⟨source', hs', -⟩ := hb'.source
    have hsame : source = source' := by
      obtain ⟨h1, -, h2⟩ := (message?_iff hids).mp hs
      obtain ⟨h1', -, h2'⟩ := (message?_iff hids).mp hs'
      exact eq_of_key_eq hids h1 h1' (h2.trans (hmessage.trans h2'.symm))
    have hkey := hb.dispatch_eq
    have hkey' := hb'.dispatch_eq
    simp only [DispatchRow.key, Prod.mk.injEq] at hkey hkey'
    have hscope := ((message?_iff hids).mp hs).2.1
    have hscope' := ((message?_iff hids).mp hs').2.1
    rw [← hsame] at hscope'
    exact ⟨by rw [← hkey.1, ← hkey'.1, ← hscope, ← hscope'],
      by rw [← hkey.2.1, ← hkey'.2.1, hmessage]⟩

theorem plainForms_plain : plainForms.Plain :=
  ⟨fun q => (intText_chars q.num).1, fun q => (intText_chars q.num).2⟩

-- stands in for SHA-256 over long texts
def mixHead (cs : List Char) : Nat := (cs.take 8).foldl (fun h c => mix h c.toNat) 7

def headPlatform : Platform :=
  { samplePlatform with
    sha256Bytes := fun t => sampleSha (mixHead t.toList)
    stableSha256 := fun v => sampleSha (mixHead (jsonChars plainForms v)) }

theorem headPlatform_hashes : headPlatform.Hashes plainForms := by
  intro v
  simp [headPlatform, dumps]

def receiptPlatform : Platform := headPlatform.inference plainForms

def unroutedAgent : Bridge :=
  { agentId := "a", scope := "demo", sessionId := "session", clientName := none,
    providerId := none, modelId := none, reasoningMode := none, routeClass := none,
    discussionCoordinator := false, agentId_safe := isIdentifier_a,
    scope_safe := isIdentifier_demo, sessionId_safe := isIdentifier_session }

def assistantMessage (content : String) : Json :=
  .obj [("role", .str "assistant"), ("content", .str content)]

def openaiReceipt (P : Platform) (messageId content : String) : Json :=
  let fields := [("schema", .str openaiCompatibleRun), ("route", .obj []),
    ("room_id", .str defaultRoomId), ("session_id", .str "session"),
    ("message_id_sha256", .sha (P.stableSha256 (.str messageId))),
    ("output_message_sha256", .sha (P.stableSha256 (assistantMessage content)))]
  .obj (("receipt_sha256", .sha (P.stableSha256 (.obj fields))) :: fields)

def answered (messageId body : String) : List (Call × Ctx) :=
  let receipt := openaiReceipt receiptPlatform messageId body
  let digest := (receiptPlatform.stableSha256 receipt.unsigned).hex
  let leaseToken := "token-3"
  asHuman 1 [.openScope,
    .sendMessage { recipient := "a", taskId := "t", subject := "s", body := "hello" }] ++
  [(.claim { messageId }, sampleCtx unroutedAgent 3),
    (.recordTrusted { messageId, leaseToken, body, receipt,
                      assistantMessage := assistantMessage body }, sampleCtx unroutedAgent 4),
    (.complete { messageId, leaseToken, body, inferenceReceiptSha256 := digest },
      sampleCtx unroutedAgent 5)]

theorem traceTexts_play (P : Platform) (F : TextForms) (w : World) (is : List (Call × Ctx)) :
    traceTexts F ((mailbox P).play w is).2 = is.flatMap (fun i => i.1.hashedTexts F) := by
  induction is generalizing w with
  | nil => rfl
  | cons i is ih =>
    rw [List.flatMap_cons, ← ih ((mailbox P).exec w i).1]
    rfl

theorem CollisionFree.pair {P : Platform} {u v : String} (h : P.sha256Bytes u ≠ P.sha256Bytes v) :
    CollisionFree P [u, v] := by
  intro x hx y hy hs
  simp only [List.mem_cons, List.not_mem_nil, or_false] at hx hy
  rcases hx with rfl | rfl <;> rcases hy with rfl | rfl
  · rfl
  · exact absurd hs h
  · exact absurd hs.symm h
  · rfl

set_option maxRecDepth 100000 in
theorem reply_provenance_answered :
    let M := mailbox receiptPlatform
    let run := M.play sampleWorld (answered (sampleMessage 1) "done")
    Provenance receiptPlatform run.2 run.1.store ∧ (created run.2).length = 1 := by
  intro M
  have hcheck : M.AdmitsAll sampleWorld (answered (sampleMessage 1) "done") ∧
      (created (M.play sampleWorld (answered (sampleMessage 1) "done")).2).length = 1 := by
    decide +kernel
  refine ⟨reply_provenance plainForms_plain headPlatform_hashes ⟨[], 0, rfl⟩
    (Machine.run_play _ _ hcheck.1) ?_, hcheck.2⟩
  rw [traceTexts_play]
  have hdistinct : headPlatform.sha256Bytes
        (dumps plainForms (openaiReceipt receiptPlatform (sampleMessage 1) "done").unsigned) ≠
      headPlatform.sha256Bytes (dumps plainForms (.str (strip (sampleMessage 1)))) := by
    rw [← headPlatform_hashes, ← headPlatform_hashes]
    decide +kernel
  exact CollisionFree.pair hdistinct

end PeerBridge
