import PeerBridge.Scenario
import PeerBridge.Canonical
import PeerBridge.Lib.Chain

namespace PeerBridge
open Checked Rows

def maxMcpAuditEvents : Nat := maxScopeEventRows
def maxMcpAuditSeconds : ℚ := 60

-- a row of the events table as SQLite returns it
structure StoredEvent where
  sequence : Int
  eventId : String
  scope : String
  actor : String
  eventType : String
  taskId : Option String
  payloadJson : String
  createdUtc : String
  payloadSha256 : String
  prevChainSha256 : String
  chainSha256 : String

structure Evidence where
  eventId : String
  actor : String
  eventType : String
  taskId : Option String
  payloadJson : String
  createdUtc : String

def StoredEvent.evidence (e : StoredEvent) : Evidence :=
  { eventId := e.eventId, actor := e.actor, eventType := e.eventType, taskId := e.taskId,
    payloadJson := e.payloadJson, createdUtc := e.createdUtc }

def envelope (scope previous payloadSha256 : String) (e : Evidence) : Json :=
  .obj [("event_id", .str e.eventId), ("scope", .str scope), ("actor", .str e.actor),
    ("event_type", .str e.eventType), ("task_id", .opt e.taskId),
    ("payload_sha256", .str payloadSha256), ("created_utc", .str e.createdUtc),
    ("prev_chain_sha256", .str previous)]

def payloadSha (P : Platform) (e : Evidence) : String := (P.sha256Bytes e.payloadJson).hex

def chainSha (P : Platform) (scope previous : String) (e : Evidence) : String :=
  (P.stableSha256 (envelope scope previous (payloadSha P e) e)).hex

structure ChainError where
  sequence : Int
  error : String

structure ChainScan where
  previous : String
  eventCount : Nat
  errorCount : Nat
  errors : List ChainError

structure AuditReport where
  valid : Bool
  eventCount : Nat
  headChainSha256 : String
  errors : List ChainError
  errorCount : Nat
  errorsTruncated : Bool

def ChainScan.note (k : ChainScan) (sequence : Int) (error : String) (failed : Bool) : ChainScan :=
  if failed then
    { k with errorCount := k.errorCount + 1,
             errors := if k.errors.length < 100 then k.errors ++ [{ sequence, error }]
               else k.errors }
  else k

def ChainScan.check (P : Platform) (scope : String) (k : ChainScan) (row : StoredEvent) :
    ChainScan :=
  let previous := k.previous
  let k := { k with eventCount := k.eventCount + 1 }
  let k := k.note row.sequence "payload_sha256" (row.payloadSha256 ≠ payloadSha P row.evidence)
  let k := k.note row.sequence "prev_chain_sha256" (row.prevChainSha256 ≠ previous)
  let k := k.note row.sequence "chain_sha256"
    (row.chainSha256 ≠ chainSha P scope previous row.evidence)
  { k with previous := row.chainSha256 }

def auditOverdue : BridgeError :=
  .bridge "audit chain verification exceeded the interactive time budget"

-- monotonic k is the clock at row k, monotonic 0 where the deadline is taken
def scanChain (P : Platform) (scope : String) (monotonic : Nat → ℚ) :
    ChainScan → List StoredEvent → Except BridgeError ChainScan
  | k, [] => pure k
  | k, row :: rows => do
    require (monotonic (k.eventCount + 1) ≤ monotonic 0 + maxMcpAuditSeconds) auditOverdue
    scanChain P scope monotonic (k.check P scope row) rows

def scopeEvents (scope : String) (rows : List StoredEvent) : List StoredEvent :=
  (rows.filter (fun e => e.scope = scope)).insertionSort (fun a b => a.sequence ≤ b.sequence)

def verifyAuditChain (P : Platform) (scope : String) (monotonic : Nat → ℚ)
    (rows : List StoredEvent) : Except BridgeError AuditReport := do
  require ((rows.filter (fun e => e.scope = scope)).length ≤ maxMcpAuditEvents)
    (.bridge "audit chain exceeds the interactive verification event budget")
  let scan ← scanChain P scope monotonic
    { previous := zeroSha256.hex, eventCount := 0, errorCount := 0, errors := [] }
    (scopeEvents scope rows)
  pure { valid := scan.errorCount = 0, eventCount := scan.eventCount,
         headChainSha256 := scan.previous, errors := scan.errors, errorCount := scan.errorCount,
         errorsTruncated := scan.errors.length < scan.errorCount }

structure EventCall where
  eventType : String
  payload : List (String × Json) := []
  taskId : Option String := none

def auditLog (P : Platform) : Machine Audit (EventCall × Ctx) (Except BridgeError Sha256) where
  start a := a = Audit.empty
  admits _ _ := True
  exec a i :=
    match event P i.2 i.1.eventType i.1.payload i.1.taskId a with
    | .ok (a', chain) => (a', .ok chain)
    | .error e => (a, .error e)

def EventRow.stored (F : TextForms) (e : EventRow) : StoredEvent :=
  { sequence := e.sequence, eventId := e.eventId, scope := e.scope, actor := e.actor,
    eventType := e.eventType, taskId := e.taskId, payloadJson := dumps F e.payload,
    createdUtc := F.utc e.createdUtc, payloadSha256 := e.payloadSha256.hex,
    prevChainSha256 := e.prevChainSha256.hex, chainSha256 := e.chainSha256.hex }

def Audit.stored (F : TextForms) (a : Audit) : List StoredEvent := a.events.map (EventRow.stored F)

section Envelope
open JsonText
variable (F : TextForms)

theorem envelope_chars (scope previous sha : String) (e : Evidence) :
    jsonChars F (envelope scope previous sha e) =
      '{' :: (member ("actor", quote e.actor.toList) ++
      ',' :: (member ("created_utc", quote e.createdUtc.toList) ++
      ',' :: (member ("event_id", quote e.eventId.toList) ++
      ',' :: (member ("event_type", quote e.eventType.toList) ++
      ',' :: (member ("payload_sha256", quote sha.toList) ++
      ',' :: (member ("prev_chain_sha256", quote previous.toList) ++
      ',' :: (member ("scope", quote scope.toList) ++
      ',' :: (member ("task_id", jsonChars F (.opt e.taskId)) ++ ['\x7d'])))))))) := by
  simp [envelope, jsonChars, fieldChars, object, separate]

theorem member_cancel {key : String} {t u : List Char} {r s : List Char} {x y : List Char}
    (hval : ∀ {r s}, t ++ r = u ++ s → x = y ∧ r = s)
    (h : member (key, t) ++ r = member (key, u) ++ s) : x = y ∧ r = s := by
  simp only [member, List.append_assoc, List.cons_append] at h
  have hv := (quote_cancel h).2
  exact hval (List.cons.inj hv).2

theorem envelope_cancel {scope previous previous' sha sha' : String} {e e' : Evidence}
    (h : dumps F (envelope scope previous sha e) = dumps F (envelope scope previous' sha' e')) :
    previous = previous' ∧ sha = sha' ∧
      e = { e' with payloadJson := e.payloadJson } := by
  have hc : jsonChars F (envelope scope previous sha e) =
      jsonChars F (envelope scope previous' sha' e') := by
    simpa [dumps] using congrArg String.toList h
  rw [envelope_chars, envelope_chars] at hc
  obtain ⟨hactor, hc⟩ := member_cancel quote_cancel (List.cons.inj hc).2
  obtain ⟨hcreated, hc⟩ := member_cancel quote_cancel (List.cons.inj hc).2
  obtain ⟨hid, hc⟩ := member_cancel quote_cancel (List.cons.inj hc).2
  obtain ⟨htype, hc⟩ := member_cancel quote_cancel (List.cons.inj hc).2
  obtain ⟨hsha, hc⟩ := member_cancel quote_cancel (List.cons.inj hc).2
  obtain ⟨hprevious, hc⟩ := member_cancel quote_cancel (List.cons.inj hc).2
  obtain ⟨-, hc⟩ := member_cancel quote_cancel (List.cons.inj hc).2
  have htask : e.taskId = e'.taskId := by
    simp only [List.cons.injEq, true_and, member, List.append_assoc, List.cons_append] at hc
    exact (jsonChars_opt_cancel F (List.cons.inj (quote_cancel hc).2).2).1
  refine ⟨String.toList_inj.mp hprevious, String.toList_inj.mp hsha, ?_⟩
  cases e
  cases e'
  simp_all [String.toList_inj]

theorem stored_chain (P : Platform) (e : EventRow) (h : e.payloadSha256 = (P.canonical F).stableSha256 e.payload) :
    chainSha (P.canonical F) e.scope e.prevChainSha256.hex (e.stored F).evidence =
      ((P.canonical F).stableSha256 (eventEnvelope e)).hex := by
  have hp : payloadSha (P.canonical F) (e.stored F).evidence = e.payloadSha256.hex := by
    rw [h]
    rfl
  have hd : dumps F (envelope e.scope e.prevChainSha256.hex e.payloadSha256.hex
      (e.stored F).evidence) = dumps F (eventEnvelope e) := by
    simp [dumps, envelope, eventEnvelope, jsonChars, fieldChars, EventRow.stored,
      StoredEvent.evidence]
  rw [chainSha, hp, Platform.canonical_stableSha256, hd, Platform.canonical_stableSha256]

end Envelope

def Linked (P : Platform) : Sha256 → List EventRow → Prop
  | _, [] => True
  | previous, e :: es =>
    (e.payloadSha256 = P.stableSha256 e.payload ∧ e.prevChainSha256 = previous ∧
      e.chainSha256 = P.stableSha256 (eventEnvelope e)) ∧ Linked P e.chainSha256 es

structure Chained (P : Platform) (a : Audit) : Prop where
  sorted : a.events.Pairwise (fun x y => x.sequence < y.sequence)
  bounded : ∀ e ∈ a.events, e.sequence ≤ a.lastEvent
  counted : ∀ scope, (a.tally scope).eventRows = (a.ofScope scope).length
  capped : ∀ scope, (a.tally scope).eventRows ≤ maxScopeEventRows
  linked : ∀ scope, Linked P zeroSha256 (a.ofScope scope)

section Writing
variable {P : Platform}

theorem linked_snoc {previous : Sha256} {es : List EventRow} {e : EventRow}
    (h : Linked P previous es) (hp : e.payloadSha256 = P.stableSha256 e.payload)
    (hprev : e.prevChainSha256 = (es.getLast?.map EventRow.chainSha256).getD previous)
    (hc : e.chainSha256 = P.stableSha256 (eventEnvelope e)) : Linked P previous (es ++ [e]) := by
  induction es generalizing previous with
  | nil => exact ⟨⟨hp, hprev, hc⟩, trivial⟩
  | cons x xs ih =>
    refine ⟨h.1, ih h.2 ?_⟩
    rw [hprev]
    cases xs with
    | nil => rfl
    | cons y ys =>
      rw [List.getLast?_cons_cons]
      cases hl : (y :: ys).getLast? with
      | none => simp at hl
      | some z => rfl

theorem Chained.empty : Chained P Audit.empty where
  sorted := List.Pairwise.nil
  bounded := by simp [Audit.empty]
  counted _ := rfl
  capped _ := Nat.zero_le _
  linked _ := trivial

theorem Chained.event {c : Ctx} {ty : String} {payload : List (String × Json)}
    {task : Option String} {a a' : Audit} {chain : Sha256} (h : Chained P a)
    (he : event P c ty payload task a = .ok (a', chain)) : Chained P a' := by
  obtain ⟨row, a₁, hrow, hr, rfl⟩ := event_ok he
  obtain ⟨-, -, ht, hcap, -⟩ := reserveEventStorage_ok hr
  have hof : ∀ scope, a.ofScope scope ++ (if c.self.scope = scope then [row] else []) =
      (a.events ++ [row]).filter (fun e => e.scope = scope) := by
    intro scope
    rw [List.filter_append]
    by_cases hs : c.self.scope = scope
    · simp [Audit.ofScope, hrow.scope, hs]
    · simp [Audit.ofScope, hrow.scope, hs]
  refine ⟨?_, fun e hm => ?_, fun scope => ?_, fun scope => ?_, fun scope => ?_⟩
  · refine List.pairwise_append.mpr ⟨h.sorted, List.pairwise_singleton _ _, fun x hx y hy => ?_⟩
    rw [List.mem_singleton.mp hy, hrow.sequence]
    exact Nat.lt_succ_of_le (h.bounded x hx)
  · rcases List.mem_append.mp hm with hm | hm
    · exact Nat.le_succ_of_le (h.bounded e hm)
    · rw [List.mem_singleton.mp hm, hrow.sequence]
  · show (a₁.tally scope).eventRows = ((a.events ++ [row]).filter _).length
    rw [← hof, ht]
    by_cases hs : c.self.scope = scope
    · simp [hs, h.counted]
    · simp [hs, h.counted]
  · show (a₁.tally scope).eventRows ≤ _
    by_cases hs : c.self.scope = scope
    · exact hs ▸ hcap
    · rw [ht, if_neg hs]
      exact h.capped scope
  · show Linked P zeroSha256 ((a.events ++ [row]).filter _)
    rw [← hof]
    by_cases hs : c.self.scope = scope
    · rw [if_pos hs]
      refine linked_snoc (h.linked scope) hrow.payloadSha ?_ hrow.chain
      rw [hrow.previous, hs]
      rfl
    · rw [if_neg hs, List.append_nil]
      exact h.linked scope

theorem chained_reachable {a : Audit} (h : (auditLog P).Reachable a) : Chained P a := by
  refine h.invariant (Chained P) (fun s hs => ?_) (fun s i hs _ => ?_)
  · rw [show s = Audit.empty from hs]
    exact .empty
  · show Chained P (match event P i.2 i.1.eventType i.1.payload i.1.taskId s with
      | .ok (a', chain) => (a', Except.ok chain)
      | .error e => (s, Except.error e)).1
    cases he : event P i.2 i.1.eventType i.1.payload i.1.taskId s with
    | error e => exact hs
    | ok r => exact hs.event he

end Writing

section Scanning
variable {P : Platform} {scope : String} {monotonic : Nat → ℚ} {k k' : ChainScan}

def Timely (monotonic : Nat → ℚ) (rows : Nat) : Prop :=
  ∀ n ≤ rows, monotonic n ≤ monotonic 0 + maxMcpAuditSeconds

@[simp] theorem ChainScan.note_false (sequence : Int) (error : String) :
    k.note sequence error false = k := rfl

theorem ChainScan.note_previous (sequence : Int) (error : String) (failed : Bool) :
    (k.note sequence error failed).previous = k.previous := by
  unfold note
  split <;> rfl

theorem ChainScan.note_eventCount (sequence : Int) (error : String) (failed : Bool) :
    (k.note sequence error failed).eventCount = k.eventCount := by
  unfold note
  split <;> rfl

theorem ChainScan.note_errorCount (sequence : Int) (error : String) (failed : Bool) :
    (k.note sequence error failed).errorCount = k.errorCount + failed.toNat := by
  unfold note
  cases failed <;> simp

theorem ChainScan.check_previous (row : StoredEvent) :
    (k.check P scope row).previous = row.chainSha256 := rfl

theorem ChainScan.check_eventCount (row : StoredEvent) :
    (k.check P scope row).eventCount = k.eventCount + 1 := by
  simp only [check, note_eventCount]

theorem ChainScan.check_errorCount (row : StoredEvent) :
    (k.check P scope row).errorCount = k.errorCount +
      (decide (row.payloadSha256 ≠ payloadSha P row.evidence)).toNat +
      (decide (row.prevChainSha256 ≠ k.previous)).toNat +
      (decide (row.chainSha256 ≠ chainSha P scope k.previous row.evidence)).toNat := by
  simp only [check, note_errorCount]

theorem scanChain_ok {rows : List StoredEvent}
    (h : scanChain P scope monotonic k rows = .ok k') :
    k' = rows.foldl (ChainScan.check P scope) k := by
  induction rows generalizing k with
  | nil => exact ((pure_eq_ok).mp h).symm
  | cons row rows ih =>
    simp only [scanChain, bind_eq_ok] at h
    obtain ⟨-, -, h⟩ := h
    exact ih h

theorem scanChain_timely {rows : List StoredEvent}
    (h : Timely monotonic (k.eventCount + rows.length)) :
    scanChain P scope monotonic k rows = .ok (rows.foldl (ChainScan.check P scope) k) := by
  induction rows generalizing k with
  | nil => rfl
  | cons row rows ih =>
    have hnow := h (k.eventCount + 1) (by simp)
    simp only [scanChain, bind_eq_ok, require_eq_ok]
    refine ⟨(), hnow, ih ?_⟩
    rw [ChainScan.check_eventCount]
    simpa [Nat.add_assoc, Nat.add_comm 1] using h

theorem scan_linked (F : TextForms) {previous : Sha256} {es : List EventRow}
    (h : Linked (P.canonical F) previous es) (hs : ∀ e ∈ es, e.scope = scope)
    (hp : k.previous = previous.hex) :
    ((es.map (EventRow.stored F)).foldl (ChainScan.check (P.canonical F) scope) k).errorCount =
      k.errorCount := by
  induction es generalizing k previous with
  | nil => rfl
  | cons e es ih =>
    obtain ⟨⟨hsha, hprev, hchain⟩, htail⟩ := h
    obtain rfl := hs e List.mem_cons_self
    rw [List.map_cons, List.foldl_cons,
      ih htail (fun x hx => hs x (List.mem_cons_of_mem _ hx)) rfl, ChainScan.check_errorCount]
    have h1 : (e.stored F).payloadSha256 = payloadSha (P.canonical F) (e.stored F).evidence :=
      congrArg Sha256.hex hsha
    have h2 : (e.stored F).prevChainSha256 = k.previous := by
      rw [hp, ← hprev]
      rfl
    have h3 : (e.stored F).chainSha256 =
        chainSha (P.canonical F) e.scope k.previous (e.stored F).evidence := by
      rw [hp, ← hprev, stored_chain F P e hsha, ← hchain]
      rfl
    simp [h1, h2, ← h3]

theorem valid_scan {rows : List StoredEvent}
    (h : (rows.foldl (ChainScan.check P scope) k).errorCount = 0) :
    k.errorCount = 0 ∧ (rows.foldl (ChainScan.check P scope) k).previous =
      Chain.head (chainSha P scope) k.previous (rows.map StoredEvent.evidence) := by
  induction rows generalizing k with
  | nil => exact ⟨h, rfl⟩
  | cons row rows ih =>
    obtain ⟨hcount, hhead⟩ := ih h
    rw [ChainScan.check_errorCount] at hcount
    have hchain : decide (row.chainSha256 ≠ chainSha P scope k.previous row.evidence) = false := by
      cases hd : decide (row.chainSha256 ≠ chainSha P scope k.previous row.evidence) with
      | false => rfl
      | true => simp [hd] at hcount
    refine ⟨by omega, ?_⟩
    rw [List.foldl_cons, hhead, ChainScan.check_previous, List.map_cons, Chain.head_cons,
      show row.chainSha256 = chainSha P scope k.previous row.evidence by simpa using hchain]

end Scanning

section Reading
variable {P : Platform} {scope : String} {monotonic : Nat → ℚ}

def AuditReport.ofScan (k : ChainScan) : AuditReport :=
  { valid := k.errorCount = 0, eventCount := k.eventCount, headChainSha256 := k.previous,
    errors := k.errors, errorCount := k.errorCount,
    errorsTruncated := k.errors.length < k.errorCount }

def freshScan : ChainScan :=
  { previous := zeroSha256.hex, eventCount := 0, errorCount := 0, errors := [] }

theorem verifyAuditChain_ok {rows : List StoredEvent} {r : AuditReport}
    (h : verifyAuditChain P scope monotonic rows = .ok r) :
    r = .ofScan ((scopeEvents scope rows).foldl (ChainScan.check P scope) freshScan) := by
  simp only [verifyAuditChain, bind_eq_ok, require_eq_ok, pure_eq_ok] at h
  obtain ⟨-, -, k, hk, rfl⟩ := h
  rw [scanChain_ok hk]
  rfl

theorem scopeEvents_stored (F : TextForms) {a : Audit}
    (h : a.events.Pairwise (fun x y => x.sequence < y.sequence)) :
    scopeEvents scope (a.stored F) = (a.ofScope scope).map (EventRow.stored F) := by
  have hf : (a.stored F).filter (fun e => e.scope = scope) =
      (a.ofScope scope).map (EventRow.stored F) := by
    rw [Audit.stored, List.filter_map, Audit.ofScope]
    rfl
  rw [scopeEvents, hf]
  refine List.Pairwise.insertionSort_eq ?_
  rw [List.pairwise_map]
  refine List.Pairwise.imp ?_ (h.filter _)
  intro x y hxy
  exact Int.ofNat_le.mpr (Nat.le_of_lt hxy)

def hashedTexts (P : Platform) (F : TextForms) (scope : String) (rows : List StoredEvent) :
    List String :=
  (Chain.links (chainSha (P.canonical F) scope) zeroSha256.hex
    ((scopeEvents scope rows).map StoredEvent.evidence)).flatMap (fun p =>
      [p.2.payloadJson, dumps F (envelope scope p.1 (payloadSha (P.canonical F) p.2) p.2)])

theorem sha256_hex_inj {d e : Sha256} (h : d.hex = e.hex) : d = e := by
  have hp := congrArg Sha256.parse? h
  rw [Sha256.parse?_hex, Sha256.parse?_hex] at hp
  exact Option.some.inj hp

theorem mem_hashedTexts {F : TextForms} {rows : List StoredEvent} {p : String × Evidence}
    (h : p ∈ Chain.links (chainSha (P.canonical F) scope) zeroSha256.hex
      ((scopeEvents scope rows).map StoredEvent.evidence)) :
    p.2.payloadJson ∈ hashedTexts P F scope rows ∧
      dumps F (envelope scope p.1 (payloadSha (P.canonical F) p.2) p.2) ∈
        hashedTexts P F scope rows :=
  ⟨List.mem_flatMap.mpr ⟨p, h, by simp⟩, List.mem_flatMap.mpr ⟨p, h, by simp⟩⟩

theorem chainSha_cancel {F : TextForms} {texts : List String}
    (hinj : ∀ t ∈ texts, ∀ u ∈ texts, P.sha256Bytes t = P.sha256Bytes u → t = u)
    {p q : String × Evidence} (hp : p.2.payloadJson ∈ texts) (hq : q.2.payloadJson ∈ texts)
    (hp' : dumps F (envelope scope p.1 (payloadSha (P.canonical F) p.2) p.2) ∈ texts)
    (hq' : dumps F (envelope scope q.1 (payloadSha (P.canonical F) q.2) q.2) ∈ texts)
    (h : chainSha (P.canonical F) scope p.1 p.2 = chainSha (P.canonical F) scope q.1 q.2) :
    p = q := by
  obtain ⟨hprev, hsha, he⟩ :=
    envelope_cancel F (hinj _ hp' _ hq' (sha256_hex_inj h))
  have hpayload : p.2.payloadJson = q.2.payloadJson := hinj _ hp _ hq (sha256_hex_inj hsha)
  have hev : p.2 = q.2 := by
    rw [he, hpayload]
  exact Prod.ext hprev hev

end Reading

theorem verified_evidence_eq {P : Platform} {F : TextForms} {scope : String}
    {monotonic monotonic' : Nat → ℚ} {rows rows' : List StoredEvent} {r r' : AuditReport}
    (hr : verifyAuditChain (P.canonical F) scope monotonic rows = .ok r)
    (hr' : verifyAuditChain (P.canonical F) scope monotonic' rows' = .ok r')
    (hv : r.valid = true) (hv' : r'.valid = true)
    (hhead : r.headChainSha256 = r'.headChainSha256)
    (hinj : ∀ t ∈ hashedTexts P F scope rows ++ hashedTexts P F scope rows',
      ∀ u ∈ hashedTexts P F scope rows ++ hashedTexts P F scope rows',
        P.sha256Bytes t = P.sha256Bytes u → t = u)
    (hzero : ∀ t ∈ hashedTexts P F scope rows ++ hashedTexts P F scope rows',
      P.sha256Bytes t ≠ zeroSha256) :
    (scopeEvents scope rows).map StoredEvent.evidence =
      (scopeEvents scope rows').map StoredEvent.evidence := by
  obtain rfl := verifyAuditChain_ok hr
  obtain rfl := verifyAuditChain_ok hr'
  have hh := (valid_scan (by simpa [AuditReport.ofScan] using hv)).2
  have hh' := (valid_scan (by simpa [AuditReport.ofScan] using hv')).2
  have hne : ∀ {p : String × Evidence},
      dumps F (envelope scope p.1 (payloadSha (P.canonical F) p.2) p.2) ∈
        hashedTexts P F scope rows ++ hashedTexts P F scope rows' →
      chainSha (P.canonical F) scope p.1 p.2 ≠ zeroSha256.hex :=
    fun hm he => hzero _ hm (sha256_hex_inj he)
  refine Chain.eq_of_head_eq (fun p hp q hq h => ?_) (fun p hp => hne ?_) (fun q hq => hne ?_)
    (hh.symm.trans (Eq.trans hhead hh'))
  · obtain ⟨hp1, hp2⟩ := mem_hashedTexts hp
    obtain ⟨hq1, hq2⟩ := mem_hashedTexts hq
    exact chainSha_cancel hinj (List.mem_append_left _ hp1) (List.mem_append_right _ hq1)
      (List.mem_append_left _ hp2) (List.mem_append_right _ hq2) h
  · exact List.mem_append_left _ (mem_hashedTexts hp).2
  · exact List.mem_append_right _ (mem_hashedTexts hq).2

theorem written_chain_valid {P : Platform} {F : TextForms} {a : Audit}
    (h : Chained (P.canonical F) a) (scope : String) (monotonic : Nat → ℚ) :
    (∀ r, verifyAuditChain (P.canonical F) scope monotonic (a.stored F) = .ok r →
        r.valid = true) ∧
      (Timely monotonic (a.ofScope scope).length →
        ∃ r, verifyAuditChain (P.canonical F) scope monotonic (a.stored F) = .ok r) := by
  have hscan := scan_linked (k := freshScan) F (h.linked scope)
    (fun e he => by simpa [Audit.ofScope] using (List.mem_filter.mp he).2) rfl
  constructor
  · intro r hr
    obtain rfl := verifyAuditChain_ok hr
    rw [scopeEvents_stored F h.sorted]
    exact decide_eq_true hscan
  · intro ht
    have hlen : ((a.stored F).filter (fun e => e.scope = scope)).length ≤ maxMcpAuditEvents := by
      have hc := h.capped scope
      rw [h.counted, Audit.ofScope] at hc
      rw [Audit.stored, List.filter_map, List.length_map]
      exact hc
    have hrows : freshScan.eventCount + (scopeEvents scope (a.stored F)).length =
        (a.ofScope scope).length := by
      rw [scopeEvents_stored F h.sorted, List.length_map]
      exact Nat.zero_add _
    have hs : scanChain (P.canonical F) scope monotonic freshScan (scopeEvents scope (a.stored F)) =
        .ok _ := scanChain_timely (hrows ▸ ht)
    refine ⟨.ofScan ((scopeEvents scope (a.stored F)).foldl
      (ChainScan.check (P.canonical F) scope) freshScan), ?_⟩
    simp only [verifyAuditChain, bind_eq_ok, require_eq_ok, pure_eq_ok]
    exact ⟨(), hlen, _, hs, rfl⟩

theorem audit_chain_tamper_evident (P : Platform) (F : TextForms) (scope : String) :
    (∀ a, (auditLog (P.canonical F)).Reachable a → ∀ monotonic,
      (∀ r, verifyAuditChain (P.canonical F) scope monotonic (a.stored F) = .ok r →
        r.valid = true) ∧
      (Timely monotonic (a.ofScope scope).length →
        ∃ r, verifyAuditChain (P.canonical F) scope monotonic (a.stored F) = .ok r)) ∧
    (∀ rows rows' monotonic monotonic' r r',
      verifyAuditChain (P.canonical F) scope monotonic rows = .ok r →
      verifyAuditChain (P.canonical F) scope monotonic' rows' = .ok r' →
      r.valid = true → r'.valid = true → r.headChainSha256 = r'.headChainSha256 →
      (∀ t ∈ hashedTexts P F scope rows ++ hashedTexts P F scope rows',
        ∀ u ∈ hashedTexts P F scope rows ++ hashedTexts P F scope rows',
          P.sha256Bytes t = P.sha256Bytes u → t = u) →
      (∀ t ∈ hashedTexts P F scope rows ++ hashedTexts P F scope rows',
        P.sha256Bytes t ≠ zeroSha256) →
      (scopeEvents scope rows).map StoredEvent.evidence =
        (scopeEvents scope rows').map StoredEvent.evidence) := by
  constructor
  · intro a ha monotonic
    exact written_chain_valid (chained_reachable ha) scope monotonic
  · intro rows rows' monotonic monotonic' r r' hr hr' hv hv' hhead hinj hzero
    exact verified_evidence_eq hr hr' hv hv' hhead hinj hzero

def sampleForms : TextForms := { real := fun q => toString q.num, utc := fun t => toString t }

def sampleEvents (n : Nat) : List (EventCall × Ctx) :=
  (List.range n).map (fun k => ({ eventType := "agent.heartbeat" }, sampleCtx sampleHuman (k + 1)))

abbrev sampleLog : Machine Audit (EventCall × Ctx) (Except BridgeError Sha256) :=
  auditLog (samplePlatform.canonical sampleForms)

def sampleAudit (n : Nat) : Audit := (sampleLog.play Audit.empty (sampleEvents n)).1

theorem sampleAudit_reachable (n : Nat) : sampleLog.Reachable (sampleAudit n) := by
  refine ⟨Audit.empty, _, rfl, Machine.run_play _ _ ?_⟩
  have hall : ∀ (is : List (EventCall × Ctx)) (a : Audit), sampleLog.AdmitsAll a is := by
    intro is
    induction is with
    | nil => exact fun _ => trivial
    | cons i is ih => exact fun a => ⟨trivial, ih _⟩
  exact hall _ _

theorem verifyAuditChain_overdue {P : Platform} {scope : String} {monotonic : Nat → ℚ}
    {rows : List StoredEvent}
    (hcount : (rows.filter (fun e => e.scope = scope)).length ≤ maxMcpAuditEvents)
    (hrows : scopeEvents scope rows ≠ [])
    (h : ¬ monotonic 1 ≤ monotonic 0 + maxMcpAuditSeconds) :
    verifyAuditChain P scope monotonic rows = .error auditOverdue := by
  obtain ⟨row, rest, he⟩ := List.exists_cons_of_ne_nil hrows
  rw [verifyAuditChain, he, scanChain]
  simp [require, hcount, h, bind, Except.bind]

theorem slow_chain_unreported :
    ∃ a, sampleLog.Reachable a ∧ ∃ monotonic : Nat → ℚ,
      (∀ n m, n ≤ m → monotonic n ≤ monotonic m) ∧
      verifyAuditChain (samplePlatform.canonical sampleForms) "demo" monotonic
        (a.stored sampleForms) = .error auditOverdue := by
  have hsample : (((sampleAudit 1).stored sampleForms).filter (fun e => e.scope = "demo")).length =
      1 := by decide +kernel
  refine ⟨sampleAudit 1, sampleAudit_reachable 1, fun n => if n = 0 then 0 else 61,
    fun n m h => ?_, ?_⟩
  · show (if n = 0 then (0 : ℚ) else 61) ≤ if m = 0 then 0 else 61
    split_ifs with hn hm
    · exact le_refl _
    · decide +kernel
    · omega
    · exact le_refl _
  · refine verifyAuditChain_overdue ?_ (fun he => ?_) (show ¬ (61 : ℚ) ≤ 0 + 60 by decide +kernel)
    · rw [hsample]
      decide
    · have hl := congrArg List.length he
      rw [scopeEvents, List.length_insertionSort, hsample] at hl
      exact absurd hl (by decide)

-- a digest table for the two texts that a one-row chain hashes
def pairDigest (t : String) : Sha256 := if t = "{}" then sampleSha 1 else sampleSha 2

def pairPlatform : Platform := { samplePlatform with sha256Bytes := pairDigest }

def sampleRow (sequence : Int) : StoredEvent :=
  { sequence, eventId := "e", scope := "demo", actor := "a", eventType := "agent.heartbeat",
    taskId := none, payloadJson := "{}", createdUtc := "2026-01-01T00:00:00Z",
    payloadSha256 := (sampleSha 1).hex, prevChainSha256 := zeroSha256.hex,
    chainSha256 := (sampleSha 2).hex }

theorem pairDigest_payload : pairDigest "{}" = sampleSha 1 := if_pos rfl

theorem pairDigest_envelope (F : TextForms) (scope previous sha : String) (e : Evidence) :
    pairDigest (dumps F (envelope scope previous sha e)) = sampleSha 2 := by
  refine if_neg (fun h => ?_)
  have hc := congrArg String.toList h
  rw [dumps, String.toList_ofList, envelope_chars] at hc
  simp [JsonText.member, JsonText.quote] at hc

theorem pairPlatform_sha256Bytes :
    (pairPlatform.canonical sampleForms).sha256Bytes = pairDigest := rfl

theorem pairPlatform_stableSha256 (v : Json) :
    (pairPlatform.canonical sampleForms).stableSha256 v = pairDigest (dumps sampleForms v) := rfl

theorem sampleRow_payloadJson (sequence : Int) :
    (sampleRow sequence).evidence.payloadJson = "{}" := rfl

theorem sampleRow_payload (sequence : Int) :
    payloadSha (pairPlatform.canonical sampleForms) (sampleRow sequence).evidence =
      (sampleSha 1).hex := by
  rw [payloadSha, pairPlatform_sha256Bytes, sampleRow_payloadJson, pairDigest_payload]

theorem sampleRow_chain (sequence : Int) :
    chainSha (pairPlatform.canonical sampleForms) "demo" zeroSha256.hex
      (sampleRow sequence).evidence = (sampleSha 2).hex := by
  rw [chainSha, pairPlatform_stableSha256, pairDigest_envelope]

theorem sampleRow_scope (sequence : Int) :
    scopeEvents "demo" [sampleRow sequence] = [sampleRow sequence] := by
  simp [scopeEvents, sampleRow]

theorem sampleRow_verified (sequence : Int) :
    verifyAuditChain (pairPlatform.canonical sampleForms) "demo" (fun _ => 0)
      [sampleRow sequence] = .ok
        { valid := true, eventCount := 1, headChainSha256 := (sampleSha 2).hex, errors := [],
          errorCount := 0, errorsTruncated := false } := by
  have hcheck : freshScan.check (pairPlatform.canonical sampleForms) "demo" (sampleRow sequence) =
      { previous := (sampleSha 2).hex, eventCount := 1, errorCount := 0, errors := [] } := by
    simp only [ChainScan.check, freshScan, sampleRow_payload, sampleRow_chain]
    simp [sampleRow]
  simp only [verifyAuditChain, bind_eq_ok, require_eq_ok, pure_eq_ok]
  refine ⟨(), by simp [sampleRow, maxMcpAuditEvents, maxScopeEventRows],
    freshScan.check (pairPlatform.canonical sampleForms) "demo" (sampleRow sequence), ?_, ?_⟩
  · rw [sampleRow_scope]
    simp only [scanChain, bind_eq_ok, require_eq_ok, pure_eq_ok]
    exact ⟨(), by decide +kernel, rfl⟩
  · rw [hcheck]
    rfl

theorem sampleRow_texts (sequence : Int) :
    hashedTexts pairPlatform sampleForms "demo" [sampleRow sequence] =
      ["{}", dumps sampleForms (envelope "demo" zeroSha256.hex (sampleSha 1).hex
        (sampleRow 1).evidence)] := by
  rw [hashedTexts, sampleRow_scope, List.map_singleton, Chain.links, Chain.links,
    List.flatMap_singleton, sampleRow_payload]
  rfl

theorem audit_chain_tamper_evident_renumbered :
    (scopeEvents "demo" [sampleRow 1]).map StoredEvent.evidence =
      (scopeEvents "demo" [sampleRow 8]).map StoredEvent.evidence := by
  have hdigest : ∀ t ∈ hashedTexts pairPlatform sampleForms "demo" [sampleRow 1] ++
      hashedTexts pairPlatform sampleForms "demo" [sampleRow 8],
      (t = "{}" ∧ pairDigest t = sampleSha 1) ∨ (t = dumps sampleForms (envelope "demo"
        zeroSha256.hex (sampleSha 1).hex (sampleRow 1).evidence) ∧
          pairDigest t = sampleSha 2) := by
    intro t ht
    rw [sampleRow_texts, sampleRow_texts] at ht
    simp only [List.cons_append, List.nil_append, List.mem_cons, List.not_mem_nil, or_false] at ht
    rcases ht with rfl | rfl | rfl | rfl
    · exact .inl ⟨rfl, pairDigest_payload⟩
    · exact .inr ⟨rfl, pairDigest_envelope _ _ _ _ _⟩
    · exact .inl ⟨rfl, pairDigest_payload⟩
    · exact .inr ⟨rfl, pairDigest_envelope _ _ _ _ _⟩
  have hne : sampleSha 1 ≠ sampleSha 2 := by decide
  refine (audit_chain_tamper_evident pairPlatform sampleForms "demo").2 _ _ _ _ _ _
    (sampleRow_verified 1) (sampleRow_verified 8) rfl rfl rfl (fun t ht u hu h => ?_)
    (fun t ht h => ?_)
  · change pairDigest t = pairDigest u at h
    rcases hdigest t ht with ⟨rfl, h1⟩ | ⟨rfl, h1⟩ <;>
      rcases hdigest u hu with ⟨rfl, h2⟩ | ⟨rfl, h2⟩
    · rfl
    · exact absurd (h1.symm.trans (h.trans h2)) hne
    · exact absurd (h2.symm.trans (h.symm.trans h1)) hne
    · rfl
  · change pairDigest t = zeroSha256 at h
    rcases hdigest t ht with ⟨-, h1⟩ | ⟨-, h1⟩
    · exact absurd (h1.symm.trans h) (by decide)
    · exact absurd (h1.symm.trans h) (by decide)

end PeerBridge
