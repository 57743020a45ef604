import PeerBridge.AuditChain
import PeerBridge.Memories.Runs
import PeerBridge.Lib.Paging

namespace PeerBridge.EventEnvelopes
open Checked Rows

inductive EnvelopeError where
  | envelope (text : String)
  deriving DecidableEq, Repr

def eventEnvelopeSchema : String := "peerbridge.local-event.v1"
def syncState : String := "disabled-alpha-5.2"

structure LocalEnvelope where
  schema : String
  eventId : String
  scope : String
  sequence : Int
  actor : String
  eventType : String
  taskId : Option String
  createdUtc : String
  payloadSha256 : String
  prevChainSha256 : String
  chainSha256 : String
  authoritativeStore : String
  syncState : String
  transport : Option String
  encryptionRequired : Bool
  collaborationChannel : String
  deriving DecidableEq

def validateEventEnvelope (leaks : LocalEnvelope → Bool) (e : LocalEnvelope) :
    Except EnvelopeError LocalEnvelope := do
  require (e.schema = eventEnvelopeSchema) (.envelope "event envelope schema is unsupported")
  require (e.authoritativeStore = "local-sqlite")
    (.envelope "event envelope authority must remain local SQLite")
  require (e.syncState = syncState ∧ e.transport = none)
    (.envelope "cloud collaboration must remain disabled in Alpha 5.2")
  require (e.encryptionRequired = true)
    (.envelope "future collaboration sync must require encryption")
  require (e.collaborationChannel = "reserved-separate-from-feedback-announcements")
    (.envelope "collaboration channel boundary is invalid")
  require (isSha256 e.payloadSha256 = true) (.envelope "payload_sha256 is invalid")
  require (isSha256 e.prevChainSha256 = true) (.envelope "prev_chain_sha256 is invalid")
  require (isSha256 e.chainSha256 = true) (.envelope "chain_sha256 is invalid")
  require (leaks e = false) (.envelope "event envelope contains credential-like data")
  pure e

def localEnvelope (row : StoredEvent) : LocalEnvelope :=
  { schema := eventEnvelopeSchema, eventId := row.eventId, scope := row.scope,
    sequence := row.sequence, actor := row.actor, eventType := row.eventType,
    taskId := row.taskId.filter (fun t => t ≠ ""), createdUtc := row.createdUtc,
    payloadSha256 := row.payloadSha256, prevChainSha256 := row.prevChainSha256,
    chainSha256 := row.chainSha256, authoritativeStore := "local-sqlite", syncState,
    transport := none, encryptionRequired := true,
    collaborationChannel := "reserved-separate-from-feedback-announcements" }

def verifyEvent (P : Platform) (previous : String) (row : StoredEvent) :
    Except EnvelopeError Unit := do
  require (payloadSha P row.evidence = row.payloadSha256)
    (.envelope "audit event payload SHA-256 does not match")
  require (row.prevChainSha256 = previous)
    (.envelope "audit event chain predecessor does not match")
  require ((P.stableSha256 (envelope row.scope row.prevChainSha256 row.payloadSha256
      row.evidence)).hex = row.chainSha256)
    (.envelope "audit event chain SHA-256 does not match")

def ofTask (taskId : Option String) (row : StoredEvent) : Bool :=
  taskId.all (fun t => row.taskId.getD "" = t)

def projectEvents (P : Platform) (leaks : LocalEnvelope → Bool) (taskId : Option String)
    (afterSequence : Int) : String → List StoredEvent → Except EnvelopeError (List LocalEnvelope)
  | _, [] => pure []
  | previous, row :: rows => do
    verifyEvent P previous row
    if ofTask taskId row && decide (afterSequence < row.sequence) then do
      let e ← validateEventEnvelope leaks (localEnvelope row)
      let rest ← projectEvents P leaks taskId afterSequence row.chainSha256 rows
      pure (e :: rest)
    else projectEvents P leaks taskId afterSequence row.chainSha256 rows

structure EnvelopeArgs where
  taskId : Option String := none
  afterSequence : Int := 0
  limit : Int := 500

def EnvelopeArgs.cursor (a : EnvelopeArgs) : Int := max 0 a.afterSequence

def EnvelopeArgs.pageSize (a : EnvelopeArgs) : Nat := (max 1 (min a.limit 2000)).toNat

def localEventEnvelopes (P : Platform) (leaks : LocalEnvelope → Bool) (scope : String)
    (a : EnvelopeArgs) (rows : List StoredEvent) : Except EnvelopeError (List LocalEnvelope) := do
  let projected ← projectEvents P leaks a.taskId a.cursor zeroSha256.hex (scopeEvents scope rows)
  pure (projected.take a.pageSize)

-- every row's hashes are what a verifier computes from the rows before it
def Sound (P : Platform) (scope : String) : String → List StoredEvent → Prop
  | _, [] => True
  | previous, row :: rows =>
    (row.payloadSha256 = payloadSha P row.evidence ∧ row.prevChainSha256 = previous ∧
      row.chainSha256 = chainSha P scope previous row.evidence) ∧
      Sound P scope row.chainSha256 rows

section Verifying
variable {P : Platform} {leaks : LocalEnvelope → Bool} {scope previous : String}
  {taskId : Option String} {after : Int} {row : StoredEvent} {rows : List StoredEvent}
  {k : ChainScan}

theorem errorCount_le (rows : List StoredEvent) (k : ChainScan) :
    k.errorCount ≤ (rows.foldl (ChainScan.check P scope) k).errorCount := by
  induction rows generalizing k with
  | nil => exact Nat.le_refl _
  | cons row rows ih =>
    have hstep := ih (k.check P scope row)
    rw [ChainScan.check_errorCount] at hstep
    rw [List.foldl_cons]
    omega

theorem toNat_decide_ne {t u : String} : (decide (t ≠ u)).toNat = 0 ↔ t = u := by
  by_cases h : t = u <;> simp [h]

/-- The scan counts no error exactly on sound rows. -/
theorem scan_clean_iff : (rows.foldl (ChainScan.check P scope) k).errorCount = k.errorCount ↔
    Sound P scope k.previous rows := by
  induction rows generalizing k with
  | nil => exact ⟨fun _ => trivial, fun _ => rfl⟩
  | cons row rows ih =>
    have hmono := @errorCount_le P scope rows (k.check P scope row)
    have hcount := @ChainScan.check_errorCount P scope k row
    have hzero : (k.check P scope row).errorCount = k.errorCount ↔
        row.payloadSha256 = payloadSha P row.evidence ∧ row.prevChainSha256 = k.previous ∧
          row.chainSha256 = chainSha P scope k.previous row.evidence := by
      rw [hcount]
      constructor
      · intro h
        exact ⟨toNat_decide_ne.mp (by omega), toNat_decide_ne.mp (by omega),
          toNat_decide_ne.mp (by omega)⟩
      · rintro ⟨hsha, hprev, hchain⟩
        simp [hsha, hprev, ← hchain]
    rw [List.foldl_cons, Sound, ← hzero]
    have hnext := @ih (k.check P scope row)
    rw [ChainScan.check_previous] at hnext
    rw [← hnext]
    omega

theorem verifyEvent_ok_iff (hscope : row.scope = scope) : verifyEvent P previous row = .ok () ↔
    row.payloadSha256 = payloadSha P row.evidence ∧ row.prevChainSha256 = previous ∧
      row.chainSha256 = chainSha P scope previous row.evidence := by
  simp only [verifyEvent, bind_eq_ok, require_eq_ok]
  constructor
  · rintro ⟨-, hsha, -, hprev, hchain⟩
    refine ⟨hsha.symm, hprev, ?_⟩
    rw [← hchain, hscope, hprev, ← hsha]
    rfl
  · rintro ⟨hsha, hprev, hchain⟩
    refine ⟨(), hsha.symm, (), hprev, ?_⟩
    rw [hchain, hscope, hprev, hsha]
    rfl

theorem validateEventEnvelope_eq {e : LocalEnvelope} (hsha : isSha256 row.payloadSha256 = true)
    (hprev : isSha256 row.prevChainSha256 = true) (hchain : isSha256 row.chainSha256 = true) :
    validateEventEnvelope leaks (localEnvelope row) = .ok e ↔
      leaks (localEnvelope row) = false ∧ e = localEnvelope row := by
  simp only [validateEventEnvelope, bind_eq_ok, require_eq_ok, pure_eq_ok]
  constructor
  · rintro ⟨-, -, -, -, -, -, -, -, -, -, -, -, -, -, -, -, -, hleaks, rfl⟩
    exact ⟨hleaks, rfl⟩
  · rintro ⟨hleaks, rfl⟩
    exact ⟨(), rfl, (), rfl, (), ⟨rfl, rfl⟩, (), rfl, (), rfl, (), hsha, (), hprev, (), hchain,
      (), hleaks, rfl⟩

/-- The projection succeeds exactly on sound rows whose selected envelopes leak nothing. -/
theorem projectEvents_ok_iff {found : List LocalEnvelope}
    (hscope : ∀ row ∈ rows, row.scope = scope) (hp : isSha256 previous = true) :
    projectEvents P leaks taskId after previous rows = .ok found ↔
      Sound P scope previous rows ∧
      (∀ row ∈ Paging.after StoredEvent.sequence (ofTask taskId) after rows,
        leaks (localEnvelope row) = false) ∧
      found = (Paging.after StoredEvent.sequence (ofTask taskId) after rows).map
        localEnvelope := by
  induction rows generalizing previous found with
  | nil =>
    simp only [projectEvents, pure_eq_ok, Paging.after, List.filter_nil, List.map_nil]
    exact ⟨fun h => ⟨trivial, fun _ hm => absurd hm List.not_mem_nil, h.symm⟩,
      fun h => h.2.2.symm⟩
  | cons row rows ih =>
    have hhead := hscope row List.mem_cons_self
    have htail : ∀ x ∈ rows, x.scope = scope := fun x hx => hscope x (List.mem_cons_of_mem _ hx)
    have hformed (h : row.payloadSha256 = payloadSha P row.evidence ∧
        row.prevChainSha256 = previous ∧
          row.chainSha256 = chainSha P scope previous row.evidence) :
        isSha256 row.payloadSha256 = true ∧ isSha256 row.prevChainSha256 = true ∧
          isSha256 row.chainSha256 = true :=
      ⟨h.1 ▸ Memories.isSha256_hex _, h.2.1 ▸ hp, h.2.2 ▸ Memories.isSha256_hex _⟩
    simp only [projectEvents, bind_eq_ok, Sound]
    cases hsel : ofTask taskId row && decide (after < row.sequence) with
    | true =>
      rw [Paging.after_cons_pos hsel, List.map_cons, List.forall_mem_cons]
      simp only [if_true, bind_eq_ok, pure_eq_ok]
      constructor
      · rintro ⟨⟨⟩, hv, e, he, rest, hrest, rfl⟩
        have hrow := (verifyEvent_ok_iff hhead).mp hv
        obtain ⟨hsha, hprev, hchain⟩ := hformed hrow
        obtain ⟨hleaks, rfl⟩ := (validateEventEnvelope_eq hsha hprev hchain).mp he
        obtain ⟨hsound, hclean, rfl⟩ := (ih htail hchain).mp hrest
        exact ⟨⟨hrow, hsound⟩, ⟨hleaks, hclean⟩, rfl⟩
      · rintro ⟨⟨hrow, hsound⟩, ⟨hleaks, hclean⟩, rfl⟩
        obtain ⟨hsha, hprev, hchain⟩ := hformed hrow
        exact ⟨(), (verifyEvent_ok_iff hhead).mpr hrow, localEnvelope row,
          (validateEventEnvelope_eq hsha hprev hchain).mpr ⟨hleaks, rfl⟩, _,
          (ih htail hchain).mpr ⟨hsound, hclean, rfl⟩, rfl⟩
    | false =>
      rw [Paging.after_cons_neg hsel]
      simp only [Bool.false_eq_true, if_false]
      constructor
      · rintro ⟨⟨⟩, hv, hrest⟩
        have hrow := (verifyEvent_ok_iff hhead).mp hv
        obtain ⟨hsound, hclean, hfound⟩ := (ih htail (hformed hrow).2.2).mp hrest
        exact ⟨⟨hrow, hsound⟩, hclean, hfound⟩
      · rintro ⟨⟨hrow, hsound⟩, hclean, hfound⟩
        exact ⟨(), (verifyEvent_ok_iff hhead).mpr hrow,
          (ih htail (hformed hrow).2.2).mpr ⟨hsound, hclean, hfound⟩⟩

theorem mem_scopeEvents (h : row ∈ scopeEvents scope rows) : row.scope = scope := by
  rw [scopeEvents, List.mem_insertionSort] at h
  simpa using (List.mem_filter.mp h).2

theorem localEventEnvelopes_ok_iff {a : EnvelopeArgs} {page : List LocalEnvelope} :
    localEventEnvelopes P leaks scope a rows = .ok page ↔
      Sound P scope zeroSha256.hex (scopeEvents scope rows) ∧
      (∀ row ∈ Paging.after StoredEvent.sequence (ofTask a.taskId) a.cursor
        (scopeEvents scope rows), leaks (localEnvelope row) = false) ∧
      page = (Paging.page StoredEvent.sequence (ofTask a.taskId) a.cursor a.pageSize
        (scopeEvents scope rows)).map localEnvelope := by
  have hscope : ∀ row ∈ scopeEvents scope rows, row.scope = scope :=
    fun _ h => mem_scopeEvents h
  simp only [localEventEnvelopes, bind_eq_ok, pure_eq_ok]
  constructor
  · rintro ⟨found, hfound, rfl⟩
    obtain ⟨hsound, hclean, rfl⟩ :=
      (projectEvents_ok_iff hscope (Memories.isSha256_hex _)).mp hfound
    exact ⟨hsound, hclean, List.map_take.symm⟩
  · rintro ⟨hsound, hclean, rfl⟩
    exact ⟨_, (projectEvents_ok_iff hscope (Memories.isSha256_hex _)).mpr ⟨hsound, hclean, rfl⟩,
      List.map_take.symm⟩

/-- The envelope reader and the audit verifier accept the same tables. -/
theorem envelopes_agree_with_audit {a : EnvelopeArgs} {monotonic : Nat → ℚ} {r : AuditReport}
    (h : verifyAuditChain P scope monotonic rows = .ok r) :
    (∃ page, localEventEnvelopes P leaks scope a rows = .ok page) ↔
      r.valid = true ∧ ∀ row ∈ scopeEvents scope rows, ofTask a.taskId row = true →
        a.cursor < row.sequence → leaks (localEnvelope row) = false := by
  obtain rfl := verifyAuditChain_ok h
  have hvalid : (AuditReport.ofScan ((scopeEvents scope rows).foldl (ChainScan.check P scope)
      freshScan)).valid = true ↔ Sound P scope zeroSha256.hex (scopeEvents scope rows) :=
    decide_eq_true_iff.trans (@scan_clean_iff P scope (scopeEvents scope rows) freshScan)
  rw [hvalid]
  constructor
  · rintro ⟨page, hpage⟩
    obtain ⟨hsound, hclean, -⟩ := localEventEnvelopes_ok_iff.mp hpage
    exact ⟨hsound, fun row hm htask hafter =>
      hclean row (Paging.mem_after.mpr ⟨hm, htask, hafter⟩)⟩
  · rintro ⟨hsound, hclean⟩
    refine ⟨_, localEventEnvelopes_ok_iff.mpr ⟨hsound, fun row hm => ?_, rfl⟩⟩
    obtain ⟨hmem, htask, hafter⟩ := Paging.mem_after.mp hm
    exact hclean row hmem htask hafter

end Verifying

theorem envelopes_agree_with_audit_sample :
    ∃ page, localEventEnvelopes (pairPlatform.canonical sampleForms) (fun _ => false) "demo" {}
      [sampleRow 1] = .ok page :=
  (envelopes_agree_with_audit (sampleRow_verified 1)).mpr ⟨rfl, fun _ _ _ _ => rfl⟩

/-- A follower that asks again after its last envelope while events are written. -/
inductive Following (P : Platform) (F : TextForms) (leaks : LocalEnvelope → Bool) (scope : String)
    (taskId : Option String) (a : Audit) (n : Int) : Audit → List LocalEnvelope → Int → Prop
  | start : Following P F leaks scope taskId a n a [] n
  | others {b b' : Audit} {got : List LocalEnvelope} {k : Int}
      {tr : List ((EventCall × Ctx) × Except BridgeError Sha256)} :
      Following P F leaks scope taskId a n b got k → (auditLog (P.canonical F)).Run b tr b' →
      Following P F leaks scope taskId a n b' got k
  | page {b : Audit} {got page : List LocalEnvelope} {k limit : Int} :
      Following P F leaks scope taskId a n b got k →
      localEventEnvelopes (P.canonical F) leaks scope { taskId, afterSequence := k, limit }
        (b.stored F) = .ok page →
      Following P F leaks scope taskId a n b (got ++ page)
        ((page.getLast?.map LocalEnvelope.sequence).getD k)

section Following
variable {P : Platform} {F : TextForms} {leaks : LocalEnvelope → Bool} {scope : String}
  {taskId : Option String} {a b : Audit} {n k limit : Int} {got page : List LocalEnvelope}

theorem auditLog_grows {tr : List ((EventCall × Ctx) × Except BridgeError Sha256)}
    (h : (auditLog P).Run a tr b) : a.events <+: b.events := by
  refine h.preserves (fun x => a.events <+: x.events) (fun x i hx _ => hx.trans ?_)
    List.prefix_rfl
  dsimp only [auditLog]
  cases he : event P i.2 i.1.eventType i.1.payload i.1.taskId x with
  | error e => exact List.prefix_rfl
  | ok r =>
    obtain ⟨row, y, -, -, hr⟩ := event_ok he
    rw [hr]
    exact List.prefix_append _ _

theorem scopeEvents_sorted (h : Chained P a) :
    Paging.Sorted StoredEvent.sequence (scopeEvents scope (a.stored F)) := by
  rw [scopeEvents_stored F h.sorted]
  refine List.pairwise_map.mpr ((h.sorted.filter _).imp ?_)
  exact Int.ofNat_lt.mpr

theorem scopeEvents_grow (ha : Chained P a) (hb : Chained P b) (h : a.events <+: b.events) :
    scopeEvents scope (a.stored F) <+: scopeEvents scope (b.stored F) := by
  rw [scopeEvents_stored F ha.sorted, scopeEvents_stored F hb.sorted]
  exact (h.filter _).map _

theorem Following.reachable (hf : Following P F leaks scope taskId a n b got k)
    (h : (auditLog (P.canonical F)).Reachable a) : (auditLog (P.canonical F)).Reachable b := by
  induction hf with
  | start => exact h
  | others _ hrun ih => exact ih.run hrun
  | page _ _ ih => exact ih

theorem localEnvelope_next (rows : List StoredEvent) :
    ((rows.map localEnvelope).getLast?.map LocalEnvelope.sequence).getD k =
      Paging.next StoredEvent.sequence k rows := by
  rw [List.getLast?_map, Option.map_map]
  rfl

theorem page_rows (hk : 0 ≤ k) (hpage : localEventEnvelopes (P.canonical F) leaks scope
      { taskId, afterSequence := k, limit } (b.stored F) = .ok page) :
    page = (Paging.page StoredEvent.sequence (ofTask taskId) k
      (EnvelopeArgs.pageSize { taskId, afterSequence := k, limit })
      (scopeEvents scope (b.stored F))).map localEnvelope := by
  have hcursor : EnvelopeArgs.cursor { taskId, afterSequence := k, limit } = k := max_eq_right hk
  have hrows := (localEventEnvelopes_ok_iff.mp hpage).2.2
  rwa [hcursor] at hrows

theorem Following.read (hf : Following P F leaks scope taskId a n b got k)
    (h : (auditLog (P.canonical F)).Reachable a) (hn : 0 ≤ n) :
    ∃ rows, got = rows.map localEnvelope ∧
      Paging.Read StoredEvent.sequence (ofTask taskId) n (scopeEvents scope (b.stored F)) rows
        k := by
  induction hf with
  | start => exact ⟨[], rfl, .start _⟩
  | others hprev hrun ih =>
    obtain ⟨rows, hgot, hread⟩ := ih
    have hb := hprev.reachable h
    exact ⟨rows, hgot, hread.grow (scopeEvents_grow (chained_reachable hb)
      (chained_reachable (hb.run hrun)) (auditLog_grows hrun))⟩
  | @page b got page k limit hprev hpage ih =>
    obtain ⟨rows, rfl, hread⟩ := ih
    have hsorted : Paging.Sorted StoredEvent.sequence (scopeEvents scope (b.stored F)) :=
      scopeEvents_sorted (chained_reachable (hprev.reachable h))
    have hrows := page_rows (hn.trans (hread.exact hsorted).1) hpage
    rw [hrows, localEnvelope_next]
    exact ⟨_, List.map_append.symm, hread.turn _⟩

/-- Following the log misses nothing, repeats nothing and never gets stuck. -/
theorem envelope_pages_exact (h : (auditLog (P.canonical F)).Reachable a) (hn : 0 ≤ n)
    (hf : Following P F leaks scope taskId a n b got k) :
    n ≤ k ∧
    got = ((scopeEvents scope (b.stored F)).filter (fun e =>
      ofTask taskId e && decide (n < e.sequence) && decide (e.sequence ≤ k))).map localEnvelope ∧
    (∀ limit page, localEventEnvelopes (P.canonical F) leaks scope
        { taskId, afterSequence := k, limit } (b.stored F) = .ok page →
      page.length < (EnvelopeArgs.pageSize { taskId, afterSequence := k, limit }) →
      got ++ page = ((scopeEvents scope (b.stored F)).filter (fun e =>
        ofTask taskId e && decide (n < e.sequence))).map localEnvelope) ∧
    ((∀ row ∈ scopeEvents scope (b.stored F), leaks (localEnvelope row) = false) →
      ∀ limit, ∃ page, localEventEnvelopes (P.canonical F) leaks scope
        { taskId, afterSequence := k, limit } (b.stored F) = .ok page) := by
  obtain ⟨rows, rfl, hread⟩ := hf.read h hn
  have hchained := chained_reachable (hf.reachable h)
  have hsorted : Paging.Sorted StoredEvent.sequence (scopeEvents scope (b.stored F)) :=
    scopeEvents_sorted hchained
  obtain ⟨hle, hgot, -⟩ := hread.exact hsorted
  refine ⟨hle, ?_, fun limit page hpage hshort => ?_, fun hclean limit => ?_⟩
  · rw [hgot, Paging.between, Paging.after, List.filter_filter]
    exact congrArg (List.map localEnvelope) (List.filter_congr (fun x _ => Bool.and_comm _ _))
  · rw [page_rows (hn.trans hle) hpage] at hshort ⊢
    rw [List.length_map] at hshort
    rw [← List.map_append, hread.caught_up hsorted hshort]
    rfl
  · have hscope : ∀ e ∈ b.ofScope scope, e.scope = scope :=
      fun e he => by simpa [Audit.ofScope] using (List.mem_filter.mp he).2
    have hsound := scan_clean_iff.mp (scan_linked (k := freshScan) F (hchained.linked scope)
      hscope rfl)
    rw [← scopeEvents_stored F hchained.sorted] at hsound
    exact ⟨_, localEventEnvelopes_ok_iff.mpr
      ⟨hsound, fun row hm => hclean row (Paging.mem_after.mp hm).1, rfl⟩⟩

end Following

theorem envelope_pages_exact_sample : ∃ got k,
    Following samplePlatform sampleForms (fun _ => false) "demo" none (sampleAudit 1) 0
      (sampleAudit 1) got k ∧
    got = ((scopeEvents "demo" ((sampleAudit 1).stored sampleForms)).filter (fun e =>
      ofTask none e && decide (0 < e.sequence) && decide (e.sequence ≤ k))).map localEnvelope := by
  have hstart : Following samplePlatform sampleForms (fun _ => false) "demo" none (sampleAudit 1) 0
      (sampleAudit 1) [] 0 := .start
  obtain ⟨page, hpage⟩ := (envelope_pages_exact (sampleAudit_reachable 1) (le_refl 0)
    hstart).2.2.2 (fun _ _ => rfl) 1
  have hf := hstart.page hpage
  exact ⟨_, _, hf, (envelope_pages_exact (sampleAudit_reachable 1) (le_refl 0) hf).2.1⟩

end PeerBridge.EventEnvelopes
