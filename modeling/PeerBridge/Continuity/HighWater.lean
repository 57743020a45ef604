import PeerBridge.AuditChain
import Mathlib.Data.String.Basic

namespace PeerBridge.Continuity
open Checked

-- what _database_snapshot records of the events of a scope, each column by its own aggregate
structure EventHighwater where
  sequence : Int
  createdUtc : Option String
  terminalChainSha256 : String
  deriving DecidableEq

def eventHighwater (scope : String) (rows : List StoredEvent) : EventHighwater :=
  let found := rows.filter (fun e => e.scope = scope)
  { sequence := (found.map StoredEvent.sequence).max?.getD 0
    createdUtc := (found.map StoredEvent.createdUtc).max?
    terminalChainSha256 := (found.map StoredEvent.chainSha256).max?.getD "" }

-- the sequence and hash of the last event, which is the head of the chain
structure NamesHead (scope : String) (rows : List StoredEvent) (r : AuditReport)
    (w : EventHighwater) : Prop where
  last : ∃ e, (scopeEvents scope rows).getLast? = some e ∧ w.sequence = e.sequence ∧
    w.terminalChainSha256 = e.chainSha256
  head : w.terminalChainSha256 = r.headChainSha256

section Maxima
variable {α β : Type} [LinearOrder β] {f : α → β} {xs ys : List α} {x : α}

theorem max?_eq_getLast?_iff (h : xs.getLast? = some x) :
    (xs.map f).max? = some (f x) ↔ ∀ y ∈ xs, f y ≤ f x := by
  rw [List.max?_eq_some_iff]
  constructor
  · rintro ⟨-, hle⟩ y hy
    exact hle _ (List.mem_map_of_mem hy)
  · intro hle
    refine ⟨List.mem_map_of_mem (List.mem_of_getLast? h), fun b hb => ?_⟩
    obtain ⟨y, hy, rfl⟩ := List.mem_map.mp hb
    exact hle y hy

theorem max?_perm (h : xs.Perm ys) : (xs.map f).max? = (ys.map f).max? := by
  cases hx : (xs.map f).max? with
  | none =>
    have hnil : xs = [] := by simpa using hx
    obtain rfl := hnil
    rw [← h.nil_eq]
    rfl
  | some b =>
    rw [List.max?_eq_some_iff] at hx
    refine (List.max?_eq_some_iff.mpr ⟨(h.map f).mem_iff.mp hx.1, fun c hc => ?_⟩).symm
    exact hx.2 c ((h.map f).mem_iff.mpr hc)

end Maxima

section Head
variable {P : Platform} {F : TextForms} {scope : String} {a : Audit} {r : AuditReport}

theorem scan_previous (rows : List StoredEvent) (k : ChainScan) :
    (rows.foldl (ChainScan.check P scope) k).previous =
      (rows.getLast?.map StoredEvent.chainSha256).getD k.previous := by
  induction rows using List.reverseRecOn with
  | nil => rfl
  | append_singleton rows row ih =>
    rw [List.foldl_append, List.getLast?_concat]
    exact ChainScan.check_previous row

theorem getLast_latest {e : StoredEvent} {rows : List StoredEvent}
    (h : (scopeEvents scope rows).getLast? = some e) :
    ∀ x ∈ scopeEvents scope rows, x.sequence ≤ e.sequence := by
  intro x hx
  obtain ⟨init, hinit⟩ := List.getLast?_eq_some_iff.mp h
  have hsorted : (scopeEvents scope rows).Pairwise (fun a b => a.sequence ≤ b.sequence) :=
    List.pairwise_insertionSort _ _
  rw [hinit] at hx hsorted
  rcases List.mem_append.mp hx with hx | hx
  · exact (List.pairwise_append.mp hsorted).2.2 x hx e (List.mem_singleton_self e)
  · exact (List.mem_singleton.mp hx) ▸ le_rfl

theorem eventHighwater_sorted (rows : List StoredEvent) :
    eventHighwater scope rows =
      { sequence := ((scopeEvents scope rows).map StoredEvent.sequence).max?.getD 0
        createdUtc := ((scopeEvents scope rows).map StoredEvent.createdUtc).max?
        terminalChainSha256 :=
          ((scopeEvents scope rows).map StoredEvent.chainSha256).max?.getD "" } := by
  have hperm : (rows.filter (fun e => e.scope = scope)).Perm (scopeEvents scope rows) :=
    (List.perm_insertionSort _ _).symm
  rw [eventHighwater, max?_perm hperm, max?_perm hperm, max?_perm hperm]

/-- The aggregate names the head exactly when no hash of the scope exceeds the last one. -/
theorem namesHead_iff {monotonic : Nat → ℚ} {rows : List StoredEvent}
    (hr : verifyAuditChain P scope monotonic rows = .ok r) :
    NamesHead scope rows r (eventHighwater scope rows) ↔
      ∃ e, (scopeEvents scope rows).getLast? = some e ∧
        ∀ x ∈ scopeEvents scope rows, x.chainSha256 ≤ e.chainSha256 := by
  obtain rfl := verifyAuditChain_ok hr
  rw [eventHighwater_sorted]
  constructor
  · rintro ⟨⟨e, hlast, -, hterminal⟩, -⟩
    refine ⟨e, hlast, (max?_eq_getLast?_iff hlast).mp ?_⟩
    have hne : (scopeEvents scope rows).map StoredEvent.chainSha256 ≠ [] := by
      intro hnil
      rw [List.map_eq_nil_iff.mp hnil] at hlast
      cases hlast
    cases hm : ((scopeEvents scope rows).map StoredEvent.chainSha256).max? with
    | none => exact absurd (List.max?_eq_none_iff.mp hm) hne
    | some t =>
      simp only [hm, Option.getD_some] at hterminal
      rw [hterminal]
  · rintro ⟨e, hlast, hmax⟩
    have hterminal := (max?_eq_getLast?_iff (f := StoredEvent.chainSha256) hlast).mpr hmax
    have hsequence := (max?_eq_getLast?_iff (f := StoredEvent.sequence) hlast).mpr
      (getLast_latest hlast)
    refine ⟨⟨e, hlast, ?_, ?_⟩, ?_⟩
    · simp only [hsequence, Option.getD_some]
    · simp only [hterminal, Option.getD_some]
    · simp only [hterminal, Option.getD_some, AuditReport.ofScan, scan_previous, hlast,
        Option.map_some]

theorem snapshot_names_head_iff {monotonic : Nat → ℚ}
    (ha : (auditLog (P.canonical F)).Reachable a)
    (hr : verifyAuditChain (P.canonical F) scope monotonic (a.stored F) = .ok r) :
    NamesHead scope (a.stored F) r (eventHighwater scope (a.stored F)) ↔
      ∃ e, (a.ofScope scope).getLast? = some e ∧
        ∀ x ∈ a.ofScope scope, x.chainSha256.hex ≤ e.chainSha256.hex := by
  rw [namesHead_iff hr, scopeEvents_stored F (chained_reachable ha).sorted]
  simp only [List.getLast?_map, List.mem_map, Option.map_eq_some_iff]
  constructor
  · rintro ⟨_, ⟨e, hlast, rfl⟩, hmax⟩
    exact ⟨e, hlast, fun x hx => hmax (x.stored F) ⟨x, hx, rfl⟩⟩
  · rintro ⟨e, hlast, hmax⟩
    refine ⟨e.stored F, ⟨e, hlast, rfl⟩, ?_⟩
    rintro _ ⟨x, hx, rfl⟩
    exact hmax x hx

end Head

theorem sampleAudit_verified (n : Nat) :
    ∃ r, verifyAuditChain (samplePlatform.canonical sampleForms) "demo" (fun _ => 0)
      ((sampleAudit n).stored sampleForms) = .ok r :=
  (written_chain_valid (chained_reachable (sampleAudit_reachable n)) "demo" (fun _ => 0)).2
    (fun _ _ => show (0 : ℚ) ≤ 0 + 60 by decide +kernel)

theorem snapshot_names_head_iff_single :
    ∃ r, verifyAuditChain (samplePlatform.canonical sampleForms) "demo" (fun _ => 0)
        ((sampleAudit 1).stored sampleForms) = .ok r ∧
      (NamesHead "demo" ((sampleAudit 1).stored sampleForms) r
          (eventHighwater "demo" ((sampleAudit 1).stored sampleForms)) ↔
        ∃ e, ((sampleAudit 1).ofScope "demo").getLast? = some e ∧
          ∀ x ∈ (sampleAudit 1).ofScope "demo", x.chainSha256.hex ≤ e.chainSha256.hex) := by
  obtain ⟨r, hr⟩ := sampleAudit_verified 1
  exact ⟨r, hr, snapshot_names_head_iff (sampleAudit_reachable 1) hr⟩

-- a digest that falls as its text grows
def shrinkingPlatform : Platform :=
  { samplePlatform with sha256Bytes := fun t => sampleSha (5000 - t.utf8ByteSize) }

def shortAgent : Bridge :=
  { agentId := "a", scope := "s", sessionId := "t", clientName := none, providerId := none,
    modelId := none, reasoningMode := none, routeClass := none, discussionCoordinator := false,
    agentId_safe := isIdentifier_a }

def growingLog : Machine Audit (EventCall × Ctx) (Except BridgeError Sha256) :=
  auditLog (shrinkingPlatform.canonical sampleForms)

def growingAudit : Audit :=
  (growingLog.play Audit.empty [({ eventType := "e" }, sampleCtx shortAgent 1),
    ({ eventType := "ee" }, sampleCtx shortAgent 2)]).1

theorem growingAudit_reachable : growingLog.Reachable growingAudit :=
  ⟨Audit.empty, _, rfl, Machine.run_play _ _ ⟨trivial, trivial, trivial⟩⟩

theorem earlier_hash_recorded :
    ∃ r, verifyAuditChain (shrinkingPlatform.canonical sampleForms) "s" (fun _ => 0)
        (growingAudit.stored sampleForms) = .ok r ∧
      ¬ NamesHead "s" (growingAudit.stored sampleForms) r
        (eventHighwater "s" (growingAudit.stored sampleForms)) := by
  obtain ⟨r, hr⟩ := (written_chain_valid (chained_reachable growingAudit_reachable) "s"
    (fun _ => 0)).2 (fun _ _ => show (0 : ℚ) ≤ 0 + 60 by decide +kernel)
  refine ⟨r, hr, fun hnamed => ?_⟩
  obtain ⟨e, hlast, hmax⟩ := (snapshot_names_head_iff growingAudit_reachable hr).mp hnamed
  have hshas : (growingAudit.ofScope "s").map EventRow.chainSha256 =
      [sampleSha 4708, sampleSha 4707] := by decide +kernel
  have hfirst : sampleSha 4708 ∈ (growingAudit.ofScope "s").map EventRow.chainSha256 := by
    rw [hshas]
    exact List.mem_cons_self
  have hfinal : some e.chainSha256 = some (sampleSha 4707) := by
    rw [← Option.map_some, ← hlast, ← List.getLast?_map, hshas]
    rfl
  obtain ⟨x, hx, hsha⟩ := List.mem_map.mp hfirst
  have hle := hmax x hx
  rw [hsha, Option.some.inj hfinal] at hle
  exact absurd hle (by decide +kernel)

end PeerBridge.Continuity
