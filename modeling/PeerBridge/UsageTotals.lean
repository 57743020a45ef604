import Mathlib.Algebra.BigOperators.Group.List.Basic
import Mathlib.Algebra.Group.Pi.Basic
import Mathlib.Algebra.Group.Prod
import PeerBridge.Inference
import PeerBridge.Scenario

namespace PeerBridge
open Checked

inductive TokenField where
  | input | output | total | cachedInput | reasoning
  deriving DecidableEq, Repr

def TokenField.text : TokenField → String
  | .input => "input_tokens"
  | .output => "output_tokens"
  | .total => "total_tokens"
  | .cachedInput => "cached_input_tokens"
  | .reasoning => "reasoning_tokens"

def TokenField.all : List TokenField := [.input, .output, .total, .cachedInput, .reasoning]

def Usage.count (u : Usage) : TokenField → Option Nat
  | .input => u.inputTokens
  | .output => u.outputTokens
  | .total => u.totalTokens
  | .cachedInput => u.cachedInputTokens
  | .reasoning => u.reasoningTokens

def Usage.coverage (u : Usage) (f : TokenField) : Nat :=
  ((u.fieldReportedCalls.find? (fun c => c.1 = f.text)).map Prod.snd).getD 0

section Normalize

def Json.firstOf (v : Json) : List String → Json
  | [] => .null
  | key :: keys =>
    match v.field? key with
    | some x => x
    | none => v.firstOf keys

def Json.detailsOf (v : Json) (first second : String) : Json :=
  if (v.get first).isObject then v.get first
  else if (v.get second).isObject then v.get second else .obj []

structure RawCounts where
  inputTokens : Option Nat
  outputTokens : Option Nat
  totalTokens : Option Nat
  cachedInputTokens : Option Nat
  reasoningTokens : Option Nat

-- the second value only when the first one is absent
def orRead (first : Option Nat) (second : Except String (Option Nat)) :
    Except String (Option Nat) :=
  if first.isSome then pure first else second

def readCounts (raw : Json) : Except String RawCounts := do
  let promptDetails := raw.detailsOf "prompt_tokens_details" "input_tokens_details"
  let completionDetails := raw.detailsOf "completion_tokens_details" "output_tokens_details"
  let inputTokens ← nonnegativeInt (raw.firstOf ["input_tokens", "prompt_tokens", "inputTokens"])
  let outputTokens ←
    nonnegativeInt (raw.firstOf ["output_tokens", "completion_tokens", "outputTokens"])
  let totalTokens ← nonnegativeInt (raw.firstOf ["total_tokens", "totalTokens"])
  let creation ← nonnegativeInt (raw.get "cache_creation_input_tokens")
  let cacheRead ← nonnegativeInt (raw.get "cache_read_input_tokens")
  let breakdown := (raw.field? "cache_creation_input_tokens").isSome ||
    (raw.field? "cache_read_input_tokens").isSome
  let cached := creation.getD 0 + cacheRead.getD 0
  let direct ← if breakdown then pure (some cached) else do
    let first ← nonnegativeInt (raw.firstOf ["cached_input_tokens", "cachedInputTokens"])
    orRead first (nonnegativeInt (promptDetails.firstOf ["cached_tokens", "cache_read_tokens"]))
  let reasoning ← nonnegativeInt (raw.firstOf ["reasoning_tokens", "reasoningTokens"])
  let reasoningTokens ← orRead reasoning
    (nonnegativeInt (completionDetails.firstOf ["reasoning_tokens", "reasoningTokens"]))
  pure { inputTokens := if breakdown then inputTokens.map (· + cached) else inputTokens
         outputTokens, totalTokens, cachedInputTokens := direct, reasoningTokens }

def RawCounts.usage (r : RawCounts) (source : String) : Usage :=
  if r.inputTokens = none ∧ r.outputTokens = none ∧ r.totalTokens = none then
    unavailableUsage source
  else
    let derived : Option Nat :=
      if r.totalTokens = none then
        match r.inputTokens, r.outputTokens with
        | some input, some output => some (input + output)
        | _, _ => none
      else none
    let totalTokens := if derived.isSome then derived else r.totalTokens
    let covered (o : Option Nat) : Nat := o.isSome.toNat
    { status := "reported"
      source
      inputTokens := r.inputTokens
      outputTokens := r.outputTokens
      totalTokens
      cachedInputTokens := r.cachedInputTokens
      reasoningTokens := r.reasoningTokens
      fieldReportedCalls :=
        [("input_tokens", covered r.inputTokens), ("output_tokens", covered r.outputTokens),
          ("total_tokens", covered totalTokens),
          ("cached_input_tokens", covered r.cachedInputTokens),
          ("reasoning_tokens", covered r.reasoningTokens)]
      reportedCalls := 1
      totalCalls := 1
      totalTokensDerived := derived.isSome }

def normalizeProviderUsage (raw : Json) (source : String) : Usage :=
  if raw.isObject then
    match readCounts raw with
    | .ok counts => counts.usage source
    | .error _ => unavailableUsage (source ++ ":invalid")
  else unavailableUsage source

end Normalize

section Aggregate
variable (F : TextForms) (P : Platform)

def summedCount (us : List Usage) (f : TokenField) : Option Nat :=
  if (us.map (·.coverage f)).sum ≠ 0 then some ((us.filterMap (·.count f)).sum) else none

def aggregated (us : List Usage) (source : String) : Usage :=
  let totalCalls := (us.map (·.totalCalls)).sum
  let reportedCalls := (us.map (·.reportedCalls)).sum
  let bearing := us.filter (·.totalTokens.isSome)
  if reportedCalls = 0 then { unavailableUsage source with totalCalls }
  else
    { status := if reportedCalls = totalCalls then "reported" else "partial"
      source
      inputTokens := summedCount us .input
      outputTokens := summedCount us .output
      totalTokens := summedCount us .total
      cachedInputTokens := summedCount us .cachedInput
      reasoningTokens := summedCount us .reasoning
      fieldReportedCalls := TokenField.all.map (fun f => (f.text, (us.map (·.coverage f)).sum))
      reportedCalls
      totalCalls
      totalTokensDerived := !bearing.isEmpty && bearing.all (·.totalTokensDerived) }

def aggregateUsage (records : List Json) (source : String) : Except String Usage :=
  if records.isEmpty then pure (unavailableUsage source)
  else do
    let normalized ← records.mapM (validateUsage F P)
    pure (aggregated normalized source)

-- the aggregates of the parts, aggregated in turn
def aggregateParts (parts : List (List Json)) (source : String) : Except String Usage := do
  let partials ← parts.mapM (fun part => aggregateUsage F P part source)
  aggregateUsage F P (partials.map Usage.json) source

end Aggregate

section Validity

def SourceOk (P : Platform) (source : String) : Prop :=
  strip source ≠ "" ∧ (strip source).length ≤ 160 ∧ isUsageSourceText (strip source) = true ∧
    P.containsSecret (strip source) = false

/-- What every validated usage record is, its source apart. -/
structure Usage.Sound (u : Usage) : Prop where
  status : u.status = "reported" ∨ u.status = "partial" ∨ u.status = "unavailable"
  fields : u.fieldReportedCalls = TokenField.all.map (fun f => (f.text, u.coverage f))
  agrees : ∀ f, u.count f = none ↔ u.coverage f = 0
  covered : ∀ f, u.coverage f ≤ u.reportedCalls
  calls : u.reportedCalls ≤ u.totalCalls
  one : 1 ≤ u.totalCalls
  unavailable : u.status = "unavailable" → u.reportedCalls = 0
  evidence : u.status ≠ "unavailable" →
    1 ≤ u.reportedCalls ∧ ∃ f, f ∈ [TokenField.input, .output, .total] ∧ u.count f ≠ none
  reported : u.status = "reported" → u.reportedCalls = u.totalCalls
  incomplete : u.status = "partial" → 0 < u.reportedCalls ∧ u.reportedCalls < u.totalCalls
  derived : u.totalTokensDerived = true →
    ∃ i o, u.count .input = some i ∧ u.count .output = some o ∧ u.count .total = some (i + o)

variable {F : TextForms} {P : Platform} {v : Json} {u : Usage}

theorem nonnegativeInt_count (o : Option Nat) : nonnegativeInt (.count o) = .ok o := by
  cases o with
  | none => rfl
  | some n => simp [Json.count, nonnegativeInt]

theorem nonnegativeInt_nat (n : Nat) : nonnegativeInt (.int n) = .ok (some n) := by
  simp [nonnegativeInt]

/-- Coverage lists of validated records name the token fields in order. -/
theorem usageCoverage_fields {c : Json} {n : Nat} {counts : List (String × Option Nat)}
    {fs : List (String × Nat)} (hcounts : counts.map Prod.fst = tokenFields)
    (h : usageCoverage c n counts = .ok fs) :
    fs.map Prod.fst = tokenFields ∧ ∀ f ∈ fs, f.2 ≤ n := by
  unfold usageCoverage at h
  by_cases hc : c.isNull = true
  · rw [if_pos hc, pure_eq_ok] at h
    subst h
    refine ⟨by rw [List.map_map]; exact hcounts, fun f hf => ?_⟩
    obtain ⟨g, -, rfl⟩ := List.mem_map.mp hf
    dsimp only
    split <;> omega
  · rw [if_neg hc] at h
    cases c with
    | obj fields =>
      simp only [bind_eq_ok, require_eq_ok] at h
      obtain ⟨-, -, h⟩ := h
      have hall := mapM_eq_ok.mp h
      have hone : ∀ t f, fieldCoverage (.obj fields) n t = .ok f → f.1 = t ∧ f.2 ≤ n := by
        intro t f hf
        simp only [fieldCoverage, bind_eq_ok, demand_eq_ok, pure_eq_ok, Option.filter_eq_some_iff,
          decide_eq_true_eq] at hf
        obtain ⟨o, -, k, ⟨-, hk⟩, rfl⟩ := hf
        exact ⟨rfl, hk⟩
      clear h
      generalize tokenFields = names at hall
      induction hall with
      | nil => exact ⟨rfl, by simp⟩
      | cons hf _ ih =>
        refine ⟨by rw [List.map_cons, (hone _ _ hf).1, ih.1], fun g hg => ?_⟩
        rcases List.mem_cons.mp hg with rfl | hg
        · exact (hone _ _ hf).2
        · exact ih.2 g hg
    | _ => simp at h

-- five members in the order of the token fields
theorem coverage_of_names {fs : List (String × Nat)} (h : fs.map Prod.fst = tokenFields)
    (hu : u.fieldReportedCalls = fs) :
    u.fieldReportedCalls = TokenField.all.map (fun f => (f.text, u.coverage f)) := by
  match fs, h with
  | [(a, i), (b, j), (c, k), (d, l), (e, m)], h =>
    simp only [tokenFields, List.map_cons, List.map_nil, List.cons.injEq] at h
    obtain ⟨rfl, rfl, rfl, rfl, rfl, -⟩ := h
    simp [TokenField.all, TokenField.text, Usage.coverage, hu]

theorem none_of {o : Option Nat} {n : Nat} (h : o.isNone = decide (n = 0)) :
    o = none ↔ n = 0 := by
  rw [← Option.isNone_iff_eq_none, h, decide_eq_true_eq]

theorem counts_agree (hf : u.fieldReportedCalls = TokenField.all.map (fun f => (f.text, u.coverage f)))
    (h : u.counts.map (fun f => f.2.isNone) =
      u.fieldReportedCalls.map (fun f => decide (f.2 = 0))) (f : TokenField) :
    u.count f = none ↔ u.coverage f = 0 := by
  rw [hf] at h
  simp only [Usage.counts, TokenField.all, List.map_cons, List.map_nil, List.cons.injEq] at h
  obtain ⟨h1, h2, h3, h4, h5, -⟩ := h
  cases f with
  | input => exact none_of h1
  | output => exact none_of h2
  | total => exact none_of h3
  | cachedInput => exact none_of h4
  | reasoning => exact none_of h5

theorem requireUsage_ok {d : Bool}
    (h : requireUsage { u with totalTokensDerived := d } = .ok ()) :
    u.counts.map (fun f => f.2.isNone) =
      u.fieldReportedCalls.map (fun f => decide (f.2 = 0)) ∧
    (u.status = "unavailable" → u.reportedCalls = 0) ∧
    (u.status ≠ "unavailable" → 1 ≤ u.reportedCalls ∧
      ∃ f, f ∈ [TokenField.input, .output, .total] ∧ u.count f ≠ none) ∧
    (u.status = "reported" → u.reportedCalls = u.totalCalls) ∧
    (u.status = "partial" → 0 < u.reportedCalls ∧ u.reportedCalls < u.totalCalls) := by
  simp only [requireUsage, bind_eq_ok, require_eq_ok] at h
  obtain ⟨_, hagree, _, hevidence, _, hreported, hpartial⟩ := h
  refine ⟨hagree, fun hs => ?_, fun hs => ?_, hreported, hpartial⟩
  · simp only [requireUsageEvidence, if_pos hs, require_eq_ok] at hevidence
    exact hevidence.1
  · simp only [requireUsageEvidence, if_neg hs, require_eq_ok, Bool.or_eq_true,
      Option.isSome_iff_ne_none] at hevidence
    refine ⟨hevidence.1, ?_⟩
    rcases hevidence.2 with (hi | ho) | ht
    · exact ⟨.input, by simp, hi⟩
    · exact ⟨.output, by simp, ho⟩
    · exact ⟨.total, by simp, ht⟩

theorem requireDerivedTotal_ok (h : requireDerivedTotal u = .ok ()) :
    u.totalTokensDerived = true →
      ∃ i o, u.count .input = some i ∧ u.count .output = some o ∧ u.count .total = some (i + o) := by
  intro hd
  rw [requireDerivedTotal, if_pos hd] at h
  split at h
  · rename_i i o t hi ho ht
    rw [require_eq_ok] at h
    exact ⟨i, o, hi, ho, by rw [← h]; exact ht⟩
  · simp at h

theorem validateUsage_sound (h : validateUsage F P v = .ok u) :
    u.Sound ∧ strip u.source = u.source ∧ SourceOk P u.source := by
  simp only [validateUsage, bind_eq_ok, require_eq_ok, demand_eq_ok, pure_eq_ok,
    Option.filter_eq_some_iff, decide_eq_true_eq] at h
  obtain ⟨_, _, _, hstatus, _, hsource, i, _, o, _, t, _, ch, _, rs, _, rep, _, tot, _, r, hr, n,
    ⟨hn, hone⟩, _, hle, cov, hcov, _, hreq, d, _, _, hder, hu⟩ := h
  obtain ⟨hnames, hmost⟩ := usageCoverage_fields rfl hcov
  have hfields := coverage_of_names (u := u) hnames (by rw [← hu])
  obtain ⟨hagree, hnone, hevidence, hreported, hpartial⟩ :=
    requireUsage_ok (u := u) (d := false) (by rw [← hu]; exact hreq)
  have hderived := requireDerivedTotal_ok (u := u) (by rw [← hu]; exact hder)
  have hcalls : u.reportedCalls = r ∧ u.totalCalls = n := by rw [← hu]; exact ⟨rfl, rfl⟩
  have hstat : u.status ∈ ["reported", "partial", "unavailable"] := by rw [← hu]; exact hstatus
  have hsrc : u.source = strip ((v.get "source").orText F) := by rw [← hu]
  have hcovered : ∀ f, u.coverage f ≤ u.reportedCalls := by
    intro f
    rw [hcalls.1]
    have hmem : (f.text, u.coverage f) ∈ u.fieldReportedCalls := by
      rw [hfields]
      exact List.mem_map.mpr ⟨f, by cases f <;> simp [TokenField.all], rfl⟩
    have hmem' : (f.text, u.coverage f) ∈ cov := by rw [← hu] at hmem ⊢; exact hmem
    exact hmost _ hmem'
  have hstrip := strip_strip ((v.get "source").orText F)
  refine ⟨?_, by rw [hsrc, hstrip], by rw [hsrc, SourceOk, hstrip]; exact hsource⟩
  exact
    { status := by simpa using hstat
      fields := hfields
      agrees := counts_agree hfields hagree
      covered := hcovered
      calls := by rw [hcalls.1, hcalls.2]; exact hle
      one := by rw [hcalls.2]; exact hone
      unavailable := hnone
      evidence := hevidence
      reported := hreported
      incomplete := hpartial
      derived := hderived }

theorem fieldCoverage_json {n : Nat} (hu : u.Sound) (hn : u.reportedCalls = n) (f : TokenField) :
    fieldCoverage (.obj (u.fieldReportedCalls.map (fun c => (c.1, Json.int c.2)))) n f.text =
      .ok (f.text, u.coverage f) := by
  have hget : Json.get (.obj (u.fieldReportedCalls.map (fun c => (c.1, Json.int c.2)))) f.text =
      .int (u.coverage f) := by
    rw [hu.fields]
    cases f <;> simp [Json.get, Json.field?, TokenField.all, TokenField.text]
  simp only [fieldCoverage, hget, nonnegativeInt_nat, bind_eq_ok, demand_eq_ok, pure_eq_ok]
  exact ⟨_, rfl, u.coverage f, by simpa [← hn] using hu.covered f, rfl⟩

theorem usageCoverage_json (hu : u.Sound) (counts : List (String × Option Nat)) :
    usageCoverage (.obj (u.fieldReportedCalls.map (fun c => (c.1, Json.int c.2))))
      u.reportedCalls counts = .ok u.fieldReportedCalls := by
  rw [usageCoverage, if_neg (by simp [Json.isNull])]
  simp only [bind_eq_ok, require_eq_ok]
  refine ⟨(), ?_, ?_⟩
  · rw [hu.fields]
    simp [TokenField.all, TokenField.text, tokenFields]
  · rw [mapM_eq_ok, hu.fields]
    have hcover := fieldCoverage_json hu rfl
    rw [hu.fields] at hcover
    exact .cons (hcover .input) (.cons (hcover .output) (.cons (hcover .total)
      (.cons (hcover .cachedInput) (.cons (hcover .reasoning) .nil))))

theorem Usage.Sound.requireUsage (hu : u.Sound) {d : Bool} {t : String} :
    requireUsage { u with source := t, totalTokensDerived := d } = .ok () := by
  have hagree : u.counts.map (fun f => f.2.isNone) =
      u.fieldReportedCalls.map (fun f => decide (f.2 = 0)) := by
    have hone (f : TokenField) : (u.count f).isNone = decide (u.coverage f = 0) := by
      rw [Bool.eq_iff_iff, Option.isNone_iff_eq_none, decide_eq_true_eq]
      exact hu.agrees f
    rw [hu.fields]
    exact congr (congrArg List.cons (hone .input)) (congr (congrArg List.cons (hone .output))
      (congr (congrArg List.cons (hone .total)) (congr (congrArg List.cons (hone .cachedInput))
        (congr (congrArg List.cons (hone .reasoning)) rfl))))
  have hevidence : requireUsageEvidence { u with source := t, totalTokensDerived := d } = .ok () := by
    by_cases hs : u.status = "unavailable"
    · have hzero := hu.unavailable hs
      have hcover (f : TokenField) : u.coverage f = 0 := by
        have := hu.covered f
        omega
      have hnone (f : TokenField) : u.count f = none := (hu.agrees f).mpr (hcover f)
      simp only [requireUsageEvidence, if_pos hs, require_eq_ok]
      refine ⟨hzero, ?_, ?_⟩
      · have h1 := hnone .input
        have h2 := hnone .output
        have h3 := hnone .total
        have h4 := hnone .cachedInput
        have h5 := hnone .reasoning
        simp only [Usage.count] at h1 h2 h3 h4 h5
        simp [Usage.counts, h1, h2, h3, h4, h5]
      · rw [hu.fields]
        simp [hcover]
    · obtain ⟨hone, f, hf, hne⟩ := hu.evidence hs
      simp only [requireUsageEvidence, if_neg hs, require_eq_ok, Bool.or_eq_true,
        Option.isSome_iff_ne_none]
      refine ⟨hone, ?_⟩
      simp only [List.mem_cons, List.not_mem_nil, or_false] at hf
      rcases hf with rfl | rfl | rfl
      · exact .inl (.inl hne)
      · exact .inl (.inr hne)
      · exact .inr hne
  simp only [PeerBridge.requireUsage, bind_eq_ok, require_eq_ok]
  exact ⟨(), hagree, (), hevidence, (), hu.reported, hu.incomplete⟩

theorem Usage.Sound.requireDerivedTotal (hu : u.Sound) {t : String} :
    requireDerivedTotal { u with source := t } = .ok () := by
  unfold PeerBridge.requireDerivedTotal
  by_cases hd : u.totalTokensDerived = true
  · obtain ⟨i, o, hi, ho, ht⟩ := hu.derived hd
    simp only [Usage.count] at hi ho ht
    simp [hd, hi, ho, ht, require]
  · simp [hd, pure, Except.pure]

/-- A sound record with a valid source is accepted, its source stripped. -/
theorem validateUsage_json (hu : u.Sound) (hs : SourceOk P u.source) :
    validateUsage F P u.json = .ok { u with source := strip u.source } := by
  have hcount : u.json.get "input_tokens" = .count u.inputTokens ∧
      u.json.get "output_tokens" = .count u.outputTokens ∧
      u.json.get "total_tokens" = .count u.totalTokens ∧
      u.json.get "cached_input_tokens" = .count u.cachedInputTokens ∧
      u.json.get "reasoning_tokens" = .count u.reasoningTokens := ⟨rfl, rfl, rfl, rfl, rfl⟩
  have hcalls : u.json.get "reported_calls" = .int u.reportedCalls ∧
      u.json.get "total_calls" = .int u.totalCalls ∧
      u.json.get "field_reported_calls" =
        .obj (u.fieldReportedCalls.map (fun c => (c.1, Json.int c.2))) := ⟨rfl, rfl, rfl⟩
  have hsource : (u.json.get "source").orText F = u.source := rfl
  have hstatus : (u.json.get "status").orText F = u.status := rfl
  have hderived : totalTokensDerived u.json = .ok u.totalTokensDerived := rfl
  simp only [validateUsage, hcount, hcalls, hsource, hstatus, hderived, nonnegativeInt_count,
    nonnegativeInt_nat, bind_eq_ok, require_eq_ok, demand_eq_ok, pure_eq_ok]
  refine ⟨(), rfl, (), ?_, (), hs, _, rfl, _, rfl, _, rfl, _, rfl, _, rfl, _, rfl, _, rfl, _, rfl,
    u.totalCalls, by simpa using hu.one, (), hu.calls, _, usageCoverage_json hu _, (),
    hu.requireUsage, _, rfl, (), hu.requireDerivedTotal, rfl⟩
  rcases hu.status with h | h | h <;> simp [h]

end Validity

section Totals

/-- Token sums, coverage and call counts; these add up. -/
abbrev Totals := (TokenField → Nat) × (TokenField → Nat) × Nat × Nat

def Usage.totals (u : Usage) : Totals :=
  (fun f => (u.count f).getD 0, u.coverage, u.reportedCalls, u.totalCalls)

def totalsOf (us : List Usage) : Totals := (us.map Usage.totals).sum

variable {us vs : List Usage} {source : String}

theorem totalsOf_cons (u : Usage) (us : List Usage) :
    totalsOf (u :: us) = u.totals + totalsOf us := by
  rw [totalsOf, List.map_cons, List.sum_cons, totalsOf]

theorem totalsOf_append : totalsOf (us ++ vs) = totalsOf us + totalsOf vs := by
  rw [totalsOf, List.map_append, List.sum_append, totalsOf, totalsOf]

theorem totalsOf_perm (h : us.Perm vs) : totalsOf us = totalsOf vs :=
  (h.map Usage.totals).sum_eq

theorem totalsOf_eq (us : List Usage) : totalsOf us =
    (fun f => ((us.filterMap (·.count f)).sum), fun f => (us.map (·.coverage f)).sum,
      (us.map (·.reportedCalls)).sum, (us.map (·.totalCalls)).sum) := by
  induction us with
  | nil => rfl
  | cons u us ih =>
    rw [totalsOf_cons, ih]
    refine Prod.ext ?_ rfl
    funext f
    cases hc : u.count f <;> simp [Usage.totals, hc]

-- every total is one a provider did not report
def allDerived (us : List Usage) : Bool :=
  !(us.filter (·.totalTokens.isSome)).isEmpty &&
    (us.filter (·.totalTokens.isSome)).all (·.totalTokensDerived)

theorem allDerived_iff : allDerived us = true ↔
    (∃ u ∈ us, u.totalTokens.isSome = true) ∧
      ∀ u ∈ us, u.totalTokens.isSome = true → u.totalTokensDerived = true := by
  rw [allDerived, Bool.and_eq_true, List.all_eq_true, Bool.not_eq_true', List.isEmpty_eq_false_iff]
  simp only [ne_eq, List.filter_eq_nil_iff, List.mem_filter, and_imp, not_forall, not_not,
    exists_prop]

-- an aggregate is a function of the totals and of that flag
def Totals.usage (t : Totals) (derived : Bool) (source : String) : Usage :=
  if t.2.2.1 = 0 then { unavailableUsage source with totalCalls := t.2.2.2 }
  else
    let count (f : TokenField) : Option Nat := if t.2.1 f ≠ 0 then some (t.1 f) else none
    { status := if t.2.2.1 = t.2.2.2 then "reported" else "partial"
      source
      inputTokens := count .input
      outputTokens := count .output
      totalTokens := count .total
      cachedInputTokens := count .cachedInput
      reasoningTokens := count .reasoning
      fieldReportedCalls := TokenField.all.map (fun f => (f.text, t.2.1 f))
      reportedCalls := t.2.2.1
      totalCalls := t.2.2.2
      totalTokensDerived := derived }

theorem aggregated_eq (us : List Usage) (source : String) :
    aggregated us source = (totalsOf us).usage (allDerived us) source := by
  rw [totalsOf_eq]
  rfl

/-- What the totals of sound records satisfy. -/
structure Totals.Regular (t : Totals) : Prop where
  uncovered : ∀ f, t.2.1 f = 0 → t.1 f = 0
  covered : ∀ f, t.2.1 f ≤ t.2.2.1
  calls : t.2.2.1 ≤ t.2.2.2
  evidence : 1 ≤ t.2.2.1 → ∃ f, f ∈ [TokenField.input, .output, .total] ∧ t.2.1 f ≠ 0

theorem Usage.Sound.regular {u : Usage} (h : u.Sound) : u.totals.Regular where
  uncovered f hf := by
    have hc := (h.agrees f).mpr hf
    simp [Usage.totals, hc]
  covered := h.covered
  calls := h.calls
  evidence hr := by
    have hs : u.status ≠ "unavailable" := fun he => by
      have := h.unavailable he
      simp only [Usage.totals] at hr
      omega
    obtain ⟨-, f, hf, hne⟩ := h.evidence hs
    exact ⟨f, hf, fun he => hne ((h.agrees f).mpr he)⟩

theorem Totals.Regular.add {t s : Totals} (ht : t.Regular) (hs : s.Regular) :
    (t + s : Totals).Regular where
  uncovered f hf := by
    obtain ⟨h1, h2⟩ := Nat.add_eq_zero_iff.mp hf
    exact Nat.add_eq_zero_iff.mpr ⟨ht.uncovered f h1, hs.uncovered f h2⟩
  covered f := Nat.add_le_add (ht.covered f) (hs.covered f)
  calls := Nat.add_le_add ht.calls hs.calls
  evidence hr := by
    have hr' : 1 ≤ t.2.2.1 + s.2.2.1 := hr
    by_cases h : 1 ≤ t.2.2.1
    · obtain ⟨f, hf, hne⟩ := ht.evidence h
      exact ⟨f, hf, fun he => hne (Nat.add_eq_zero_iff.mp he).1⟩
    · obtain ⟨f, hf, hne⟩ := hs.evidence (by omega)
      exact ⟨f, hf, fun he => hne (Nat.add_eq_zero_iff.mp he).2⟩

theorem totalsOf_regular (h : ∀ u ∈ us, u.Sound) : (totalsOf us).Regular := by
  induction us with
  | nil =>
    exact
      { uncovered := fun _ _ => rfl
        covered := fun _ => Nat.le_refl _
        calls := Nat.le_refl _
        evidence := fun hr => absurd hr (by decide) }
  | cons u us ih =>
    rw [totalsOf_cons]
    exact (h u List.mem_cons_self).regular.add (ih fun w hw => h w (List.mem_cons_of_mem _ hw))

theorem totalsOf_calls (h : ∀ u ∈ us, u.Sound) (hne : us ≠ []) : 1 ≤ (totalsOf us).2.2.2 := by
  cases us with
  | nil => exact absurd rfl hne
  | cons u us =>
    rw [totalsOf_cons]
    exact (h u List.mem_cons_self).one.trans (Nat.le_add_right _ _)

theorem Totals.usage_coverage (t : Totals) (ht : t.Regular) (d : Bool) (source : String)
    (f : TokenField) : (t.usage d source).coverage f = t.2.1 f := by
  unfold Totals.usage
  by_cases hr : t.2.2.1 = 0
  · rw [if_pos hr]
    have hf : t.2.1 f = 0 := by
      have := ht.covered f
      omega
    rw [hf]
    cases f <;> rfl
  · rw [if_neg hr]
    cases f <;> simp [Usage.coverage, TokenField.all, TokenField.text]

theorem Totals.usage_count (t : Totals) (ht : t.Regular) (d : Bool) (source : String)
    (f : TokenField) :
    (t.usage d source).count f = if t.2.1 f ≠ 0 then some (t.1 f) else none := by
  unfold Totals.usage
  by_cases hr : t.2.2.1 = 0
  · rw [if_pos hr]
    have hf : t.2.1 f = 0 := by
      have := ht.covered f
      omega
    rw [hf]
    cases f <;> rfl
  · rw [if_neg hr]
    cases f <;> rfl

theorem Totals.usage_calls (t : Totals) (d : Bool) (source : String) :
    (t.usage d source).reportedCalls = t.2.2.1 ∧ (t.usage d source).totalCalls = t.2.2.2 := by
  unfold Totals.usage
  by_cases hr : t.2.2.1 = 0
  · rw [if_pos hr]
    exact ⟨hr.symm, rfl⟩
  · rw [if_neg hr]
    exact ⟨rfl, rfl⟩

/-- An aggregate has the totals it was made from. -/
theorem Totals.usage_totals (t : Totals) (ht : t.Regular) (d : Bool) (source : String) :
    (t.usage d source).totals = t := by
  have hcalls := t.usage_calls d source
  refine Prod.ext (funext fun f => ?_) (Prod.ext (funext fun f => ?_) (Prod.ext hcalls.1 hcalls.2))
  · change ((t.usage d source).count f).getD 0 = t.1 f
    rw [t.usage_count ht]
    by_cases hf : t.2.1 f = 0
    · simp [hf, ht.uncovered f hf]
    · simp [hf]
  · exact t.usage_coverage ht d source f

-- a derived total is the sum of the tokens
def Totals.Exact (t : Totals) : Prop := t.1 .total = t.1 .input + t.1 .output

theorem Totals.usage_status (t : Totals) (d : Bool) (source : String) (hr : t.2.2.1 ≠ 0) :
    (t.usage d source).status = if t.2.2.1 = t.2.2.2 then "reported" else "partial" := by
  rw [Totals.usage, if_neg hr]

theorem Totals.usage_unreported (t : Totals) (d : Bool) (source : String) (hr : t.2.2.1 = 0) :
    t.usage d source = { unavailableUsage source with totalCalls := t.2.2.2 } := by
  rw [Totals.usage, if_pos hr]

theorem Totals.usage_fields (t : Totals) (ht : t.Regular) (d : Bool) (source : String) :
    (t.usage d source).fieldReportedCalls = TokenField.all.map (fun f => (f.text, t.2.1 f)) := by
  by_cases hr : t.2.2.1 = 0
  · have hzero (f : TokenField) : t.2.1 f = 0 := by
      have := ht.covered f
      omega
    rw [t.usage_unreported d source hr]
    simp [hzero, unavailableUsage, tokenFields, TokenField.all, TokenField.text]
  · rw [Totals.usage, if_neg hr]

theorem Totals.usage_sound (t : Totals) (ht : t.Regular) (hone : 1 ≤ t.2.2.2) (d : Bool)
    (source : String) (hd : d = true → t.Exact ∧ ∀ f ∈ [TokenField.input, .output, .total],
      t.2.1 f ≠ 0) : (t.usage d source).Sound := by
  obtain ⟨hreported, htotal⟩ := t.usage_calls d source
  have hcount := t.usage_count ht d source
  have hcover := t.usage_coverage ht d source
  have hle := ht.calls
  have hstatus : t.2.2.1 ≠ 0 → (t.usage d source).status =
      if t.2.2.1 = t.2.2.2 then "reported" else "partial" := t.usage_status d source
  have hunavailable : t.2.2.1 = 0 → (t.usage d source).status = "unavailable" := fun hr => by
    rw [t.usage_unreported d source hr]
    rfl
  refine
    { status := ?_
      fields := ?_
      agrees := fun f => ?_
      covered := fun f => by rw [hcover, hreported]; exact ht.covered f
      calls := by rw [hreported, htotal]; exact hle
      one := by rw [htotal]; exact hone
      unavailable := fun hs => ?_
      evidence := fun hs => ?_
      reported := fun hs => ?_
      incomplete := fun hs => ?_
      derived := fun hs => ?_ }
  · by_cases hr : t.2.2.1 = 0
    · exact .inr (.inr (hunavailable hr))
    · rw [hstatus hr]
      split
      · exact .inl rfl
      · exact .inr (.inl rfl)
  · rw [t.usage_fields ht]
    simp only [hcover]
  · rw [hcount, hcover]
    by_cases hf : t.2.1 f = 0 <;> simp [hf]
  · by_contra hr
    rw [hreported] at hr
    rw [hstatus hr] at hs
    split at hs <;> exact absurd hs (by decide)
  · have hr : t.2.2.1 ≠ 0 := fun hr => hs (hunavailable hr)
    obtain ⟨f, hf, hne⟩ := ht.evidence (by omega)
    refine ⟨by rw [hreported]; omega, f, hf, ?_⟩
    rw [hcount, if_pos hne]
    simp
  · rw [hreported, htotal]
    by_cases hr : t.2.2.1 = 0
    · rw [hunavailable hr] at hs
      exact absurd hs (by decide)
    · rw [hstatus hr] at hs
      split at hs
      · assumption
      · exact absurd hs (by decide)
  · rw [hreported, htotal]
    by_cases hr : t.2.2.1 = 0
    · rw [hunavailable hr] at hs
      exact absurd hs (by decide)
    · rw [hstatus hr] at hs
      split at hs
      · exact absurd hs (by decide)
      · omega
  · have hdt : d = true := by
      by_cases hr : t.2.2.1 = 0
      · rw [t.usage_unreported d source hr] at hs
        simp [unavailableUsage] at hs
      · rwa [Totals.usage, if_neg hr] at hs
    obtain ⟨hexact, hne⟩ := hd hdt
    refine ⟨t.1 .input, t.1 .output, ?_, ?_, ?_⟩
    · rw [hcount, if_pos (hne .input (by simp))]
    · rw [hcount, if_pos (hne .output (by simp))]
    · rw [hcount, if_pos (hne .total (by simp)), hexact]

end Totals

section Closure

-- the tokens a record without a total adds to the others
def Usage.untotalled (u : Usage) : Nat :=
  if u.totalTokens = none then u.inputTokens.getD 0 + u.outputTokens.getD 0 else 0

/-- Every total is derived, and a record without one has tokens. -/
def Mixed (us : List Usage) : Prop := allDerived us = true ∧ ∃ u ∈ us, 0 < u.untotalled

/-- `u` has the sums over the list, and no count where the list has none. -/
structure ExactSums (us : List Usage) (u : Usage) : Prop where
  tokens : ∀ f, (u.count f).getD 0 = (us.filterMap (·.count f)).sum
  absent : ∀ f, u.count f = none ↔ ∀ w ∈ us, w.count f = none
  coverage : ∀ f, u.coverage f = (us.map (·.coverage f)).sum
  reported : u.reportedCalls = (us.map (·.reportedCalls)).sum
  total : u.totalCalls = (us.map (·.totalCalls)).sum

variable {F : TextForms} {P : Platform} {us : List Usage} {u w : Usage} {source : String}

theorem tokens_untotalled (h : ∀ u ∈ us, u.Sound)
    (hd : ∀ u ∈ us, u.totalTokens.isSome = true → u.totalTokensDerived = true) :
    (totalsOf us).1 .input + (totalsOf us).1 .output =
      (totalsOf us).1 .total + (us.map Usage.untotalled).sum := by
  induction us with
  | nil => rfl
  | cons u us ih =>
    have hone : u.totals.1 .input + u.totals.1 .output = u.totals.1 .total + u.untotalled := by
      cases ht : u.totalTokens with
      | none => simp [Usage.totals, Usage.count, Usage.untotalled, ht]
      | some t =>
        obtain ⟨i, o, hi, ho, htot⟩ := (h u List.mem_cons_self).derived
          (hd u List.mem_cons_self (by rw [ht]; rfl))
        simp [Usage.totals, hi, ho, htot, Usage.untotalled, ht]
    have hrest := ih (fun w hw => h w (List.mem_cons_of_mem _ hw))
      (fun w hw => hd w (List.mem_cons_of_mem _ hw))
    have hadd (f : TokenField) : (totalsOf (u :: us)).1 f = u.totals.1 f + (totalsOf us).1 f := by
      rw [totalsOf_cons]
      rfl
    rw [hadd, hadd, hadd, List.map_cons, List.sum_cons]
    omega

theorem exact_iff (h : ∀ u ∈ us, u.Sound) (hd : allDerived us = true) :
    (totalsOf us).Exact ↔ ¬ Mixed us := by
  have hsum := tokens_untotalled h (allDerived_iff.mp hd).2
  have hzero : (us.map Usage.untotalled).sum = 0 ↔ ¬ ∃ u ∈ us, 0 < u.untotalled := by
    simp only [List.sum_eq_zero_iff_forall_eq_nat, List.mem_map, forall_exists_index, and_imp,
      forall_apply_eq_imp_iff₂, not_exists, not_and, Nat.pos_iff_ne_zero, ne_eq, not_not]
  have hexact : (totalsOf us).Exact ↔ (us.map Usage.untotalled).sum = 0 := by
    rw [Totals.Exact]
    omega
  rw [hexact, hzero, Mixed, not_and]
  exact ⟨fun hn _ => hn, fun hn => hn hd⟩

theorem uncovered_iff (us : List Usage) (f : TokenField) :
    (totalsOf us).2.1 f = 0 ↔ ∀ u ∈ us, u.coverage f = 0 := by
  rw [totalsOf_eq]
  simp [List.sum_eq_zero_iff_forall_eq_nat]

theorem derived_covered (h : ∀ u ∈ us, u.Sound) (hd : allDerived us = true) :
    ∀ f ∈ [TokenField.input, .output, .total], (totalsOf us).2.1 f ≠ 0 := by
  intro f hf hzero
  obtain ⟨⟨u, hu, ht⟩, hall⟩ := allDerived_iff.mp hd
  obtain ⟨i, o, hi, ho, htot⟩ := (h u hu).derived (hall u hu ht)
  have hnone := ((h u hu).agrees f).mpr ((uncovered_iff us f).mp hzero u hu)
  simp only [List.mem_cons, List.not_mem_nil, or_false] at hf
  rcases hf with rfl | rfl | rfl
  · rw [hi] at hnone
    cases hnone
  · rw [ho] at hnone
    cases hnone
  · rw [htot] at hnone
    cases hnone

theorem aggregated_sound (h : ∀ u ∈ us, u.Sound) (hne : us ≠ []) (hm : ¬ Mixed us)
    (source : String) : (aggregated us source).Sound := by
  rw [aggregated_eq]
  refine Totals.usage_sound _ (totalsOf_regular h) (totalsOf_calls h hne) _ _ fun hd => ?_
  exact ⟨(exact_iff h hd).mpr hm, derived_covered h hd⟩

theorem aggregated_totals (h : ∀ u ∈ us, u.Sound) (source : String) :
    (aggregated us source).totals = totalsOf us := by
  rw [aggregated_eq]
  exact Totals.usage_totals _ (totalsOf_regular h) _ _

theorem aggregated_absent (h : ∀ u ∈ us, u.Sound) (f : TokenField) :
    (aggregated us source).count f = none ↔ ∀ w ∈ us, w.count f = none := by
  rw [aggregated_eq, Totals.usage_count _ (totalsOf_regular h)]
  have hiff : (totalsOf us).2.1 f = 0 ↔ ∀ w ∈ us, w.count f = none := by
    rw [uncovered_iff]
    exact forall₂_congr fun w hw => ((h w hw).agrees f).symm
  by_cases hf : (totalsOf us).2.1 f = 0
  · simpa [hf] using hiff.mp hf
  · simp only [ne_eq, hf, not_false_iff, if_true, reduceCtorEq, false_iff]
    exact fun hall => hf (hiff.mpr hall)

theorem aggregated_exact (h : ∀ u ∈ us, u.Sound) : ExactSums us (aggregated us source) := by
  have htotals := (aggregated_totals h source).trans (totalsOf_eq us)
  simp only [Usage.totals, Prod.mk.injEq] at htotals
  obtain ⟨htokens, hcover, hreported, htotal⟩ := htotals
  exact
    { tokens := congrFun htokens
      absent := aggregated_absent h
      coverage := congrFun hcover
      reported := hreported
      total := htotal }

theorem aggregated_derived (ht : (aggregated us source).totalTokens.isSome = true) :
    (aggregated us source).totalTokensDerived = allDerived us := by
  rw [aggregated_eq] at ht ⊢
  by_cases hr : (totalsOf us).2.2.1 = 0
  · rw [Totals.usage_unreported _ _ _ hr] at ht
    simp [unavailableUsage] at ht
  · rw [Totals.usage, if_neg hr]

-- the derived total of an accepted record
theorem validateUsage_derived (h : validateUsage F P u.json = .ok w)
    (hd : u.totalTokensDerived = true) :
    ∃ i o, u.count .input = some i ∧ u.count .output = some o ∧ u.count .total = some (i + o) := by
  obtain ⟨hsound, -, -⟩ := validateUsage_sound h
  have hcount : u.json.get "input_tokens" = .count u.inputTokens ∧
      u.json.get "output_tokens" = .count u.outputTokens ∧
      u.json.get "total_tokens" = .count u.totalTokens := ⟨rfl, rfl, rfl⟩
  have hderived : totalTokensDerived u.json = .ok u.totalTokensDerived := rfl
  simp only [validateUsage, hcount, hderived, nonnegativeInt_count, bind_eq_ok, require_eq_ok,
    demand_eq_ok, pure_eq_ok, Except.ok.injEq, exists_eq_left'] at h
  obtain ⟨-, -, -, -, -, -, ch, -, rs, -, rep, -, tot, -, r, -, n, -, -, -, cov, -, -, -, -, -, hu⟩ := h
  have := hsound.derived (by rw [← hu]; exact hd)
  rw [← hu] at this
  exact this

theorem aggregated_unmixed (h : ∀ u ∈ us, u.Sound)
    (hv : validateUsage F P (aggregated us source).json = .ok w) : ¬ Mixed us := by
  rintro ⟨hd, hm⟩
  have hcover := derived_covered h hd
  have hcount (f : TokenField) (hf : f ∈ [TokenField.input, .output, .total]) :
      (aggregated us source).count f = some ((totalsOf us).1 f) := by
    rw [aggregated_eq, Totals.usage_count _ (totalsOf_regular h), if_pos (hcover f hf)]
  have htotal := hcount .total (by simp)
  have hflag := @aggregated_derived us _ (by
    rw [show (aggregated us source).totalTokens = _ from htotal]
    rfl)
  obtain ⟨i, o, hi, ho, ht⟩ := validateUsage_derived hv (hflag.trans hd)
  rw [hcount _ (by simp), Option.some.injEq] at hi ho ht
  exact (exact_iff h hd).mp (show (totalsOf us).1 .total = _ by rw [ht, hi, ho]) ⟨hd, hm⟩

def validatedUsage (F : TextForms) (P : Platform) (v : Json) : Usage :=
  match validateUsage F P v with
  | .ok u => u
  | .error _ => unavailableUsage ""

def Accepted (F : TextForms) (P : Platform) (v : Json) : Prop := ∃ u, validateUsage F P v = .ok u

theorem Accepted.ok {v : Json} (h : Accepted F P v) :
    validateUsage F P v = .ok (validatedUsage F P v) := by
  obtain ⟨u, hu⟩ := h
  rw [hu, validatedUsage, hu]

theorem Accepted.sound {v : Json} (h : Accepted F P v) : (validatedUsage F P v).Sound :=
  (validateUsage_sound h.ok).1

theorem mapM_accepted {vs : List Json} (h : ∀ v ∈ vs, Accepted F P v) :
    vs.mapM (validateUsage F P) = .ok (vs.map (validatedUsage F P)) := by
  rw [mapM_eq_ok]
  induction vs with
  | nil => exact .nil
  | cons v vs ih =>
    exact .cons (h v List.mem_cons_self).ok (ih fun w hw => h w (List.mem_cons_of_mem _ hw))

theorem mapM_accepted_of_ok {vs : List Json} (h : vs.mapM (validateUsage F P) = .ok us) :
    ∀ v ∈ vs, Accepted F P v := by
  intro v hv
  rw [mapM_eq_ok] at h
  induction h with
  | nil => cases hv
  | cons hu _ ih =>
    rcases List.mem_cons.mp hv with rfl | hv
    · exact ⟨_, hu⟩
    · exact ih hv

def aggregateOf (us : List Usage) (source : String) : Usage :=
  if us.isEmpty then unavailableUsage source else aggregated us source

theorem aggregateUsage_accepted {vs : List Json} (h : ∀ v ∈ vs, Accepted F P v) :
    aggregateUsage F P vs source = .ok (aggregateOf (vs.map (validatedUsage F P)) source) := by
  rw [aggregateUsage, mapM_accepted h, aggregateOf]
  cases vs <;> rfl

theorem unavailable_sound (source : String) : (unavailableUsage source).Sound where
  status := .inr (.inr rfl)
  fields := rfl
  agrees f := by cases f <;> exact iff_of_true rfl rfl
  covered f := by cases f <;> exact Nat.le_refl _
  calls := Nat.zero_le _
  one := Nat.le_refl _
  unavailable _ := rfl
  evidence h := absurd rfl h
  reported h := absurd h (by simp [unavailableUsage])
  incomplete h := absurd h (by simp [unavailableUsage])
  derived h := absurd h (by simp [unavailableUsage])

theorem Usage.Sound.accepted (h : u.Sound) (hs : SourceOk P u.source) : Accepted F P u.json :=
  ⟨_, validateUsage_json h hs⟩

theorem Usage.Sound.validated (h : u.Sound) (hs : SourceOk P u.source) :
    validatedUsage F P u.json = { u with source := strip u.source } := by
  rw [validatedUsage, validateUsage_json h hs]

theorem aggregated_source (us : List Usage) (source : String) :
    (aggregated us source).source = source := by
  unfold aggregated
  dsimp only
  split <;> rfl

theorem aggregateOf_source (us : List Usage) (source : String) :
    (aggregateOf us source).source = source := by
  rw [aggregateOf]
  split
  · rfl
  · exact aggregated_source us source

theorem aggregateOf_accepted (h : ∀ u ∈ us, u.Sound) (hs : SourceOk P source) :
    Accepted F P (aggregateOf us source).json ↔ ¬ Mixed us := by
  rw [aggregateOf]
  by_cases he : us = []
  · subst he
    have hs' : SourceOk P (unavailableUsage source).source := hs
    exact iff_of_true ((unavailable_sound source).accepted hs') (by rintro ⟨-, _, h, -⟩; cases h)
  · rw [List.isEmpty_eq_false_iff.mpr he, if_neg (by decide)]
    refine ⟨fun ⟨w, hw⟩ => aggregated_unmixed h hw, fun hm => ?_⟩
    refine (aggregated_sound h he hm source).accepted ?_
    rwa [aggregated_source]

theorem aggregateOf_sound (h : ∀ u ∈ us, u.Sound) (hm : ¬ Mixed us) (source : String) :
    (aggregateOf us source).Sound := by
  rw [aggregateOf]
  by_cases he : us = []
  · subst he
    exact unavailable_sound source
  · rw [List.isEmpty_eq_false_iff.mpr he, if_neg (by decide)]
    exact aggregated_sound h he hm source

end Closure

section Parts
variable {F : TextForms} {P : Platform} {uss : List (List Usage)} {us : List Usage} {u : Usage}
  {source : String}

/-- The aggregates of the parts as the second aggregation reads them. -/
def partials (uss : List (List Usage)) (source : String) : List Usage :=
  uss.map (fun us => { aggregateOf us source with source := strip source })

theorem partials_cons (us : List Usage) (uss : List (List Usage)) (source : String) :
    partials (us :: uss) source =
      { aggregateOf us source with source := strip source } :: partials uss source := rfl

theorem partials_totals (h : ∀ us ∈ uss, ∀ u ∈ us, u.Sound) (hne : ∀ us ∈ uss, us ≠ []) :
    totalsOf (partials uss source) = totalsOf uss.flatten := by
  induction uss with
  | nil => rfl
  | cons us uss ih =>
    have hone : (aggregateOf us source).totals = totalsOf us := by
      rw [aggregateOf, List.isEmpty_eq_false_iff.mpr (hne us List.mem_cons_self),
        if_neg (by decide)]
      exact aggregated_totals (h us List.mem_cons_self) source
    rw [partials_cons, totalsOf_cons, ih (fun vs hv => h vs (List.mem_cons_of_mem _ hv))
      (fun vs hv => hne vs (List.mem_cons_of_mem _ hv)), List.flatten_cons, totalsOf_append, ← hone]
    rfl

-- an empty part counts as one call
theorem partials_calls (h : ∀ us ∈ uss, ∀ u ∈ us, u.Sound) :
    ((partials uss source).map (·.totalCalls)).sum =
      (uss.flatten.map (·.totalCalls)).sum + (uss.filter (·.isEmpty)).length := by
  induction uss with
  | nil => rfl
  | cons us uss ih =>
    have hrest := ih fun vs hv => h vs (List.mem_cons_of_mem _ hv)
    rw [partials_cons, List.map_cons, List.sum_cons, hrest, List.flatten_cons, List.map_append,
      List.sum_append]
    by_cases he : us = []
    · subst he
      simp [aggregateOf, unavailableUsage]
      omega
    · have hf := List.isEmpty_eq_false_iff.mpr he
      have htotal := (@aggregated_exact _ source (h us List.mem_cons_self)).total
      rw [aggregateOf, hf, if_neg (by decide), List.filter_cons, hf, if_neg (by decide), htotal]
      omega

theorem partials_derived (h : ∀ us ∈ uss, ∀ u ∈ us, u.Sound) (hne : ∀ us ∈ uss, us ≠ []) :
    allDerived (partials uss source) = allDerived uss.flatten := by
  have hpart : ∀ us ∈ uss, aggregateOf us source = aggregated us source := fun us hu => by
    rw [aggregateOf, List.isEmpty_eq_false_iff.mpr (hne us hu), if_neg (by decide)]
  have hsome : ∀ us ∈ uss, (aggregateOf us source).totalTokens.isSome = true ↔
      ∃ u ∈ us, u.totalTokens.isSome = true := fun us hu => by
    have habsent := @aggregated_absent _ source (h us hu) .total
    rw [hpart us hu, Option.isSome_iff_ne_none]
    refine (not_congr habsent).trans ?_
    simp only [not_forall, exists_prop, Usage.count, Option.isSome_iff_ne_none, ne_eq]
  have hflag : ∀ us ∈ uss, (aggregateOf us source).totalTokens.isSome = true →
      (aggregateOf us source).totalTokensDerived = allDerived us := fun us hu ht => by
    rw [hpart us hu] at ht ⊢
    exact aggregated_derived ht
  rw [Bool.eq_iff_iff, allDerived_iff, allDerived_iff]
  simp only [partials, List.mem_map, exists_exists_and_eq_and, forall_exists_index, and_imp,
    forall_apply_eq_imp_iff₂, List.mem_flatten]
  constructor
  · rintro ⟨⟨us, hu, ht⟩, hall⟩
    obtain ⟨u, hm, htu⟩ := (hsome us hu).mp ht
    refine ⟨⟨u, ⟨us, hu, hm⟩, htu⟩, fun w vs hvs hw htw => ?_⟩
    have htv := (hsome vs hvs).mpr ⟨w, hw, htw⟩
    have hd := (hflag vs hvs htv).symm.trans (hall vs hvs htv)
    exact (allDerived_iff.mp hd).2 w hw htw
  · rintro ⟨⟨u, ⟨us, hu, hm⟩, htu⟩, hall⟩
    refine ⟨⟨us, hu, (hsome us hu).mpr ⟨u, hm, htu⟩⟩, fun vs hvs htv => ?_⟩
    rw [hflag vs hvs htv, allDerived_iff]
    exact ⟨(hsome vs hvs).mp htv, fun w hw htw => hall w vs hvs hw htw⟩

theorem allDerived_perm {vs : List Usage} (h : us.Perm vs) : allDerived us = allDerived vs := by
  rw [Bool.eq_iff_iff, allDerived_iff, allDerived_iff]
  simp only [h.mem_iff]

theorem mixed_perm {vs : List Usage} (h : us.Perm vs) : Mixed us ↔ Mixed vs := by
  rw [Mixed, Mixed, allDerived_perm h]
  simp only [h.mem_iff]

theorem aggregateUsage_ok {vs : List Json} (h : aggregateUsage F P vs source = .ok u) :
    ∀ v ∈ vs, Accepted F P v := by
  unfold aggregateUsage at h
  by_cases he : vs = []
  · rw [he]
    simp
  · rw [List.isEmpty_eq_false_iff.mpr he, if_neg (by decide), bind_eq_ok] at h
    obtain ⟨us, hus, -⟩ := h
    exact mapM_accepted_of_ok hus

theorem aggregateParts_eq {parts : List (List Json)}
    (h : ∀ part ∈ parts, ∀ v ∈ part, Accepted F P v) :
    aggregateParts F P parts source = aggregateUsage F P (parts.map (fun part =>
      (aggregateOf (part.map (validatedUsage F P)) source).json)) source := by
  have hparts : parts.mapM (fun part => aggregateUsage F P part source) =
      .ok (parts.map (fun part => aggregateOf (part.map (validatedUsage F P)) source)) := by
    rw [mapM_eq_ok]
    induction parts with
    | nil => exact .nil
    | cons part parts ih =>
      exact .cons (aggregateUsage_accepted (h part List.mem_cons_self))
        (ih fun q hq => h q (List.mem_cons_of_mem _ hq))
  have hmap : (parts.map (fun part =>
      (aggregateOf (part.map (validatedUsage F P)) source).json)) =
        (parts.map (fun part => aggregateOf (part.map (validatedUsage F P)) source)).map
          Usage.json := by
    rw [List.map_map]
    rfl
  rw [aggregateParts, hparts, hmap]
  rfl

theorem validated_sound {vs : List Json} (h : ∀ v ∈ vs, Accepted F P v) :
    ∀ u ∈ vs.map (validatedUsage F P), u.Sound := by
  intro u hu
  obtain ⟨v, hv, rfl⟩ := List.mem_map.mp hu
  exact (h v hv).sound

theorem aggregateParts_ok {parts : List (List Json)} (hs : SourceOk P source)
    (h : ∀ part ∈ parts, ∀ v ∈ part, Accepted F P v) :
    aggregateParts F P parts source = .ok u ↔
      (∀ part ∈ parts, ¬ Mixed (part.map (validatedUsage F P))) ∧
        u = aggregateOf (partials (parts.map (·.map (validatedUsage F P))) source) source := by
  have haccepted : ∀ part ∈ parts,
      (Accepted F P (aggregateOf (part.map (validatedUsage F P)) source).json ↔
        ¬ Mixed (part.map (validatedUsage F P))) :=
    fun part hp => aggregateOf_accepted (validated_sound (h part hp)) hs
  have hread : (∀ part ∈ parts, ¬ Mixed (part.map (validatedUsage F P))) →
      aggregateParts F P parts source =
        .ok (aggregateOf (partials (parts.map (·.map (validatedUsage F P))) source) source) := by
    intro hm
    rw [aggregateParts_eq h, aggregateUsage_accepted]
    · congr 2
      simp only [partials, List.map_map]
      refine List.map_congr_left fun part hp => ?_
      have hsound := aggregateOf_sound (validated_sound (h part hp)) (hm part hp) source
      rw [Function.comp_apply, hsound.validated (by rwa [aggregateOf_source]), aggregateOf_source]
      rfl
    · intro v hv
      obtain ⟨part, hp, rfl⟩ := List.mem_map.mp hv
      exact (haccepted part hp).mpr (hm part hp)
  constructor
  · intro hu
    have hm : ∀ part ∈ parts, ¬ Mixed (part.map (validatedUsage F P)) := fun part hp => by
      rw [aggregateParts_eq h] at hu
      exact (haccepted part hp).mp (aggregateUsage_ok hu _ (List.mem_map.mpr ⟨part, hp, rfl⟩))
    rw [hread hm, Except.ok.injEq] at hu
    exact ⟨hm, hu.symm⟩
  · rintro ⟨hm, rfl⟩
    exact hread hm

end Parts

section Normalized
variable {F : TextForms} {P : Platform} {raw : Json} {source : String} {u w : Usage}

theorem validateUsage_source (h : validateUsage F P u.json = .ok w) :
    w.source = strip u.source := by
  have hsource : (u.json.get "source").orText F = u.source := rfl
  simp only [validateUsage, bind_eq_ok, require_eq_ok, demand_eq_ok, pure_eq_ok, hsource] at h
  obtain ⟨_, _, _, _, _, _, i, _, o, _, t, _, ch, _, rs, _, rep, _, tot, _, r, _, n, _, _, _, cov, _,
    _, _, d, _, _, _, hu⟩ := h
  rw [← hu]

theorem Usage.Sound.accepted_iff (h : u.Sound) :
    Accepted F P u.json ↔ SourceOk P u.source := by
  refine ⟨fun ⟨w, hw⟩ => ?_, h.accepted⟩
  obtain ⟨-, -, hs⟩ := validateUsage_sound hw
  rwa [validateUsage_source hw, SourceOk, strip_strip] at hs

theorem RawCounts.usage_sound (r : RawCounts) (source : String) : (r.usage source).Sound := by
  obtain ⟨i, o, t, c, s⟩ := r
  unfold RawCounts.usage
  dsimp only
  split
  · exact unavailable_sound source
  · rename_i hne
    refine
      { status := .inl rfl
        fields := ?_
        agrees := fun f => ?_
        covered := fun f => ?_
        calls := Nat.le_refl _
        one := Nat.le_refl _
        unavailable := fun hs => absurd hs (by simp)
        evidence := fun _ => ⟨Nat.le_refl _, ?_⟩
        reported := fun _ => rfl
        incomplete := fun hs => absurd hs (by simp)
        derived := fun hd => ?_ }
    · simp [TokenField.all, TokenField.text, Usage.coverage]
    · cases f <;> simp [Usage.count, Usage.coverage, TokenField.text]
    · cases f <;> simp [Usage.coverage, TokenField.text, Bool.toNat_le]
    · by_cases hi : i = none
      · by_cases ho : o = none
        · refine ⟨.total, by simp, ?_⟩
          have ht : t ≠ none := fun ht => hne ⟨hi, ho, ht⟩
          simp [Usage.count, ht]
        · exact ⟨.output, by simp, ho⟩
      · exact ⟨.input, by simp, hi⟩
    · cases t with
      | some t => simp at hd
      | none =>
        cases i with
        | none => simp at hd
        | some i =>
          cases o with
          | none => simp at hd
          | some o => exact ⟨i, o, rfl, rfl, rfl⟩

theorem RawCounts.usage_source (r : RawCounts) (source : String) :
    (r.usage source).source = source := by
  unfold RawCounts.usage
  dsimp only
  split <;> rfl

theorem normalize_accepted_iff (hs : SourceOk P source) :
    Accepted F P (normalizeProviderUsage raw source).json ↔
      (raw.isObject = true → (∃ e, readCounts raw = .error e) →
        SourceOk P (source ++ ":invalid")) := by
  unfold normalizeProviderUsage
  by_cases ho : raw.isObject = true
  · rw [if_pos ho]
    cases hr : readCounts raw with
    | ok r =>
      rw [(r.usage_sound source).accepted_iff, r.usage_source]
      simp [hs]
    | error e =>
      rw [(unavailable_sound _).accepted_iff]
      exact ⟨fun h _ _ => h, fun h => h ho ⟨e, rfl⟩⟩
  · rw [if_neg ho, (unavailable_sound _).accepted_iff]
    exact ⟨fun _ h => absurd h ho, fun _ => hs⟩

end Normalized

section Closed
variable {F : TextForms} {P : Platform} {records : List Json} {parts : List (List Json)}
  {source : String}

/-- The aggregate is accepted, exact, and what the parts give. -/
def Closed (F : TextForms) (P : Platform) (records : List Json) (parts : List (List Json))
    (source : String) : Prop :=
  ∃ u, aggregateUsage F P records source = .ok u ∧ Accepted F P u.json ∧
    ExactSums (records.map (validatedUsage F P)) u ∧ aggregateParts F P parts source = .ok u

theorem aggregated_perm {us vs : List Usage} (h : us.Perm vs) :
    aggregated us source = aggregated vs source := by
  rw [aggregated_eq, aggregated_eq, totalsOf_perm h, allDerived_perm h]

theorem flatten_map (f : Json → Usage) (parts : List (List Json)) :
    (parts.map (·.map f)).flatten = parts.flatten.map f := by
  rw [List.map_flatten]

theorem aggregated_calls (us : List Usage) (source : String) :
    (aggregated us source).totalCalls = (us.map (·.totalCalls)).sum := by
  rw [aggregated_eq, (Totals.usage_calls _ _ _).2, totalsOf_eq]

theorem closed_of_unmixed (hs : SourceOk P source) (h : ∀ v ∈ records, Accepted F P v)
    (hp : parts.flatten.Perm records) (hne : records ≠ [])
    (hm : ¬ Mixed (records.map (validatedUsage F P)))
    (hparts : ∀ part ∈ parts, part ≠ [] ∧ ¬ Mixed (part.map (validatedUsage F P))) :
    Closed F P records parts source := by
  have hall : ∀ part ∈ parts, ∀ v ∈ part, Accepted F P v := fun part hpart v hv =>
    h v (hp.mem_iff.mp (List.mem_flatten.mpr ⟨part, hpart, hv⟩))
  have hsound := validated_sound h
  have hne' : records.map (validatedUsage F P) ≠ [] := by simpa using hne
  have hof : aggregateOf (records.map (validatedUsage F P)) source =
      aggregated (records.map (validatedUsage F P)) source := by
    rw [aggregateOf, List.isEmpty_eq_false_iff.mpr hne', if_neg (by decide)]
  refine ⟨aggregated (records.map (validatedUsage F P)) source, ?_, ?_, aggregated_exact hsound, ?_⟩
  · rw [aggregateUsage_accepted h, hof]
  · rw [← hof]
    exact (aggregateOf_accepted hsound hs).mpr hm
  · refine (aggregateParts_ok hs hall).mpr ⟨fun part hpart => (hparts part hpart).2, ?_⟩
    have hsounds : ∀ us ∈ parts.map (·.map (validatedUsage F P)), ∀ u ∈ us, u.Sound := by
      intro us hus
      obtain ⟨part, hpart, rfl⟩ := List.mem_map.mp hus
      exact validated_sound (hall part hpart)
    have hnes : ∀ us ∈ parts.map (·.map (validatedUsage F P)), us ≠ [] := by
      intro us hus
      obtain ⟨part, hpart, rfl⟩ := List.mem_map.mp hus
      simpa using (hparts part hpart).1
    have hsome : parts ≠ [] := by
      rintro rfl
      exact hne (List.nil_perm.mp hp)
    have hpartial : partials (parts.map (·.map (validatedUsage F P))) source ≠ [] := by
      simpa [partials] using hsome
    have hflat := hp.map (validatedUsage F P)
    rw [aggregateOf, List.isEmpty_eq_false_iff.mpr hpartial, if_neg (by decide), aggregated_eq,
      aggregated_eq, partials_totals hsounds hnes, partials_derived hsounds hnes, flatten_map,
      totalsOf_perm hflat, allDerived_perm hflat]

theorem unmixed_of_closed (hs : SourceOk P source) (h : ∀ v ∈ records, Accepted F P v)
    (hp : parts.flatten.Perm records) (hc : Closed F P records parts source) :
    records ≠ [] ∧ ¬ Mixed (records.map (validatedUsage F P)) ∧
      ∀ part ∈ parts, part ≠ [] ∧ ¬ Mixed (part.map (validatedUsage F P)) := by
  have hall : ∀ part ∈ parts, ∀ v ∈ part, Accepted F P v := fun part hpart v hv =>
    h v (hp.mem_iff.mp (List.mem_flatten.mpr ⟨part, hpart, hv⟩))
  have hsounds : ∀ us ∈ parts.map (·.map (validatedUsage F P)), ∀ u ∈ us, u.Sound := by
    intro us hus
    obtain ⟨part, hpart, rfl⟩ := List.mem_map.mp hus
    exact validated_sound (hall part hpart)
  obtain ⟨u, hu, haccepted, hexact, hsplit⟩ := hc
  rw [aggregateUsage_accepted h, Except.ok.injEq] at hu
  subst hu
  obtain ⟨hunmixed, heq⟩ := (aggregateParts_ok hs hall).mp hsplit
  have hne : records ≠ [] := by
    rintro rfl
    have htotal := hexact.total
    simp [aggregateOf, unavailableUsage] at htotal
  refine ⟨hne, (aggregateOf_accepted (validated_sound h) hs).mp haccepted,
    fun part hpart => ⟨?_, hunmixed part hpart⟩⟩
  have hsome : parts ≠ [] := List.ne_nil_of_mem hpart
  have hpartial : partials (parts.map (·.map (validatedUsage F P))) source ≠ [] := by
    simpa [partials] using hsome
  have htotal := hexact.total
  rw [heq, aggregateOf, List.isEmpty_eq_false_iff.mpr hpartial, if_neg (by decide),
    aggregated_calls, partials_calls hsounds, flatten_map] at htotal
  have hsum := ((hp.map (validatedUsage F P)).map (·.totalCalls)).sum_eq
  have hzero : ((parts.map (·.map (validatedUsage F P))).filter (·.isEmpty)).length = 0 := by omega
  have hmem : part.map (validatedUsage F P) ∈ parts.map (·.map (validatedUsage F P)) :=
    List.mem_map.mpr ⟨part, hpart, rfl⟩
  have hempty := List.filter_eq_nil_iff.mp (List.length_eq_zero_iff.mp hzero) _ hmem
  simpa using hempty

theorem usage_records_closed (hs : SourceOk P source) (h : ∀ v ∈ records, Accepted F P v)
    (hp : parts.flatten.Perm records) (raw : Json) :
    (Accepted F P (normalizeProviderUsage raw source).json ↔
      (raw.isObject = true → (∃ e, readCounts raw = .error e) →
        SourceOk P (source ++ ":invalid"))) ∧
    (Closed F P records parts source ↔
      records ≠ [] ∧ ¬ Mixed (records.map (validatedUsage F P)) ∧
        ∀ part ∈ parts, part ≠ [] ∧ ¬ Mixed (part.map (validatedUsage F P))) := by
  refine ⟨normalize_accepted_iff hs, unmixed_of_closed hs h hp, ?_⟩
  rintro ⟨hne, hm, hparts⟩
  exact closed_of_unmixed hs h hp hne hm hparts

-- a call that reported both counts, and one that reported only its input
def fullRaw : Json := .obj [("input_tokens", .int 10), ("output_tokens", .int 5)]

def inputRaw : Json := .obj [("input_tokens", .int 3)]

def totalRaw : Json := .obj [("total_tokens", .int 20)]

theorem normalize_fullRaw : normalizeProviderUsage fullRaw "runner" =
    RawCounts.usage ⟨some 10, some 5, none, none, none⟩ "runner" := by
  rfl

theorem normalize_inputRaw : normalizeProviderUsage inputRaw "runner" =
    RawCounts.usage ⟨some 3, none, none, none, none⟩ "runner" := by
  rfl

theorem normalize_totalRaw : normalizeProviderUsage totalRaw "runner" =
    RawCounts.usage ⟨none, none, some 20, none, none⟩ "runner" := by
  rfl

theorem runner_ok : SourceOk samplePlatform "runner" := by
  refine ⟨by decide, by decide, by decide, rfl⟩

theorem runner_accepted (r : RawCounts) :
    Accepted plainForms samplePlatform (r.usage "runner").json :=
  (r.usage_sound "runner").accepted (by rw [r.usage_source]; exact runner_ok)

theorem runner_validated (r : RawCounts) :
    validatedUsage plainForms samplePlatform (r.usage "runner").json = r.usage "runner" := by
  rw [(r.usage_sound "runner").validated (by rw [r.usage_source]; exact runner_ok), r.usage_source,
    show strip "runner" = "runner" by decide +kernel]
  have hsource := r.usage_source "runner"
  generalize r.usage "runner" = u at hsource ⊢
  cases u
  subst hsource
  rfl

theorem usage_records_closed_split :
    Closed plainForms samplePlatform
      [(normalizeProviderUsage fullRaw "runner").json,
        (normalizeProviderUsage totalRaw "runner").json]
      [[(normalizeProviderUsage totalRaw "runner").json],
        [(normalizeProviderUsage fullRaw "runner").json]] "runner" := by
  rw [normalize_fullRaw, normalize_totalRaw]
  have hswap : [[(RawCounts.usage ⟨none, none, some 20, none, none⟩ "runner").json],
      [(RawCounts.usage ⟨some 10, some 5, none, none, none⟩ "runner").json]].flatten.Perm
        [(RawCounts.usage ⟨some 10, some 5, none, none, none⟩ "runner").json,
          (RawCounts.usage ⟨none, none, some 20, none, none⟩ "runner").json] := .swap _ _ _
  refine (usage_records_closed runner_ok ?_ hswap .null).2.mpr ⟨by simp, ?_, ?_⟩
  · intro v hv
    rcases List.mem_cons.mp hv with rfl | hv
    · exact runner_accepted _
    · rcases List.mem_cons.mp hv with rfl | hv
      · exact runner_accepted _
      · cases hv
  · simp only [List.map_cons, List.map_nil, runner_validated]
    rintro ⟨hd, -⟩
    exact absurd hd (by decide)
  · intro part hpart
    rcases List.mem_cons.mp hpart with rfl | hpart
    · refine ⟨by simp, ?_⟩
      simp only [List.map_cons, List.map_nil, runner_validated]
      rintro ⟨hd, -⟩
      exact absurd hd (by decide)
    · rcases List.mem_cons.mp hpart with rfl | hpart
      · refine ⟨by simp, ?_⟩
        simp only [List.map_cons, List.map_nil, runner_validated]
        rintro ⟨-, u, hu, hpos⟩
        rw [List.mem_singleton.mp hu] at hpos
        exact absurd hpos (by decide)
      · cases hpart

/-- Two accepted provider records whose aggregate is rejected. -/
theorem derived_aggregate_rejected :
    Accepted plainForms samplePlatform (normalizeProviderUsage fullRaw "runner").json ∧
    Accepted plainForms samplePlatform (normalizeProviderUsage inputRaw "runner").json ∧
    ∃ u, aggregateUsage plainForms samplePlatform
        [(normalizeProviderUsage fullRaw "runner").json,
          (normalizeProviderUsage inputRaw "runner").json] "runner" = .ok u ∧
      ¬ Accepted plainForms samplePlatform u.json := by
  have hall : ∀ v ∈ [(normalizeProviderUsage fullRaw "runner").json,
      (normalizeProviderUsage inputRaw "runner").json],
        Accepted plainForms samplePlatform v := by
    rw [normalize_fullRaw, normalize_inputRaw]
    intro v hv
    rcases List.mem_cons.mp hv with rfl | hv
    · exact runner_accepted _
    · rcases List.mem_cons.mp hv with rfl | hv
      · exact runner_accepted _
      · cases hv
  refine ⟨hall _ (by simp), hall _ (by simp), _, aggregateUsage_accepted hall, ?_⟩
  rw [aggregateOf_accepted (validated_sound hall) runner_ok, not_not]
  rw [normalize_fullRaw, normalize_inputRaw]
  simp only [List.map_cons, List.map_nil, runner_validated]
  exact ⟨by decide, RawCounts.usage ⟨some 3, none, none, none, none⟩ "runner", by simp, by decide⟩

end Closed

end PeerBridge
