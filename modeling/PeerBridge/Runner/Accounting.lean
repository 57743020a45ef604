import PeerBridge.Runner.Budgets

namespace PeerBridge.Runner
open Attempt

-- what the receipt of a run has to say about the calls it sent
structure Accounts (P : Platform) (F : TextForms) (registry : Json) (sent : List SentCall)
    (r : InferenceReceipt) : Prop where
  calls : r.toolBudget.toolCallsUsed = sent.length + 1
  rows : r.toolCalls.map some = sent.map (SentCall.row P)
  arguments : r.toolBudget.cumulativeArgumentCharsUsed = argumentChars F sent
  results : r.toolBudget.cumulativeResultCharsUsed = resultChars F registry sent

section Receipts
variable {P : Platform} {F : TextForms} {D : Decoder} {cfg : RunnerConfig} {env : Surroundings}
  {registry connection : Json} {messages : List Json} {k : Tally}

theorem Closed.accounts_iff (h : Closed P F cfg registry k) (final : Completion)
    (fallback : ResponseOnlyFallback) :
    Accounts P F registry k.sent (settle P connection messages final fallback k).receipt ↔
      Served F cfg registry k.sent := by
  cases h.ledger with
  | balanced hb =>
    exact ⟨fun _ => hb.served, fun _ => ⟨hb.calls, hb.rows, hb.arguments, hb.results⟩⟩
  | interrupted done last hs hb hn =>
    refine ⟨fun ha => ?_, fun hserved => absurd hserved hn⟩
    have hcount : k.toolCallCount = k.sent.length + 1 := ha.calls
    rw [hb.calls, hs, List.length_append, List.length_singleton] at hcount
    omega

theorem receipt_accounts_iff_served {passes : Nat} {result : InferenceResult}
    (hr : env.registry = .ok registry)
    (h : runUnchecked P F D cfg env messages passes (startTally messages) = (k, .ok (some result))) :
    Accounts P F registry k.sent result.receipt ↔ Served F cfg registry k.sent := by
  obtain ⟨_, hresult⟩ := (runUnchecked_meets messages passes).returns (startTally_unopened messages) h
  obtain ⟨found, connection, final, fallback, hfound, hclosed, rfl⟩ := hresult result rfl
  obtain rfl : found = registry := Except.ok.inj (hfound.symm.trans hr)
  exact hclosed.accounts_iff final fallback

end Receipts

section Sample

def errorAnswer : Json := .obj [("isError", .bool true)]

def textAnswer : Json := .obj [("content", .arr [.obj [("type", .str "text"), ("text", .str "ok")]])]

def answered : Except RunnerError (Option InferenceResult) → Option InferenceResult
  | .ok result => result
  | .error _ => none

theorem answered_some {x : Except RunnerError (Option InferenceResult)} {result : InferenceResult}
    (h : answered x = some result) : x = .ok (some result) := by
  cases x with
  | ok _ => exact congrArg Except.ok h
  | error _ => cases h

theorem receipt_accounts_iff_served_sample :
    ∃ k result,
      sampleRun (sampleConfig 100 (by decide) true) textAnswer = (k, .ok (some result)) ∧
      (Accounts samplePlatform plainForms (.obj []) k.sent result.receipt ↔
        Served plainForms (sampleConfig 100 (by decide) true) (.obj []) k.sent) := by
  have hsome : (answered (sampleRun (sampleConfig 100 (by decide) true) textAnswer).2).isSome =
      true := by decide +kernel
  obtain ⟨result, hresult⟩ := Option.isSome_iff_exists.mp hsome
  have hrun : sampleRun (sampleConfig 100 (by decide) true) textAnswer =
      ((sampleRun (sampleConfig 100 (by decide) true) textAnswer).1, .ok (some result)) :=
    Prod.ext rfl (answered_some hresult)
  exact ⟨_, result, hrun,
    @receipt_accounts_iff_served _ _ _ _ (sampleSurroundings textAnswer) _ _ _ _ _ rfl hrun⟩

theorem failed_call_unaccounted :
    let run := sampleRun (sampleConfig 100 (by decide) true) errorAnswer
    run.1.sent.length = 1 ∧ ∃ result, run.2 = .ok (some result) ∧
      result.receipt.toolBudget.toolCallsUsed - 1 = 0 ∧
      ¬ Accounts samplePlatform plainForms (.obj []) run.1.sent result.receipt := by
  intro run
  have hsent : run.1.sent.length = 1 := by decide +kernel
  have hused : (answered run.2).map (fun r => r.receipt.toolBudget.toolCallsUsed) = some 1 := by
    decide +kernel
  obtain ⟨result, hresult, hcount⟩ := Option.map_eq_some_iff.mp hused
  refine ⟨hsent, result, answered_some hresult, by rw [hcount], fun ha => ?_⟩
  have := ha.calls
  rw [hcount, hsent] at this
  omega

end Sample

end PeerBridge.Runner
