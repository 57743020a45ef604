import Mathlib.Data.List.TakeWhile
import Mathlib.Algebra.Order.Ring.Rat
import Mathlib.Tactic.Linarith

/-! A sliding window limiter: at most `cap` admissions in any span of time. -/

namespace Throttle

def recentAt (span now : ℚ) (recent : List ℚ) : List ℚ :=
  recent.dropWhile (fun x => decide (span ≤ now - x))

/-- How many of these times lie in the window that opens at `t`. -/
def within (span t : ℚ) (times : List ℚ) : ℕ :=
  (times.filter (fun x => decide (t ≤ x ∧ x < t + span))).length

/-- What the limiter remembers of the admissions so far, `last` being its latest reading. -/
structure Tracks (span : ℚ) (cap : ℕ) (times recent : List ℚ) (last : ℚ) : Prop where
  suffix : ∃ old, times = old ++ recent ∧ ∀ x ∈ old, x + span ≤ last
  bounded : ∀ t, within span t times ≤ cap

variable {span last now : ℚ} {cap : ℕ} {times recent : List ℚ}

theorem Tracks.nil (span : ℚ) (cap : ℕ) (last : ℚ) : Tracks span cap [] [] last :=
  ⟨⟨[], rfl, fun _ hx => absurd hx List.not_mem_nil⟩, fun _ => Nat.zero_le _⟩

theorem Tracks.wait (h : Tracks span cap times recent last) (hnow : last ≤ now) :
    Tracks span cap times recent now := by
  obtain ⟨old, htimes, hold⟩ := h.suffix
  exact ⟨⟨old, htimes, fun x hx => (hold x hx).trans hnow⟩, h.bounded⟩

theorem Tracks.later (h : Tracks span cap times recent last) (hnow : last ≤ now) :
    Tracks span cap times (recentAt span now recent) now := by
  obtain ⟨old, htimes, hold⟩ := h.suffix
  refine ⟨⟨old ++ recent.takeWhile (fun x => decide (span ≤ now - x)), ?_, fun x hx => ?_⟩,
    h.bounded⟩
  · rw [htimes, List.append_assoc, recentAt, List.takeWhile_append_dropWhile]
  · rcases List.mem_append.mp hx with hx | hx
    · exact (hold x hx).trans hnow
    · have hdrop : span ≤ now - x := by simpa using List.mem_takeWhile_imp hx
      linarith

/-- An admission below the cap keeps every window within it. -/
theorem Tracks.call (h : Tracks span cap times recent now) (hcap : recent.length < cap) :
    Tracks span cap (times ++ [now]) (recent ++ [now]) now := by
  obtain ⟨old, htimes, hold⟩ := h.suffix
  refine ⟨⟨old, by rw [htimes, List.append_assoc], hold⟩, fun t => ?_⟩
  have hbefore := h.bounded t
  by_cases hin : t ≤ now ∧ now < t + span
  · have hnone : old.filter (fun x => decide (t ≤ x ∧ x < t + span)) = [] := by
      rw [List.filter_eq_nil_iff]
      intro x hx hwin
      have hxt := (of_decide_eq_true hwin).1
      have hxo := hold x hx
      linarith [hin.2]
    have hrecent := List.length_filter_le (fun x => decide (t ≤ x ∧ x < t + span)) recent
    have hone : [now].filter (fun x => decide (t ≤ x ∧ x < t + span)) = [now] :=
      List.filter_cons_of_pos (decide_eq_true hin)
    rw [within, htimes, List.filter_append, List.filter_append, hnone, hone, List.nil_append,
      List.length_append]
    exact Nat.succ_le_of_lt (hrecent.trans_lt hcap)
  · have hout : [now].filter (fun x => decide (t ≤ x ∧ x < t + span)) = [] :=
      List.filter_cons_of_neg (by simpa using hin)
    rw [within, List.filter_append, hout, List.append_nil]
    exact hbefore

end Throttle
