import Mathlib.Data.List.Range

-- a numbered log that keeps its last entries
namespace Window

/-- The numbers held after `last` entries when at most `limit` are kept. -/
def held (limit last : Nat) : List Nat := (List.range' 1 last).filter (fun k => last < k + limit)

theorem held_push {limit : Nat} (h : 1 ≤ limit) (last : Nat) :
    (held limit last ++ [last + 1]).filter (fun k => last + 1 < k + limit) =
      held limit (last + 1) := by
  have hnew : last + 1 < last + 1 + limit := by omega
  rw [held, held, List.range'_concat, List.filter_append, List.filter_append, List.filter_filter]
  congr 1
  · refine List.filter_congr (fun k _ => ?_)
    simp only [← Bool.decide_and, decide_eq_decide]
    omega
  · simp [Nat.add_comm]

theorem mem_held {limit last k : Nat} : k ∈ held limit last ↔ 1 ≤ k ∧ k ≤ last ∧ last < k + limit := by
  simp only [held, List.mem_filter, List.mem_range'_1, decide_eq_true_eq]
  omega

@[simp] theorem held_zero (limit : Nat) : held limit 0 = [] := rfl

theorem held_eq_range' {limit : Nat} (h : 1 ≤ limit) (last : Nat) :
    held limit last = List.range' (last + 1 - min last limit) (min last limit) := by
  induction last with
  | zero => simp
  | succ last ih =>
    rw [← held_push h, ih]
    by_cases hle : last < limit
    · have h1 : min last limit = last := by omega
      have h2 : min (last + 1) limit = last + 1 := by omega
      rw [h1, h2, Nat.add_sub_cancel_left, Nat.add_sub_cancel_left, List.filter_eq_self.mpr]
      · rw [List.range'_concat, Nat.one_mul, Nat.add_comm 1 last]
      · intro k hk
        have hpos : 1 ≤ k := by
          rcases List.mem_append.mp hk with hk | hk
          · exact (List.mem_range'_1.mp hk).1
          · rw [List.mem_singleton.mp hk]; omega
        simp only [decide_eq_true_eq]
        omega
    · have h1 : min last limit = limit := by omega
      have h2 : min (last + 1) limit = limit := by omega
      obtain ⟨n, rfl⟩ : ∃ n, limit = n + 1 := ⟨limit - 1, by omega⟩
      rw [h1, h2, List.range'_succ, List.cons_append, List.filter_cons, if_neg (by
        simp only [decide_eq_true_eq]; omega), List.filter_eq_self.mpr]
      · rw [List.range'_concat]
        congr 1
        · congr 1
          omega
        · simp only [List.cons.injEq, and_true]
          omega
      · intro k hk
        have hlow : last + 1 - n ≤ k := by
          rcases List.mem_append.mp hk with hk | hk
          · have := (List.mem_range'_1.mp hk).1
            omega
          · rw [List.mem_singleton.mp hk]; omega
        simp only [decide_eq_true_eq]
        omega

theorem length_held {limit : Nat} (h : 1 ≤ limit) (last : Nat) :
    (held limit last).length ≤ limit := by
  rw [held_eq_range' h, List.length_range']
  exact Nat.min_le_right _ _

end Window
