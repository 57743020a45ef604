import Mathlib.Data.List.Infix

namespace Components
variable {α : Type} [BEq α] [LawfulBEq α] {sep : α} {xs ys zs : List α}

omit [BEq α] [LawfulBEq α] in
theorem intercalate_append {ps qs : List (List α)} (hp : ps ≠ []) (hq : qs ≠ []) :
    [sep].intercalate (ps ++ qs) = [sep].intercalate ps ++ sep :: [sep].intercalate qs := by
  induction ps with
  | nil => exact absurd rfl hp
  | cons p ps ih =>
    cases ps with
    | nil => simp [List.intercalate_cons_of_ne_nil hq]
    | cons p' ps =>
      have htail := ih (List.cons_ne_nil _ _)
      rw [List.cons_append, List.intercalate_cons_of_ne_nil (by simp), htail,
        List.intercalate_cons_of_ne_nil (List.cons_ne_nil _ _)]
      simp

theorem splitOn_inj (h : xs.splitOn sep = ys.splitOn sep) : xs = ys := by
  rw [← @List.intercalate_splitOn _ xs _ _ sep, h, List.intercalate_splitOn]

/-- A text is above another in the tree of components when the other goes on past a separator. -/
theorem splitOn_prefix_iff :
    xs.splitOn sep <+: ys.splitOn sep ↔ xs = ys ∨ xs ++ [sep] <+: ys := by
  constructor
  · rintro ⟨qs, hqs⟩
    by_cases hq : qs = []
    · subst hq
      exact .inl (splitOn_inj (by simpa using hqs))
    · refine .inr ⟨[sep].intercalate qs, ?_⟩
      have hy := @List.intercalate_splitOn _ ys _ _ sep
      rw [← hqs, intercalate_append (List.splitOn_ne_nil sep xs) hq,
        List.intercalate_splitOn] at hy
      simpa using hy
  · rintro (rfl | ⟨zs, rfl⟩)
    · exact List.prefix_rfl
    · rw [List.append_assoc, List.singleton_append, List.splitOn_append_cons_self]
      exact List.prefix_append _ _

end Components
