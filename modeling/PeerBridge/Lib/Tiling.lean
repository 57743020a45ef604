import Mathlib.Logic.ExistsUnique
import Mathlib.Order.Basic
import Mathlib.Data.Nat.Basic

namespace Tiling
variable {α β : Type} {first stop : α → ℕ} {a b c i : ℕ} {x : α} {xs ys : List α}

/-- The items of a list lie end to end from `a` to `b`, none of them empty. -/
def Laid (first stop : α → ℕ) : ℕ → List α → ℕ → Prop
  | a, [], b => a = b
  | a, x :: xs, b => first x = a ∧ a < stop x ∧ Laid first stop (stop x) xs b

theorem Laid.le (h : Laid first stop a xs b) : a ≤ b := by
  induction xs generalizing a with
  | nil => exact Nat.le_of_eq h
  | cons x xs ih =>
    obtain ⟨-, hlt, hrest⟩ := h
    exact hlt.le.trans (ih hrest)

theorem Laid.bounds (h : Laid first stop a xs b) (hx : x ∈ xs) :
    a ≤ first x ∧ first x < stop x ∧ stop x ≤ b := by
  induction xs generalizing a with
  | nil => cases hx
  | cons y ys ih =>
    obtain ⟨hy, hlt, hrest⟩ := h
    rcases List.mem_cons.mp hx with rfl | hx
    · exact ⟨hy.ge, hy ▸ hlt, hrest.le⟩
    · obtain ⟨hlow, hlen, hhigh⟩ := ih hrest hx
      exact ⟨hlt.le.trans hlow, hlen, hhigh⟩

theorem Laid.append (h : Laid first stop a xs b) (h' : Laid first stop b ys c) :
    Laid first stop a (xs ++ ys) c := by
  induction xs generalizing a with
  | nil => exact h ▸ h'
  | cons x xs ih => exact ⟨h.1, h.2.1, ih h.2.2⟩

theorem laid_map {f : β → α} {zs : List β}
    (h : Laid (fun z => first (f z)) (fun z => stop (f z)) a zs b) :
    Laid first stop a (zs.map f) b := by
  induction zs generalizing a with
  | nil => exact h
  | cons z zs ih => exact ⟨h.1, h.2.1, ih h.2.2⟩

theorem Laid.pairwise (h : Laid first stop a xs b) :
    xs.Pairwise (fun x y => stop x ≤ first y) := by
  induction xs generalizing a with
  | nil => exact .nil
  | cons x xs ih =>
    obtain ⟨-, -, hrest⟩ := h
    exact .cons (fun y hy => (hrest.bounds hy).1) (ih hrest)

theorem Laid.existsUnique (h : Laid first stop a xs b) (ha : a ≤ i) (hb : i < b) :
    ∃! x, x ∈ xs ∧ first x ≤ i ∧ i < stop x := by
  induction xs generalizing a with
  | nil =>
    have : a = b := h
    omega
  | cons x xs ih =>
    obtain ⟨hx, hlt, hrest⟩ := h
    by_cases hi : i < stop x
    · refine ⟨x, ⟨List.mem_cons_self, hx.le.trans ha, hi⟩, ?_⟩
      rintro y ⟨hy, hy1, -⟩
      rcases List.mem_cons.mp hy with rfl | hy
      · rfl
      · have := (hrest.bounds hy).1
        omega
    · obtain ⟨y, ⟨hy, hy1, hy2⟩, huniq⟩ := ih hrest (by omega)
      refine ⟨y, ⟨List.mem_cons_of_mem x hy, hy1, hy2⟩, ?_⟩
      rintro z ⟨hz, hz1, hz2⟩
      rcases List.mem_cons.mp hz with rfl | hz
      · exact absurd hz2 hi
      · exact huniq z ⟨hz, hz1, hz2⟩

end Tiling
