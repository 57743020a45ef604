import Mathlib.Logic.Relation
import Mathlib.Data.List.Basic

namespace Acyclic
variable {α : Type} {r : α → α → Prop} {a b x : α} {xs : List α}

def Within (r : α → α → Prop) (xs : List α) (a b : α) : Prop := a ∈ xs ∧ b ∈ xs ∧ r a b

theorem within_tail (hx : ∀ y ∈ x :: xs, ¬ r x y) (h : Within r (x :: xs) a b) (hb : b ≠ x) :
    Within r xs a b := by
  obtain ⟨ha, hb', hr⟩ := h
  have hax : a ≠ x := fun he => hx b hb' (he ▸ hr)
  exact ⟨(List.mem_cons.mp ha).resolve_left hax, (List.mem_cons.mp hb').resolve_left hb, hr⟩

theorem transGen_tail (hx : ∀ y ∈ x :: xs, ¬ r x y)
    (h : Relation.TransGen (Within r (x :: xs)) a b) (hb : b ≠ x) :
    Relation.TransGen (Within r xs) a b := by
  induction h using Relation.TransGen.head_induction_on with
  | single hab => exact .single (within_tail hx hab hb)
  | head hac hcb ih =>
    refine .head (within_tail hx hac ?_) ih
    rintro rfl
    obtain ⟨d, hcd, -⟩ := (Relation.TransGen.head'_iff).mp hcb
    exact hx d hcd.2.1 hcd.2.2

-- a list in which nothing refers to itself or to what follows it has no cycle
theorem no_cycle (hself : ∀ y ∈ xs, ¬ r y y) (hlater : xs.Pairwise (fun y z => ¬ r y z)) (a : α) :
    ¬ Relation.TransGen (Within r xs) a a := by
  induction xs with
  | nil =>
    intro h
    obtain ⟨c, hac, -⟩ := (Relation.TransGen.head'_iff).mp h
    cases hac.1
  | cons x xs ih =>
    obtain ⟨hx, hlater⟩ := List.pairwise_cons.mp hlater
    have hfirst : ∀ y ∈ x :: xs, ¬ r x y :=
      List.forall_mem_cons.mpr ⟨hself x List.mem_cons_self, hx⟩
    intro h
    have ha : a ≠ x := by
      rintro rfl
      obtain ⟨c, hac, -⟩ := (Relation.TransGen.head'_iff).mp h
      exact hfirst c hac.2.1 hac.2.2
    exact ih (fun y hy => hself y (List.mem_cons_of_mem _ hy)) hlater (transGen_tail hfirst h ha)

end Acyclic
