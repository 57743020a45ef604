import Mathlib.Data.List.Basic

variable {α β γ δ ι : Type}

/-- `f` tells `a` apart from no input with the same mask. -/
def Blind (f : α → β) (mask : α → γ) (a : α) : Prop := ∀ b, mask b = mask a → f b = f a

namespace Blind
variable {f : α → β} {mask : α → γ} {a : α}

theorem comp (h : Blind f mask a) (g : β → δ) : Blind (g ∘ f) mask a :=
  fun b hb => congrArg g (h b hb)

theorem eq_of_masks (h : Blind f mask a) {b c : α} (hb : mask b = mask a) (hc : mask c = mask a) :
    f b = f c := (h b hb).trans (h c hc).symm

-- what the unmasked part decides is read off the mask
theorem of_factor {g : γ → β} {p : α → Prop} (hp : ∀ b, mask b = mask a → (p b ↔ p a)) (ha : p a)
    (h : ∀ b, p b → f b = g (mask b)) : Blind f mask a := fun b hb => by
  rw [h b ((hp b hb).mpr ha), h a ha, hb]

theorem filterMap {f : α → Option β} {l : List α} (h : ∀ x ∈ l, Blind f mask x) :
    Blind (List.filterMap f) (List.map mask) l := by
  induction l with
  | nil =>
    intro m hm
    rw [List.map_eq_nil_iff.mp hm]
  | cons x l ih =>
    intro m hm
    obtain ⟨y, m, rfl, hy, hm⟩ := List.map_eq_cons_iff.mp hm
    rw [List.filterMap_cons, List.filterMap_cons, h x List.mem_cons_self y hy,
      ih (fun z hz => h z (List.mem_cons_of_mem _ hz)) m hm]

end Blind

/-- One element with a free value makes that value appear in the list's results. -/
theorem exists_variants {f : α → Option β} {mask : α → γ} {l : List α} {x : α} (hx : x ∈ l)
    {g : ι → Option β} (h : ∀ i, ∃ b, mask b = mask x ∧ f b = g i) :
    ∃ pre post, ∀ i, ∃ m : List α, m.map mask = l.map mask ∧
      m.filterMap f = pre ++ (g i).toList ++ post := by
  obtain ⟨l₁, l₂, rfl⟩ := List.append_of_mem hx
  refine ⟨l₁.filterMap f, l₂.filterMap f, fun i => ?_⟩
  obtain ⟨b, hb, hf⟩ := h i
  refine ⟨l₁ ++ b :: l₂, by rw [List.map_append, List.map_append, List.map_cons, List.map_cons, hb],
    ?_⟩
  rw [List.filterMap_append, List.filterMap_cons, hf]
  cases g i <;> simp
