structure Machine (σ ι ο : Type) where
  start : σ → Prop
  admits : σ → ι → Prop
  exec : σ → ι → σ × ο

namespace Machine
variable {σ ι ο : Type} (M : Machine σ ι ο)

inductive Run : σ → List (ι × ο) → σ → Prop
  | nil (s : σ) : Run s [] s
  | snoc {s t : σ} {tr : List (ι × ο)} (i : ι) :
      Run s tr t → M.admits t i → Run s (tr ++ [(i, (M.exec t i).2)]) (M.exec t i).1

def Reachable (s : σ) : Prop := ∃ s₀ tr, M.start s₀ ∧ M.Run s₀ tr s

variable {M}

theorem Run.trans {s t u : σ} {xs ys : List (ι × ο)} (h : M.Run s xs t) (k : M.Run t ys u) :
    M.Run s (xs ++ ys) u := by
  induction k with
  | nil => simpa using h
  | snoc i _ ha ih => simpa [List.append_assoc] using ih.snoc i ha

theorem Run.preserves (inv : σ → Prop)
    (step : ∀ s i, inv s → M.admits s i → inv (M.exec s i).1)
    {s t : σ} {tr : List (ι × ο)} (h : M.Run s tr t) (hs : inv s) : inv t := by
  induction h with
  | nil => exact hs
  | snoc i _ ha ih => exact step _ i ih ha

theorem Reachable.invariant (inv : σ → Prop) (init : ∀ s, M.start s → inv s)
    (step : ∀ s i, inv s → M.admits s i → inv (M.exec s i).1)
    {s : σ} (h : M.Reachable s) : inv s := by
  obtain ⟨s₀, tr, h₀, hr⟩ := h
  exact hr.preserves inv step (init s₀ h₀)

theorem Reachable.next {s : σ} {i : ι} (h : M.Reachable s) (ha : M.admits s i) :
    M.Reachable (M.exec s i).1 := by
  obtain ⟨s₀, tr, h₀, hr⟩ := h
  exact ⟨s₀, _, h₀, hr.snoc i ha⟩

theorem Reachable.run {s t : σ} {tr : List (ι × ο)} (h : M.Reachable s) (hr : M.Run s tr t) :
    M.Reachable t := by
  obtain ⟨s₀, tr₀, h₀, hr₀⟩ := h
  exact ⟨s₀, _, h₀, hr₀.trans hr⟩

theorem Run.preserves_trace (inv : List (ι × ο) → σ → Prop)
    (step : ∀ tr s i, inv tr s → M.admits s i → inv (tr ++ [(i, (M.exec s i).2)]) (M.exec s i).1)
    {s t : σ} {tr : List (ι × ο)} (h : M.Run s tr t) (hs : inv [] s) : inv tr t := by
  induction h with
  | nil => exact hs
  | snoc i _ ha ih => exact step _ _ i ih ha

def restrict (M : Machine σ ι ο) (guard : σ → ι → Prop) : Machine σ ι ο :=
  { M with admits := fun s i => M.admits s i ∧ guard s i }

instance (guard : σ → ι → Prop) [∀ s i, Decidable (M.admits s i)]
    [∀ s i, Decidable (guard s i)] (s : σ) (i : ι) : Decidable ((M.restrict guard).admits s i) :=
  inferInstanceAs (Decidable (_ ∧ _))

theorem Run.of_restrict {guard : σ → ι → Prop} {s t : σ} {tr : List (ι × ο)}
    (h : (M.restrict guard).Run s tr t) : M.Run s tr t := by
  induction h with
  | nil => exact .nil _
  | snoc i _ ha ih => exact ih.snoc i ha.1

theorem Run.restrict_mono {guard guard' : σ → ι → Prop} {s t : σ} {tr : List (ι × ο)}
    (himp : ∀ s i, guard s i → guard' s i) (h : (M.restrict guard).Run s tr t) :
    (M.restrict guard').Run s tr t := by
  induction h with
  | nil => exact .nil _
  | snoc i _ ha ih => exact ih.snoc i ⟨ha.1, himp _ _ ha.2⟩

theorem Reachable.of_restrict {guard : σ → ι → Prop} {s : σ}
    (h : (M.restrict guard).Reachable s) : M.Reachable s := by
  obtain ⟨s₀, tr, h₀, hr⟩ := h
  exact ⟨s₀, tr, h₀, hr.of_restrict⟩

def play (M : Machine σ ι ο) : σ → List ι → σ × List (ι × ο)
  | s, [] => (s, [])
  | s, i :: is =>
    let r := play M (M.exec s i).1 is
    (r.1, (i, (M.exec s i).2) :: r.2)

def AdmitsAll (M : Machine σ ι ο) : σ → List ι → Prop
  | _, [] => True
  | s, i :: is => M.admits s i ∧ AdmitsAll M (M.exec s i).1 is

instance decidableAdmitsAll (M : Machine σ ι ο) [∀ s i, Decidable (M.admits s i)] :
    ∀ s is, Decidable (M.AdmitsAll s is)
  | _, [] => isTrue trivial
  | s, i :: is =>
    have := decidableAdmitsAll M (M.exec s i).1 is
    inferInstanceAs (Decidable (_ ∧ _))

theorem run_play (s : σ) (is : List ι) (h : M.AdmitsAll s is) :
    M.Run s (M.play s is).2 (M.play s is).1 := by
  induction is generalizing s with
  | nil => exact .nil s
  | cons i is ih => exact (Run.snoc i (.nil s) h.1).trans (ih _ h.2)

end Machine
