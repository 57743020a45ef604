import PeerBridge.Lib.Machine

namespace Machine
variable {σ ι ο η : Type} (M : Machine σ ι ο) (note : σ → ι → ο → List η)

-- the machine beside a log that no step reads
def logging : Machine (σ × List η) ι ο where
  start x := M.start x.1 ∧ x.2 = []
  admits x i := M.admits x.1 i
  exec x i := (((M.exec x.1 i).1, x.2 ++ note x.1 i (M.exec x.1 i).2), (M.exec x.1 i).2)

instance [∀ s i, Decidable (M.admits s i)] (x : σ × List η) (i : ι) :
    Decidable ((M.logging note).admits x i) :=
  inferInstanceAs (Decidable (M.admits x.1 i))

variable {M note}

theorem Run.of_logging {x y : σ × List η} {tr : List (ι × ο)} (h : (M.logging note).Run x tr y) :
    M.Run x.1 tr y.1 := by
  induction h with
  | nil => exact .nil _
  | snoc i _ ha ih => exact ih.snoc i ha

theorem Reachable.of_logging {x : σ × List η} (h : (M.logging note).Reachable x) :
    M.Reachable x.1 := by
  obtain ⟨x₀, tr, h₀, hr⟩ := h
  exact ⟨x₀.1, tr, h₀.1, hr.of_logging⟩

-- the log takes no run away
theorem Run.logging {s t : σ} {tr : List (ι × ο)} (h : M.Run s tr t) (log : List η) :
    ∃ log', (M.logging note).Run (s, log) tr (t, log') := by
  induction h with
  | nil => exact ⟨log, .nil _⟩
  | snoc i _ ha ih =>
    obtain ⟨log', hr⟩ := ih
    exact ⟨_, hr.snoc i ha⟩

theorem Reachable.logging {s : σ} (h : M.Reachable s) :
    ∃ log, (M.logging note).Reachable (s, log) := by
  obtain ⟨s₀, tr, h₀, hr⟩ := h
  obtain ⟨log, hr⟩ := Run.logging hr []
  exact ⟨log, (s₀, []), tr, ⟨h₀, rfl⟩, hr⟩

end Machine
