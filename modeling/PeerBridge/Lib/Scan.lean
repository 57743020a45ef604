import Mathlib.Order.Basic

structure Scan (σ ρ : Type) where
  limit : Nat
  pos : σ → Nat
  step : σ → Except ρ σ
  finish : σ → ρ
  advances : ∀ s t, pos s < limit → step s = .ok t → pos s < pos t

namespace Scan
variable {σ ρ ρ' : Type}

-- a loop over a bounded position: a step returns or moves the position on
def run (S : Scan σ ρ) (s : σ) : ρ :=
  if _h : S.pos s < S.limit then
    match _hs : S.step s with
    | .error r => r
    | .ok t => S.run t
  else S.finish s
termination_by S.limit - S.pos s
decreasing_by
  have := S.advances s t _h _hs
  omega

variable {S : Scan σ ρ} {T : Scan σ ρ'} {s t : σ} {r : ρ}

theorem run_error (h : S.pos s < S.limit) (hs : S.step s = .error r) : S.run s = r := by
  rw [run, dif_pos h]
  split
  · next heq => exact Except.error.inj (heq.symm.trans hs)
  · next heq => simp [hs] at heq

theorem run_next (h : S.pos s < S.limit) (hs : S.step s = .ok t) : S.run s = S.run t := by
  rw [run, dif_pos h]
  split
  · next heq => simp [hs] at heq
  · next heq => rw [Except.ok.inj (heq.symm.trans hs)]

theorem run_end (h : ¬ S.pos s < S.limit) : S.run s = S.finish s := by
  rw [run, dif_neg h]

-- loops whose steps agree up to f return the same up to f
theorem run_map (f : ρ → ρ') (hlimit : T.limit = S.limit) (hpos : T.pos = S.pos)
    (hstep : ∀ s, S.pos s < S.limit → T.step s = (S.step s).mapError f)
    (hfinish : ∀ s, T.finish s = f (S.finish s)) (s : σ) : T.run s = f (S.run s) := by
  have hbelow {s : σ} (h : S.pos s < S.limit) : T.pos s < T.limit := by rwa [hlimit, hpos]
  induction s using Scan.run.induct S with
  | case1 s h r hs =>
    have ht : T.step s = .error (f r) := by rw [hstep s h, hs]; rfl
    rw [run_error h hs, run_error (hbelow h) ht]
  | case2 s h t hs ih =>
    have ht : T.step s = .ok t := by rw [hstep s h, hs]; rfl
    rw [run_next h hs, run_next (hbelow h) ht, ih]
  | case3 s h =>
    have ht : ¬ T.pos s < T.limit := by rwa [hlimit, hpos]
    rw [run_end h, run_end ht, hfinish]

end Scan
