import Mathlib.Data.List.Nodup

namespace Lease
variable {τ ρ : Type}

inductive Phase (τ ρ : Type) where
  | vacant
  | held (t : τ)
  | waiting
  | final (r : ρ)

structure Cell (τ ρ : Type) where
  phase : Phase τ ρ
  grants : Nat

inductive Label (τ : Type) where
  | quiet
  | grant (t : τ)
  | finish

def Cell.Final (c : Cell τ ρ) : Prop := ∃ r, c.phase = .final r

def Cell.Live (c : Cell τ ρ) : Prop := (∃ t, c.phase = .held t) ∨ c.phase = .waiting

inductive Quiet (c : Cell τ ρ) : Cell τ ρ → Prop
  | same : Quiet c c
  | released {t : τ} (h : c.phase = .held t) : Quiet c ⟨.waiting, c.grants⟩
  | settled (h : ¬ c.Final) (r : ρ) : Quiet c ⟨.final r, c.grants⟩

inductive Step (c : Cell τ ρ) : Label τ → Cell τ ρ → Prop
  | quiet {c' : Cell τ ρ} (h : Quiet c c') : Step c .quiet c'
  | grant (h : ¬ c.Final) (t : τ) : Step c (.grant t) ⟨.held t, c.grants + 1⟩
  | finish (h : ¬ c.Final) (r : ρ) : Step c .finish ⟨.final r, c.grants⟩

inductive Run : Cell τ ρ → List (Label τ) → Cell τ ρ → Prop
  | nil (c : Cell τ ρ) : Run c [] c
  | snoc {a b c : Cell τ ρ} {ls : List (Label τ)} {l : Label τ} :
      Run a ls b → Step b l c → Run a (ls ++ [l]) c

def granted : List (Label τ) → List τ
  | [] => []
  | .grant t :: ls => t :: granted ls
  | _ :: ls => granted ls

def finishes : List (Label τ) → Nat
  | [] => 0
  | .finish :: ls => finishes ls + 1
  | _ :: ls => finishes ls

theorem granted_append (xs ys : List (Label τ)) :
    granted (xs ++ ys) = granted xs ++ granted ys := by
  induction xs with
  | nil => rfl
  | cons l xs ih => cases l <;> simp [granted, ih]

theorem finishes_append (xs ys : List (Label τ)) :
    finishes (xs ++ ys) = finishes xs + finishes ys := by
  induction xs with
  | nil => simp [finishes]
  | cons l xs ih =>
    cases l with
    | quiet => exact ih
    | grant t => exact ih
    | finish =>
      show finishes (xs ++ ys) + 1 = finishes xs + 1 + finishes ys
      omega

theorem not_final_of_held {c : Cell τ ρ} {t : τ} (h : c.phase = .held t) : ¬ c.Final := by
  rintro ⟨r, hr⟩
  simp [h] at hr

theorem Quiet.trans {a b c : Cell τ ρ} (h : Quiet a b) (k : Quiet b c) : Quiet a c := by
  cases h with
  | same => exact k
  | released hf =>
    cases k with
    | same => exact .released hf
    | released hn => simp at hn
    | settled _ r => exact .settled (not_final_of_held hf) r
  | settled hf r =>
    cases k with
    | same => exact .settled hf r
    | released hn => simp at hn
    | settled hn _ => exact absurd ⟨r, rfl⟩ hn

theorem Step.final {c c' : Cell τ ρ} {l : Label τ} (h : Step c l c') (hf : c.Final) :
    c' = c ∧ l = .quiet := by
  cases h with
  | quiet h =>
    cases h with
    | same => exact ⟨rfl, rfl⟩
    | released hn => exact absurd hf (not_final_of_held hn)
    | settled hn _ => exact absurd hf hn
  | grant hn _ => exact absurd hf hn
  | finish hn _ => exact absurd hf hn

theorem Step.grants {c c' : Cell τ ρ} {l : Label τ} (h : Step c l c') :
    c'.grants = c.grants + (granted [l]).length := by
  cases h with
  | quiet h => cases h <;> rfl
  | grant _ _ => rfl
  | finish _ _ => rfl

theorem Step.held {c c' : Cell τ ρ} {l : Label τ} {t : τ} (h : Step c l c')
    (ht : c'.phase = .held t) : c.phase = .held t ∨ l = .grant t := by
  cases h with
  | quiet h =>
    cases h with
    | same => exact .inl ht
    | released _ => simp at ht
    | settled _ _ => simp at ht
  | grant _ u =>
    obtain rfl : u = t := by simpa using ht
    exact .inr rfl
  | finish _ _ => simp at ht

-- only a grant brings a cell to life
theorem Step.live {c c' : Cell τ ρ} {l : Label τ} (h : Step c l c') (hl : c'.Live) :
    c.Live ∨ ∃ t, l = .grant t := by
  cases h with
  | quiet h =>
    cases h with
    | same => exact .inl hl
    | released hf => exact .inl (.inl ⟨_, hf⟩)
    | settled _ r => simp [Cell.Live] at hl
  | grant _ t => exact .inr ⟨t, rfl⟩
  | finish _ r => simp [Cell.Live] at hl

theorem Run.final {c c' : Cell τ ρ} {ls : List (Label τ)} (h : Run c ls c') (hf : c.Final) :
    c' = c := by
  induction h with
  | nil => rfl
  | snoc h k ih =>
    rw [ih] at k
    exact (k.final hf).1

theorem Run.grants {c c' : Cell τ ρ} {ls : List (Label τ)} (h : Run c ls c') :
    c'.grants = c.grants + (granted ls).length := by
  induction h with
  | nil => rfl
  | snoc _ k ih => rw [k.grants, ih, granted_append, List.length_append, Nat.add_assoc]

theorem Run.held {c c' : Cell τ ρ} {ls : List (Label τ)} {t : τ} (h : Run c ls c')
    (ht : c'.phase = .held t) : c.phase = .held t ∨ t ∈ granted ls := by
  induction h with
  | nil => exact .inl ht
  | snoc _ k ih =>
    rw [granted_append]
    rcases k.held ht with hb | rfl
    · exact (ih hb).imp id (List.mem_append_left _)
    · exact .inr (List.mem_append_right _ (by simp [granted]))

theorem Run.finish_once {c c' : Cell τ ρ} {ls : List (Label τ)} (h : Run c ls c') :
    finishes ls ≤ 1 ∧ (finishes ls = 1 → c'.Final) := by
  induction h with
  | nil => exact ⟨Nat.zero_le _, fun h => by simp [finishes] at h⟩
  | @snoc b c' ls l _ k ih =>
    rw [finishes_append]
    by_cases hf : b.Final
    · obtain ⟨rfl, rfl⟩ := k.final hf
      exact ⟨by simpa [finishes] using ih.1, fun _ => hf⟩
    · have h0 : finishes ls = 0 := by
        have h1 := ih.1
        have h2 := mt ih.2 hf
        omega
      cases k with
      | quiet k => exact ⟨by simp [h0, finishes], fun h => by simp [h0, finishes] at h⟩
      | grant _ _ => exact ⟨by simp [h0, finishes], fun h => by simp [h0, finishes] at h⟩
      | finish _ r => exact ⟨by simp [h0, finishes], fun _ => ⟨r, rfl⟩⟩

end Lease
