import Mathlib.Logic.Basic

/-! Programs whose effects may fail, take place with a lost response, or be cut off. -/

namespace Interrupt

inductive Stop (ρ : Type) where
  | thrown
  | crashed
  | answered (r : ρ)

inductive Outcome where
  | done
  | lost
  | refused
  | crashed (applied : Bool)
  deriving DecidableEq, Repr

def Program (σ ρ α : Type) : Type := σ → σ × Except (Stop ρ) α

variable {σ ρ α β : Type}

instance : Monad (Program σ ρ) where
  pure a s := (s, .ok a)
  bind m f s :=
    match m s with
    | (t, .ok a) => f a t
    | (t, .error e) => (t, .error e)

def Outcome.applied : Outcome → Bool
  | .done | .lost => true
  | .refused => false
  | .crashed b => b

def Outcome.result : Outcome → Except (Stop ρ) Unit
  | .done => .ok ()
  | .lost | .refused => .error .thrown
  | .crashed _ => .error .crashed

def act (o : Outcome) (f : σ → σ) : Program σ ρ Unit := fun s =>
  (if o.applied then f s else s, o.result)

def read (o : Outcome) (f : σ → α) : Program σ ρ α := fun s =>
  (s, o.result.map (fun _ => f s))

def answer (r : ρ) : Program σ ρ α := fun s => (s, .error (.answered r))

def require (c : Prop) [Decidable c] (r : ρ) : Program σ ρ Unit :=
  if c then pure () else answer r

def rescue (m h : Program σ ρ α) : Program σ ρ α := fun s =>
  match m s with
  | (t, .error .thrown) => h t
  | r => r

def each (f : β → Program σ ρ Unit) : List β → Program σ ρ Unit
  | [] => pure ()
  | x :: xs => do
    f x
    each f xs

theorem bind_apply (m : Program σ ρ α) (f : α → Program σ ρ β) (s : σ) :
    (m >>= f) s = match m s with
      | (t, .ok a) => f a t
      | (t, .error e) => (t, .error e) := rfl

theorem bind_assoc {γ : Type} (m : Program σ ρ α) (f : α → Program σ ρ β)
    (g : β → Program σ ρ γ) : m >>= f >>= g = m >>= fun a => f a >>= g := by
  funext s
  simp only [bind_apply]
  rcases m s with ⟨t, e | a⟩ <;> rfl

theorem require_bind_apply {c : Prop} [Decidable c] (r : ρ) (f : Unit → Program σ ρ β) (s : σ) :
    (require c r >>= f) s = if c then f () s else (s, .error (.answered r)) := by
  by_cases hc : c
  · rw [require, if_pos hc, if_pos hc]
    rfl
  · rw [require, if_neg hc, if_neg hc]
    rfl

theorem pure_bind (a : α) (f : α → Program σ ρ β) : (pure a : Program σ ρ α) >>= f = f a := rfl

/-- From `P` the program ends in `Q`, raises in `T`, and is otherwise left in `E`. -/
def Meets (P : σ → Prop) (m : Program σ ρ α) (Q : α → σ → Prop) (T E : σ → Prop) : Prop :=
  ∀ s, P s → match m s with
    | (t, .ok a) => Q a t
    | (t, .error .thrown) => T t
    | (t, .error _) => E t

section Rules
variable {P P' T T' E : σ → Prop} {Q R : α → σ → Prop} {m h : Program σ ρ α}

theorem Meets.pre (hm : Meets P m Q T E) (hp : ∀ s, P' s → P s) : Meets P' m Q T E :=
  fun s hs => hm s (hp s hs)

theorem Meets.pure {a : α} (h : ∀ s, P s → Q a s) : Meets P (pure a : Program σ ρ α) Q T E :=
  fun s hs => h s hs

theorem Meets.bind {f : α → Program σ ρ β} {R : β → σ → Prop} (hm : Meets P m Q T E)
    (hf : ∀ a, Meets (Q a) (f a) R T E) : Meets P (m >>= f) R T E := by
  intro s hs
  have h := hm s hs
  simp only [Bind.bind]
  split at h
  · rename_i t a he
    rw [he]
    exact hf a t h
  · rename_i t he
    rw [he]
    exact h
  · rename_i t e hne he
    rw [he]
    cases e with
    | thrown => exact (hne rfl).elim
    | crashed => exact h
    | answered r => exact h

theorem Meets.act {o : Outcome} {f : σ → σ} {Q : Unit → σ → Prop}
    (hdone : o = .done → ∀ s, P s → Q () (f s)) (hlost : o = .lost → ∀ s, P s → T (f s))
    (hrefused : ∀ s, P s → T s) (hcrash : ∀ s, P s → E s ∧ E (f s)) :
    Meets P (act o f : Program σ ρ Unit) Q T E := by
  intro s hs
  cases o with
  | done => exact hdone rfl s hs
  | lost => exact hlost rfl s hs
  | refused => exact hrefused s hs
  | crashed applied =>
    cases applied with
    | false => exact (hcrash s hs).1
    | true => exact (hcrash s hs).2

theorem Meets.read {o : Outcome} {f : σ → α} (hq : ∀ s, P s → Q (f s) s) (ht : ∀ s, P s → T s)
    (he : ∀ s, P s → E s) : Meets P (read o f : Program σ ρ α) Q T E := by
  intro s hs
  cases o with
  | done => exact hq s hs
  | lost => exact ht s hs
  | refused => exact ht s hs
  | crashed applied => exact he s hs

theorem Meets.answer {r : ρ} (he : ∀ s, P s → E s) :
    Meets P (answer r : Program σ ρ α) Q T E := fun s hs => he s hs

theorem Meets.require {c : Prop} [Decidable c] {r : ρ} {Q : Unit → σ → Prop}
    (hq : ∀ s, P s → c → Q () s) (he : ∀ s, P s → E s) :
    Meets P (require c r : Program σ ρ Unit) Q T E := by
  by_cases hc : c
  · rw [Interrupt.require, if_pos hc]
    exact .pure (fun s hs => hq s hs hc)
  · rw [Interrupt.require, if_neg hc]
    exact .answer he

theorem Meets.check {c : Prop} [Decidable c] {r : ρ} (he : ∀ s, P s → E s) :
    Meets P (Interrupt.require c r : Program σ ρ Unit) (fun _ s => P s ∧ c) T E :=
  .require (fun _ hs hc => ⟨hs, hc⟩) he

theorem Meets.given {c : Prop} (hm : c → Meets P m Q T E) : Meets (fun s => P s ∧ c) m Q T E :=
  fun s hs => hm hs.2 s hs.1

theorem Meets.rescue (hm : Meets P m Q T E) (hh : Meets T h Q T' E) :
    Meets P (rescue m h) Q T' E := by
  intro s hs
  have hr := hm s hs
  simp only [Interrupt.rescue]
  split at hr
  · rename_i t a he
    rw [he]
    exact hr
  · rename_i t he
    rw [he]
    exact hh t hr
  · rename_i t e hne he
    rw [he]
    cases e with
    | thrown => exact (hne rfl).elim
    | crashed => exact hr
    | answered r => exact hr

theorem Meets.each {I : σ → Prop} {f : β → Program σ ρ Unit} {xs : List β}
    (hf : ∀ x, Meets I (f x) (fun _ => I) I I) : Meets I (each f xs) (fun _ => I) I I := by
  induction xs with
  | nil => exact .pure (fun _ hs => hs)
  | cons x xs ih => exact (hf x).bind (fun _ => ih)

/-- A loop whose invariant names the rounds to come. -/
theorem Meets.eachRest {I : List β → σ → Prop} {f : β → Program σ ρ Unit}
    (hf : ∀ x xs, Meets (I (x :: xs)) (f x) (fun _ => I xs) T E) (xs : List β) :
    Meets (I xs) (Interrupt.each f xs) (fun _ => I []) T E := by
  induction xs with
  | nil => exact .pure (fun _ hs => hs)
  | cons x xs ih => exact (hf x xs).bind (fun _ => ih)

/-- A program that only reads. -/
def Steady (m : Program σ ρ α) : Prop := ∀ s, (m s).1 = s

theorem Steady.pure (a : α) : Steady (pure a : Program σ ρ α) := fun _ => rfl

theorem Steady.read (o : Outcome) (f : σ → α) : Steady (read o f : Program σ ρ α) := fun _ => rfl

theorem Steady.answer (r : ρ) : Steady (answer r : Program σ ρ α) := fun _ => rfl

theorem Steady.require (c : Prop) [Decidable c] (r : ρ) :
    Steady (require c r : Program σ ρ Unit) := by
  intro s
  rw [Interrupt.require]
  split <;> rfl

theorem Steady.bind {f : α → Program σ ρ β} (hm : Steady m) (hf : ∀ a, Steady (f a)) :
    Steady (m >>= f) := by
  intro s
  have hs := hm s
  rw [bind_apply]
  match hr : m s with
  | (t, .ok a) =>
    rw [hr] at hs
    exact (hf a t).trans hs
  | (t, .error e) =>
    rw [hr] at hs
    exact hs

theorem Steady.meets {I : σ → Prop} (hm : Steady m) : Meets I m (fun _ => I) I I := by
  intro s hs
  have hend : I (m s).1 := by
    rw [hm s]
    exact hs
  split
  · rename_i t a hr
    rwa [hr] at hend
  · rename_i t hr
    rwa [hr] at hend
  · rename_i t e _ hr
    rwa [hr] at hend

/-- What holds however the program stops. -/
theorem Meets.always {I : σ → Prop} {Q : α → σ → Prop} (hm : Meets P m Q I I)
    (hq : ∀ a s, Q a s → I s) {s : σ} (hs : P s) : I (m s).1 := by
  have h := hm s hs
  split at h
  · rename_i t a he
    rw [he]
    exact hq a t h
  · rename_i t he
    rw [he]
    exact h
  · rename_i t e hne he
    rw [he]
    exact h

end Rules

end Interrupt
