import Mathlib.Logic.Basic

/-! Programs whose errors keep the state they were raised in. -/

namespace Attempt

def Program (σ ε α : Type) : Type := σ → σ × Except ε α

variable {σ ε α β : Type}

instance : Monad (Program σ ε) where
  pure a s := (s, .ok a)
  bind m f s :=
    match m s with
    | (t, .ok a) => f a t
    | (t, .error e) => (t, .error e)

theorem bind_apply (m : Program σ ε α) (f : α → Program σ ε β) (s : σ) :
    (m >>= f) s = match m s with
      | (t, .ok a) => f a t
      | (t, .error e) => (t, .error e) := rfl

def raise (e : ε) : Program σ ε α := fun s => (s, .error e)

def read (f : σ → α) : Program σ ε α := fun s => (s, .ok (f s))

def change (f : σ → σ) : Program σ ε Unit := fun s => (f s, .ok ())

def lift (x : Except ε α) : Program σ ε α := fun s => (s, x)

def require (c : Prop) [Decidable c] (e : ε) : Program σ ε Unit := if c then pure () else raise e

theorem require_bind_apply {c : Prop} [Decidable c] (e : ε) (f : Unit → Program σ ε β) (s : σ) :
    (require c e >>= f) s = if c then f () s else (s, .error e) := by
  by_cases hc : c
  · rw [require, if_pos hc, if_pos hc]
    rfl
  · rw [require, if_neg hc, if_neg hc]
    rfl

def each (f : β → Program σ ε Unit) : List β → Program σ ε Unit
  | [] => pure ()
  | x :: xs => do
    f x
    each f xs

/-- The handler takes over the errors it is for, in the state they left. -/
def rescue (p : ε → Bool) (m : Program σ ε α) (h : ε → Program σ ε α) : Program σ ε α := fun s =>
  match m s with
  | (t, .error e) => if p e = true then h e t else (t, .error e)
  | r => r

/-- From `P` the program returns in `Q` and raises in `E`. -/
def Meets (P : σ → Prop) (m : Program σ ε α) (Q : α → σ → Prop) (E : ε → σ → Prop) : Prop :=
  ∀ s, P s → match m s with
    | (t, .ok a) => Q a t
    | (t, .error e) => E e t

section Rules
variable {P P' : σ → Prop} {Q Q' : α → σ → Prop} {E E' : ε → σ → Prop} {m : Program σ ε α}

theorem Meets.pre (hm : Meets P m Q E) (hp : ∀ s, P' s → P s) : Meets P' m Q E :=
  fun s hs => hm s (hp s hs)

theorem Meets.post (hm : Meets P m Q E) (hq : ∀ a s, Q a s → Q' a s)
    (he : ∀ e s, E e s → E' e s) : Meets P m Q' E' := by
  intro s hs
  have h := hm s hs
  split at h
  · exact hq _ _ h
  · exact he _ _ h

theorem Meets.pure {a : α} (h : ∀ s, P s → Q a s) : Meets P (pure a : Program σ ε α) Q E :=
  fun s hs => h s hs

theorem Meets.bind {f : α → Program σ ε β} {R : β → σ → Prop} (hm : Meets P m Q E)
    (hf : ∀ a, Meets (Q a) (f a) R E) : Meets P (m >>= f) R E := by
  intro s hs
  have h := hm s hs
  simp only [Bind.bind]
  split at h
  · exact hf _ _ h
  · exact h

theorem Meets.raise {e : ε} (h : ∀ s, P s → E e s) : Meets P (raise e : Program σ ε α) Q E :=
  fun s hs => h s hs

theorem Meets.read {f : σ → α} (h : ∀ s, P s → Q (f s) s) :
    Meets P (read f : Program σ ε α) Q E := fun s hs => h s hs

theorem Meets.change {f : σ → σ} {Q : Unit → σ → Prop} (h : ∀ s, P s → Q () (f s)) :
    Meets P (change f : Program σ ε Unit) Q E := fun s hs => h s hs

theorem Meets.lift {x : Except ε α} (hq : ∀ a s, x = .ok a → P s → Q a s)
    (he : ∀ e s, x = .error e → P s → E e s) : Meets P (lift x : Program σ ε α) Q E := by
  intro s hs
  cases x with
  | ok a => exact hq a s rfl hs
  | error e => exact he e s rfl hs

theorem Meets.require {c : Prop} [Decidable c] {e : ε} {Q : Unit → σ → Prop}
    (hq : ∀ s, P s → c → Q () s) (he : ∀ s, P s → ¬ c → E e s) :
    Meets P (require c e : Program σ ε Unit) Q E := by
  by_cases hc : c
  · rw [Attempt.require, if_pos hc]
    exact .pure (fun s hs => hq s hs hc)
  · rw [Attempt.require, if_neg hc]
    exact .raise (fun s hs => he s hs hc)

theorem Meets.given {c : Prop} (hm : c → Meets P m Q E) : Meets (fun s => P s ∧ c) m Q E :=
  fun s hs => hm hs.2 s hs.1

theorem Meets.rescue {p : ε → Bool} {h : ε → Program σ ε α} (hm : Meets P m Q E)
    (hh : ∀ e, p e = true → Meets (E e) (h e) Q E') (hne : ∀ e s, p e = false → E e s → E' e s) :
    Meets P (rescue p m h) Q E' := by
  intro s hs
  have hr := hm s hs
  simp only [Attempt.rescue]
  split at hr
  · rename_i t a he
    rw [he]
    exact hr
  · rename_i t e he
    rw [he]
    by_cases hp : p e = true
    · simp only [if_pos hp]
      exact hh e hp t hr
    · simp only [if_neg hp]
      exact hne e t (Bool.eq_false_iff.mpr hp) hr

theorem Meets.reading {γ : Type} {f : σ → γ} {g : γ → Program σ ε α}
    (hm : ∀ c, Meets (fun s => P s ∧ f s = c) (g c) Q E) : Meets P (Attempt.read f >>= g) Q E :=
  fun s hs => hm (f s) s ⟨hs, rfl⟩

theorem Meets.changing {f : σ → σ} {g : Unit → Program σ ε α} (h : ∀ s, P s → P' (f s))
    (hm : Meets P' (g ()) Q E) : Meets P (Attempt.change f >>= g) Q E :=
  fun s hs => hm (f s) (h s hs)

theorem Meets.lifting {γ : Type} {x : Except ε γ} {g : γ → Program σ ε α}
    (he : ∀ e s, x = .error e → P s → E e s) (hm : ∀ c, x = .ok c → Meets P (g c) Q E) :
    Meets P (Attempt.lift x >>= g) Q E :=
  (Meets.lift (Q := fun c s => P s ∧ x = .ok c) (fun _ _ hx hs => ⟨hs, hx⟩) he).bind
    (fun c => Meets.given (hm c))

theorem Meets.guard {c : Prop} [Decidable c] {e : ε} {g : Unit → Program σ ε α}
    (he : ∀ s, P s → ¬ c → E e s) (hm : c → Meets P (g ()) Q E) :
    Meets P (Attempt.require c e >>= g) Q E :=
  (Meets.require (Q := fun _ s => P s ∧ c) (fun _ hs hc => ⟨hs, hc⟩) he).bind
    (fun _ => Meets.given hm)

/-- A loop whose invariant names the rounds to come. -/
theorem Meets.eachRest {I : List β → σ → Prop} {f : β → Program σ ε Unit}
    (hf : ∀ x xs, Meets (I (x :: xs)) (f x) (fun _ => I xs) E) (xs : List β) :
    Meets (I xs) (each f xs) (fun _ => I []) E := by
  induction xs with
  | nil => exact .pure (fun _ hs => hs)
  | cons x xs ih => exact (hf x xs).bind (fun _ => ih)

theorem Meets.returns (hm : Meets P m Q E) {s t : σ} {a : α} (hs : P s) (h : m s = (t, .ok a)) :
    Q a t := by
  have hr := hm s hs
  rw [h] at hr
  exact hr

/-- What holds however the program ends. -/
theorem Meets.always {I : σ → Prop} (hm : Meets P m (fun _ => I) (fun _ => I)) {s : σ} (hs : P s) :
    I (m s).1 := by
  have h := hm s hs
  split at h
  · rename_i t a he
    rw [he]
    exact h
  · rename_i t e he
    rw [he]
    exact h

end Rules

end Attempt
