import Mathlib.Algebra.Order.BigOperators.Group.List
import Mathlib.Algebra.Order.Ring.Nat
import Mathlib.Algebra.Group.Action.Defs
import PeerBridge.Lib.JsonText

/-! The ASCII form of a JSON text: every character past the printable ASCII ones is escaped. -/

namespace JsonText

def hex4 (n : Nat) : List Char :=
  [hexDigit (n / 4096 % 16), hexDigit (n / 256 % 16), hexDigit (n / 16 % 16), hexDigit (n % 16)]

def asciiChar (c : Char) : List Char :=
  if c.toNat < 127 then [c]
  else if c.toNat < 0x10000 then '\\' :: 'u' :: hex4 c.toNat
  else
    '\\' :: 'u' :: hex4 (0xd800 + (c.toNat - 0x10000) / 0x400) ++
      '\\' :: 'u' :: hex4 (0xdc00 + (c.toNat - 0x10000) % 0x400)

def ascii (cs : List Char) : List Char := cs.flatMap asciiChar

def asciiSize (c : Char) : Nat :=
  if c.toNat < 127 then 1 else if c.toNat < 0x10000 then 6 else 12

theorem length_asciiChar (c : Char) : (asciiChar c).length = asciiSize c := by
  unfold asciiChar asciiSize
  split_ifs <;> rfl

theorem length_ascii (cs : List Char) : (ascii cs).length = weight asciiSize cs := by
  induction cs with
  | nil => rfl
  | cons c cs ih =>
    rw [ascii, List.flatMap_cons, List.length_append, length_asciiChar, weight_cons]
    exact congrArg (asciiSize c + ·) ih

section Weight
variable (w : Char → Nat)

theorem weight_separate_cons (x : List Char) (xs : List (List Char)) :
    weight w (separate (x :: xs)) = weight w x + (xs.map (fun y => w ',' + weight w y)).sum := by
  induction xs generalizing x with
  | nil => rfl
  | cons y ys ih =>
    rw [separate, weight_append, weight_cons, ih, List.map_cons, List.sum_cons]
    omega

theorem weight_separate_le (xs : List (List Char)) (n : Nat)
    (h : ∀ x ∈ xs, weight w x + w ',' ≤ n) : weight w (separate xs) ≤ xs.length * n := by
  cases xs with
  | nil => simp [separate]
  | cons x xs =>
    rw [weight_separate_cons, List.length_cons, Nat.succ_mul, Nat.add_comm]
    have hsum := List.sum_le_card_nsmul (xs.map (fun y => w ',' + weight w y)) n (by
      intro m hm
      obtain ⟨y, hy, rfl⟩ := List.mem_map.mp hm
      rw [Nat.add_comm]
      exact h y (List.mem_cons_of_mem _ hy))
    rw [List.length_map, smul_eq_mul] at hsum
    have hx := h x List.mem_cons_self
    omega

theorem le_weight_separate (xs : List (List Char)) (n : Nat) (h : ∀ x ∈ xs, n ≤ weight w x) :
    xs.length * n ≤ weight w (separate xs) := by
  cases xs with
  | nil => simp
  | cons x xs =>
    rw [weight_separate_cons, List.length_cons, Nat.succ_mul, Nat.add_comm]
    have hsum := List.card_nsmul_le_sum (xs.map (fun y => w ',' + weight w y)) n (by
      intro m hm
      obtain ⟨y, hy, rfl⟩ := List.mem_map.mp hm
      exact (h y (List.mem_cons_of_mem _ hy)).trans (Nat.le_add_left _ _))
    rw [List.length_map, smul_eq_mul] at hsum
    exact Nat.add_le_add (h x List.mem_cons_self) hsum

theorem weight_separate_sum {xs : List (List Char)} (h : xs ≠ []) :
    weight w (separate xs) + w ',' = (xs.map (fun x => w ',' + weight w x)).sum := by
  cases xs with
  | nil => exact absurd rfl h
  | cons x xs =>
    rw [weight_separate_cons, List.map_cons, List.sum_cons]
    omega

theorem weight_object_sum {fs : List (String × List Char)} (h : fs ≠ []) :
    weight w (object fs) + w ',' =
      w '\x7b' + w '\x7d' + (fs.map (fun f => w ',' + weight w (member f))).sum := by
  have hperm := fs.perm_insertionSort (fun a b => a.1 ≤ b.1)
  have hne : (fs.insertionSort (fun a b => a.1 ≤ b.1)).map member ≠ [] := by
    intro he
    rw [List.map_eq_nil_iff] at he
    rw [he] at hperm
    exact h hperm.nil_eq.symm
  have hsum := weight_separate_sum w hne
  rw [List.map_map, (hperm.map ((fun x => w ',' + weight w x) ∘ member)).sum_eq] at hsum
  simp only [object, weight_cons, weight_append, weight_nil]
  simp only [Function.comp_def] at hsum
  omega

/-- The length of an object changes by as much as the value of one member does. -/
theorem weight_object_member (fs gs : List (String × List Char)) (key : String)
    (x y : List Char) :
    weight w (object (fs ++ (key, x) :: gs)) + weight w y =
      weight w (object (fs ++ (key, y) :: gs)) + weight w x := by
  have hx := @weight_object_sum w (fs ++ (key, x) :: gs) (by simp)
  have hy := @weight_object_sum w (fs ++ (key, y) :: gs) (by simp)
  simp only [List.map_append, List.map_cons, List.sum_append, List.sum_cons, member, weight_append,
    weight_cons] at hx hy
  omega

end Weight

end JsonText
