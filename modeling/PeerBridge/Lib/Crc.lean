import Mathlib.Data.Nat.Bitwise

namespace Crc
variable {w : Nat}

def step (poly v : BitVec w) : BitVec w :=
  (v >>> 1) ^^^ (if v.getLsbD 0 then poly else 0)

def steps (poly : BitVec w) : Nat → BitVec w → BitVec w
  | 0, v => v
  | n + 1, v => steps poly n (step poly v)

def mask (w n : Nat) : BitVec w := BitVec.ofNat w (2 ^ n - 1)

variable (poly : BitVec w)

theorem step_xor (u v : BitVec w) : step poly (u ^^^ v) = step poly u ^^^ step poly v := by
  apply BitVec.eq_of_getLsbD_eq
  intro i _
  simp only [step, BitVec.getLsbD_xor, BitVec.getLsbD_ushiftRight]
  cases u.getLsbD 0 <;> cases v.getLsbD 0 <;> cases u.getLsbD (1 + i) <;>
    cases v.getLsbD (1 + i) <;> cases poly.getLsbD i <;> simp_all

theorem steps_xor (n : Nat) (u v : BitVec w) :
    steps poly n (u ^^^ v) = steps poly n u ^^^ steps poly n v := by
  induction n generalizing u v with
  | zero => rfl
  | succ n ih => rw [steps, step_xor, ih, steps, steps]

-- while the low bits are clear a step only shifts
theorem steps_high (n : Nat) (v : BitVec w) (h : ∀ i < n, v.getLsbD i = false) :
    steps poly n v = v >>> n := by
  induction n generalizing v with
  | zero => simp [steps]
  | succ n ih =>
    have hstep : step poly v = v >>> 1 := by
      simp [step, h 0 (Nat.succ_pos n)]
    rw [steps, hstep, ih, Nat.add_comm n 1, BitVec.shiftRight_add]
    intro i hi
    rw [BitVec.getLsbD_ushiftRight]
    exact h (1 + i) (by omega)

theorem getLsbD_mask (n i : Nat) : (mask w n).getLsbD i = (decide (i < w) && decide (i < n)) := by
  rw [mask, BitVec.getLsbD_ofNat, Nat.testBit_two_pow_sub_one]

theorem steps_low (n : Nat) (v : BitVec w) :
    steps poly n v = (v >>> n) ^^^ steps poly n (v &&& mask w n) := by
  have hsplit : v = (v &&& ~~~ mask w n) ^^^ (v &&& mask w n) := by
    apply BitVec.eq_of_getLsbD_eq
    intro i hi
    simp only [BitVec.getLsbD_xor, BitVec.getLsbD_and, BitVec.getLsbD_not, hi, decide_true,
      Bool.true_and]
    cases v.getLsbD i <;> cases (mask w n).getLsbD i <;> rfl
  have hclear (i : Nat) (hi : i < n) : (v &&& ~~~ mask w n).getLsbD i = false := by
    rw [BitVec.getLsbD_and, BitVec.getLsbD_not, getLsbD_mask]
    by_cases hw : i < w
    · simp [hw, hi]
    · simp [hw]
  have hshift : (v &&& ~~~ mask w n) >>> n = v >>> n := by
    apply BitVec.eq_of_getLsbD_eq
    intro i _
    rw [BitVec.getLsbD_ushiftRight, BitVec.getLsbD_ushiftRight, BitVec.getLsbD_and,
      BitVec.getLsbD_not, getLsbD_mask]
    by_cases hw : n + i < w
    · simp [hw]
    · simp [BitVec.getLsbD_of_ge v (n + i) (by omega)]
  calc steps poly n v = steps poly n ((v &&& ~~~ mask w n) ^^^ (v &&& mask w n)) := by
        rw [← hsplit]
    _ = (v >>> n) ^^^ steps poly n (v &&& mask w n) := by
        rw [steps_xor, steps_high poly n _ hclear, hshift]

def absorb (v : BitVec w) (byte : UInt8) : BitVec w :=
  steps poly 8 (v ^^^ byte.toBitVec.setWidth w)

def bitwise (v : BitVec w) (bytes : List UInt8) : BitVec w := bytes.foldl (absorb poly) v

-- one table entry replaces the eight steps of a byte
theorem absorb_table (v : BitVec w) (byte : UInt8) : absorb poly v byte =
    (v >>> 8) ^^^ steps poly 8 ((v ^^^ byte.toBitVec.setWidth w) &&& mask w 8) := by
  have hbyte : byte.toBitVec.setWidth w >>> 8 = 0#w := by
    apply BitVec.eq_of_getLsbD_eq
    intro i _
    rw [BitVec.getLsbD_ushiftRight, BitVec.getLsbD_setWidth,
      BitVec.getLsbD_of_ge byte.toBitVec (8 + i) (by omega)]
    simp
  rw [absorb, steps_low, BitVec.ushiftRight_xor_distrib, hbyte, BitVec.xor_zero]

end Crc
