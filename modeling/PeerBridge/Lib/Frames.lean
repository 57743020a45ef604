import Mathlib.Data.List.Basic
import Mathlib.Tactic.Ring

namespace Frames

abbrev Bytes := List UInt8

/-- The `w` low base-256 digits of `n`, the leading one first. -/
def bigEndian : ℕ → ℕ → Bytes
  | 0, _ => []
  | w + 1, n => bigEndian w (n / 256) ++ [UInt8.ofNat (n % 256)]

@[simp] theorem length_bigEndian (w n : ℕ) : (bigEndian w n).length = w := by
  induction w generalizing n with
  | zero => rfl
  | succ w ih => simp [bigEndian, ih]

theorem digit_inj {a b : ℕ} (h : UInt8.ofNat (a % 256) = UInt8.ofNat (b % 256)) :
    a % 256 = b % 256 := by
  have hn := congrArg UInt8.toNat h
  simpa using hn

theorem bigEndian_inj {w a b : ℕ} (ha : a < 256 ^ w) (hb : b < 256 ^ w)
    (h : bigEndian w a = bigEndian w b) : a = b := by
  induction w generalizing a b with
  | zero =>
    rw [pow_zero] at ha hb
    omega
  | succ w ih =>
    obtain ⟨hi, lo⟩ := List.append_inj' h rfl
    have hlow := digit_inj (List.cons.inj lo).1
    have hhigh : a / 256 = b / 256 := by
      refine ih ?_ ?_ hi
      · exact Nat.div_lt_of_lt_mul (by rwa [pow_succ, mul_comm] at ha)
      · exact Nat.div_lt_of_lt_mul (by rwa [pow_succ, mul_comm] at hb)
    omega

section Cancel
variable {w : ℕ} {a b r s : Bytes}

/-- `xs` behind its own length in `w` bytes. -/
def prefixed (w : ℕ) (xs : Bytes) : Bytes := bigEndian w xs.length ++ xs

theorem prefixed_cancel (ha : a.length < 256 ^ w) (hb : b.length < 256 ^ w)
    (h : prefixed w a ++ r = prefixed w b ++ s) : a = b ∧ r = s := by
  rw [prefixed, prefixed, List.append_assoc, List.append_assoc] at h
  obtain ⟨hlen, hrest⟩ := List.append_inj h (by simp)
  exact List.append_inj hrest (bigEndian_inj ha hb hlen)

theorem sep_cancel {α : Type} {z : α} {a b r s : List α} (ha : z ∉ a) (hb : z ∉ b)
    (h : a ++ z :: r = b ++ z :: s) : a = b ∧ r = s := by
  induction a generalizing b with
  | nil =>
    cases b with
    | nil => exact ⟨rfl, (List.cons.inj h).2⟩
    | cons y b =>
      have hy : z = y := (List.cons.inj h).1
      exact absurd (hy ▸ List.mem_cons_self) hb
  | cons x a ih =>
    cases b with
    | nil =>
      have hx : x = z := (List.cons.inj h).1
      exact absurd (hx ▸ List.mem_cons_self) ha
    | cons y b =>
      obtain ⟨hx, ht⟩ := List.cons.inj h
      obtain ⟨hab, hrs⟩ := ih (fun hm => ha (List.mem_cons_of_mem x hm))
        (fun hm => hb (List.mem_cons_of_mem y hm)) ht
      exact ⟨by rw [hx, hab], hrs⟩

end Cancel

section Stream
variable {f g : Bytes × Bytes} {fs gs : List (Bytes × Bytes)} {r s : Bytes}

/-- One labelled payload. -/
def frame (f : Bytes × Bytes) : Bytes := prefixed 4 f.1 ++ prefixed 8 f.2

structure Fits (f : Bytes × Bytes) : Prop where
  label : f.1.length < 256 ^ 4
  payload : f.2.length < 256 ^ 8

theorem frame_cancel (hf : Fits f) (hg : Fits g) (h : frame f ++ r = frame g ++ s) :
    f = g ∧ r = s := by
  rw [frame, frame, List.append_assoc, List.append_assoc] at h
  obtain ⟨hl, h⟩ := prefixed_cancel hf.label hg.label h
  obtain ⟨hp, hr⟩ := prefixed_cancel hf.payload hg.payload h
  exact ⟨Prod.ext hl hp, hr⟩

theorem frame_ne_nil (f : Bytes × Bytes) : frame f ≠ [] := by
  intro h
  have hlen := congrArg List.length h
  simp [frame, prefixed] at hlen

def stream (fs : List (Bytes × Bytes)) : Bytes := fs.flatMap frame

@[simp] theorem stream_nil : stream [] = [] := rfl

theorem stream_cons (f : Bytes × Bytes) (fs : List (Bytes × Bytes)) :
    stream (f :: fs) = frame f ++ stream fs := List.flatMap_cons

theorem stream_append (fs gs : List (Bytes × Bytes)) :
    stream (fs ++ gs) = stream fs ++ stream gs := List.flatMap_append

theorem stream_ne_nil (f : Bytes × Bytes) (fs : List (Bytes × Bytes)) :
    stream (f :: fs) ≠ [] := by
  rw [stream_cons]
  exact List.append_ne_nil_of_left_ne_nil (frame_ne_nil f) _

theorem stream_inj (hf : ∀ f ∈ fs, Fits f) (hg : ∀ g ∈ gs, Fits g)
    (h : stream fs = stream gs) : fs = gs := by
  induction fs generalizing gs with
  | nil =>
    cases gs with
    | nil => rfl
    | cons g gs => exact absurd h.symm (stream_ne_nil g gs)
  | cons f fs ih =>
    cases gs with
    | nil => exact absurd h (stream_ne_nil f fs)
    | cons g gs =>
      rw [stream_cons, stream_cons] at h
      obtain ⟨hfg, hrest⟩ := frame_cancel (hf f List.mem_cons_self) (hg g List.mem_cons_self) h
      rw [hfg, ih (fun x hx => hf x (List.mem_cons_of_mem f hx))
        (fun x hx => hg x (List.mem_cons_of_mem g hx)) hrest]

end Stream

section Sections
variable {α β γ : Type} {t : α → List γ} {u : β → List γ} {xs xs' : List α} {ys ys' : List β}

/-- An encoding that can be read off the front of any list. -/
structure Cancels (t : α → List γ) : Prop where
  ne_nil : ∀ a, t a ≠ []
  cancel : ∀ {a b r s}, t a ++ r = t b ++ s → a = b ∧ r = s

theorem Cancels.cons_ne_nil (ht : Cancels t) (a : α) (r : List γ) : t a ++ r ≠ [] :=
  List.append_ne_nil_of_left_ne_nil (ht.ne_nil a) r

theorem Cancels.flatMap_inj (ht : Cancels t) (h : xs.flatMap t = xs'.flatMap t) : xs = xs' := by
  induction xs generalizing xs' with
  | nil =>
    cases xs' with
    | nil => rfl
    | cons x xs' => exact absurd h.symm (ht.cons_ne_nil x _)
  | cons x xs ih =>
    cases xs' with
    | nil => exact absurd h (ht.cons_ne_nil x _)
    | cons y xs' =>
      obtain ⟨hxy, hrest⟩ := ht.cancel h
      rw [hxy, ih hrest]

theorem Cancels.sections_inj (ht : Cancels t) (hu : Cancels u)
    (apart : ∀ a b r s, t a ++ r ≠ u b ++ s)
    (h : xs.flatMap t ++ ys.flatMap u = xs'.flatMap t ++ ys'.flatMap u) :
    xs = xs' ∧ ys = ys' := by
  induction xs generalizing xs' with
  | nil =>
    cases xs' with
    | nil => exact ⟨rfl, hu.flatMap_inj h⟩
    | cons x xs' =>
      rw [List.flatMap_cons, List.append_assoc] at h
      cases ys with
      | nil => exact absurd h.symm (ht.cons_ne_nil x _)
      | cons y ys => exact absurd h.symm (apart x y _ _)
  | cons x xs ih =>
    rw [List.flatMap_cons, List.append_assoc] at h
    cases xs' with
    | nil =>
      cases ys' with
      | nil => exact absurd h (ht.cons_ne_nil x _)
      | cons y ys' => exact absurd h (apart x y _ _)
    | cons z xs' =>
      rw [List.flatMap_cons, List.append_assoc] at h
      obtain ⟨hxz, hrest⟩ := ht.cancel h
      obtain ⟨hxs, hys⟩ := ih hrest
      exact ⟨by rw [hxz, hxs], hys⟩

end Sections

section Numerals
variable {b m n : ℕ}

def asciiByte (c : Char) : UInt8 := UInt8.ofNat c.toNat

def ascii (s : String) : Bytes := s.toList.map asciiByte

def numeral (b n : ℕ) : Bytes := (Nat.toDigits b n).map asciiByte

def readNumeral (b : ℕ) (xs : Bytes) : ℕ :=
  Nat.ofDigitChars b (xs.map (fun x => Char.ofNat x.toNat)) 0

theorem digit_bounds {c : Char} (h : c.isDigit = true) : 48 ≤ c.toNat ∧ c.toNat ≤ 57 :=
  Char.isDigit_iff_toNat.mp h

theorem toNat_asciiByte {c : Char} (h : c.isDigit = true) : (asciiByte c).toNat = c.toNat := by
  have hb := digit_bounds h
  exact UInt8.toNat_ofNat_of_lt' (by simp only [UInt8.size]; omega)

theorem readNumeral_numeral (hb : 1 < b) (hb' : b ≤ 10) (n : ℕ) :
    readNumeral b (numeral b n) = n := by
  have hback : (numeral b n).map (fun x => Char.ofNat x.toNat) = Nat.toDigits b n := by
    rw [numeral, List.map_map]
    refine (List.map_congr_left (fun c hc => ?_)).trans (List.map_id _)
    have hd := Nat.isDigit_of_mem_toDigits (by omega) hb' hc
    simp [toNat_asciiByte hd]
  rw [readNumeral, hback, Nat.ofDigitChars_toDigits hb hb']

theorem numeral_inj (hb : 1 < b) (hb' : b ≤ 10) (h : numeral b m = numeral b n) : m = n := by
  rw [← readNumeral_numeral hb hb' m, h, readNumeral_numeral hb hb' n]

theorem numeral_digit (hb : 1 < b) (hb' : b ≤ 10) {x : UInt8} (h : x ∈ numeral b n) :
    48 ≤ x.toNat ∧ x.toNat ≤ 57 := by
  obtain ⟨c, hc, rfl⟩ := List.mem_map.mp h
  have hd := Nat.isDigit_of_mem_toDigits (by omega) hb' hc
  rw [toNat_asciiByte hd]
  exact digit_bounds hd

theorem numeral_ne_zero (hb : 1 < b) (hb' : b ≤ 10) : (0 : UInt8) ∉ numeral b n := by
  intro h
  have := (numeral_digit hb hb' h).1
  simp at this

theorem readNumeral_zero_cons (b : ℕ) (xs : Bytes) :
    readNumeral b (48 :: xs) = readNumeral b xs := by
  simp [readNumeral, Nat.ofDigitChars_cons]

theorem readNumeral_padded (b m : ℕ) (xs : Bytes) :
    readNumeral b (List.replicate m 48 ++ xs) = readNumeral b xs := by
  induction m with
  | zero => rfl
  | succ m ih => rw [List.replicate_succ, List.cons_append, readNumeral_zero_cons, ih]

end Numerals

section Hex

def hexDigit (n : ℕ) : UInt8 := if n < 10 then UInt8.ofNat (48 + n) else UInt8.ofNat (87 + n)

def hex (xs : Bytes) : Bytes :=
  xs.flatMap (fun x => [hexDigit (x.toNat / 16), hexDigit (x.toNat % 16)])

theorem hexDigit_inj : ∀ m < 16, ∀ n < 16, hexDigit m = hexDigit n → m = n := by
  decide

theorem hex_cons (x : UInt8) (xs : Bytes) :
    hex (x :: xs) = hexDigit (x.toNat / 16) :: hexDigit (x.toNat % 16) :: hex xs := rfl

theorem hex_inj {xs ys : Bytes} (h : hex xs = hex ys) : xs = ys := by
  induction xs generalizing ys with
  | nil =>
    cases ys with
    | nil => rfl
    | cons y ys => cases h
  | cons x xs ih =>
    cases ys with
    | nil => cases h
    | cons y ys =>
      rw [hex_cons, hex_cons] at h
      obtain ⟨hi, h⟩ := List.cons.inj h
      obtain ⟨lo, h⟩ := List.cons.inj h
      have hx := x.toNat_lt
      have hy := y.toNat_lt
      have h1 := hexDigit_inj _ (by omega) _ (by omega) hi
      have h2 := hexDigit_inj _ (by omega) _ (by omega) lo
      have hxy : x = y := UInt8.toNat_inj.mp (by omega)
      rw [hxy, ih h]

end Hex

end Frames
