import Mathlib.Algebra.GroupWithZero.Nat
import Mathlib.Data.List.Sort

namespace JsonText

def hexDigit (n : Nat) : Char := Char.ofNat (if n < 10 then 48 + n else 87 + n)

def escapeChar (c : Char) : List Char :=
  if c = '"' then ['\\', '"']
  else if c = '\\' then ['\\', '\\']
  else if c = '\n' then ['\\', 'n']
  else if c = '\r' then ['\\', 'r']
  else if c = '\t' then ['\\', 't']
  else if c = Char.ofNat 8 then ['\\', 'b']
  else if c = Char.ofNat 12 then ['\\', 'f']
  else if c.toNat < 32 then
    ['\\', 'u', '0', '0', hexDigit (c.toNat / 16), hexDigit (c.toNat % 16)]
  else [c]

def escape (t : List Char) : List Char := t.flatMap escapeChar

def quote (t : List Char) : List Char := '"' :: (escape t ++ ['"'])

def hexDigitValue (c : Char) : Nat := if c.toNat < 58 then c.toNat - 48 else c.toNat - 87

def unescape : List Char → Option (Char × List Char)
  | '\\' :: '"' :: r => some ('"', r)
  | '\\' :: '\\' :: r => some ('\\', r)
  | '\\' :: 'n' :: r => some ('\n', r)
  | '\\' :: 'r' :: r => some ('\r', r)
  | '\\' :: 't' :: r => some ('\t', r)
  | '\\' :: 'b' :: r => some (Char.ofNat 8, r)
  | '\\' :: 'f' :: r => some (Char.ofNat 12, r)
  | '\\' :: 'u' :: '0' :: '0' :: a :: b :: r =>
    some (Char.ofNat (hexDigitValue a * 16 + hexDigitValue b), r)
  | '"' :: _ => none
  | c :: r => some (c, r)
  | [] => none

theorem hexDigit_value : ∀ n < 16, hexDigitValue (hexDigit n) = n := by decide

theorem unescape_control (n : Nat) (hn : n < 32) (r : List Char) :
    unescape ('\\' :: 'u' :: '0' :: '0' :: hexDigit (n / 16) :: hexDigit (n % 16) :: r) =
      some (Char.ofNat n, r) := by
  have hhigh : hexDigitValue (hexDigit (n / 16)) = n / 16 := hexDigit_value _ (by omega)
  have hlow : hexDigitValue (hexDigit (n % 16)) = n % 16 := hexDigit_value _ (by omega)
  rw [unescape, hhigh, hlow, show n / 16 * 16 + n % 16 = n by omega]

theorem unescape_plain {c : Char} (hq : c ≠ '"') (hb : c ≠ '\\') (r : List Char) :
    unescape (c :: r) = some (c, r) := by
  unfold unescape
  split <;> simp_all

theorem unescape_escape (c : Char) (r : List Char) :
    unescape (escapeChar c ++ r) = some (c, r) := by
  unfold escapeChar
  split_ifs with h1 h2 h3 h4 h5 h6 h7 h8
  · rw [h1]; rfl
  · rw [h2]; rfl
  · rw [h3]; rfl
  · rw [h4]; rfl
  · rw [h5]; rfl
  · rw [h6]; rfl
  · rw [h7]; rfl
  · simpa using unescape_control c.toNat h8 r
  · exact unescape_plain h1 h2 r

theorem unescape_quote (r : List Char) : unescape ('"' :: r) = none := rfl

theorem escape_cancel {t u r s : List Char}
    (h : escape t ++ '"' :: r = escape u ++ '"' :: s) : t = u ∧ r = s := by
  induction t generalizing u with
  | nil =>
    cases u with
    | nil => exact ⟨rfl, by simpa [escape] using h⟩
    | cons d u =>
      have hd := congrArg unescape h
      simp only [escape, List.flatMap_nil, List.nil_append, List.flatMap_cons,
        List.append_assoc, unescape_quote, unescape_escape] at hd
      exact absurd hd (by simp)
  | cons c t ih =>
    cases u with
    | nil =>
      have hd := congrArg unescape h
      simp only [escape, List.flatMap_nil, List.nil_append, List.flatMap_cons,
        List.append_assoc, unescape_quote, unescape_escape] at hd
      exact absurd hd (by simp)
    | cons d u =>
      have hd := congrArg unescape h
      simp only [escape, List.flatMap_cons, List.append_assoc, unescape_escape,
        Option.some.injEq, Prod.mk.injEq] at hd
      obtain ⟨rfl, htail⟩ := hd
      obtain ⟨rfl, hr⟩ := ih htail
      exact ⟨rfl, hr⟩

theorem quote_cancel {t u r s : List Char} (h : quote t ++ r = quote u ++ s) : t = u ∧ r = s := by
  simp only [quote, List.cons_append, List.append_assoc, List.cons.injEq, true_and,
    List.nil_append] at h
  exact escape_cancel h

def separate : List (List Char) → List Char
  | [] => []
  | [x] => x
  | x :: y :: xs => x ++ ',' :: separate (y :: xs)

def array (items : List (List Char)) : List Char := '[' :: (separate items ++ [']'])

def member (f : String × List Char) : List Char := quote f.1.toList ++ ':' :: f.2

/-- Members in key order, as `sort_keys` writes them. -/
def object (fields : List (String × List Char)) : List Char :=
  '{' :: (separate ((fields.insertionSort (fun a b => a.1 ≤ b.1)).map member) ++ ['}'])

section Length
variable (w : Char → Nat)

def weight (cs : List Char) : Nat := (cs.map w).sum

@[simp] theorem weight_nil : weight w [] = 0 := rfl

@[simp] theorem weight_cons (c : Char) (cs : List Char) :
    weight w (c :: cs) = w c + weight w cs := by
  simp [weight]

@[simp] theorem weight_append (cs ds : List Char) :
    weight w (cs ++ ds) = weight w cs + weight w ds := by
  simp [weight]

theorem weight_separate (xs ys : List (List Char)) (h : xs.map (weight w) = ys.map (weight w)) :
    weight w (separate xs) = weight w (separate ys) := by
  induction xs generalizing ys with
  | nil =>
    cases ys with
    | nil => rfl
    | cons y ys => simp at h
  | cons x xs ih =>
    cases ys with
    | nil => simp at h
    | cons y ys =>
      obtain ⟨hx, ht⟩ := List.cons.inj h
      have htail := ih ys ht
      cases xs with
      | nil =>
        cases ys with
        | nil => exact hx
        | cons z zs => simp at ht
      | cons a as =>
        cases ys with
        | nil => simp at ht
        | cons b bs => simp only [separate, weight_append, weight_cons, hx, htail]

/-- The length of an object depends on its values only through their lengths. -/
theorem weight_object {xs ys : List (String × List Char)}
    (h : xs.map (fun f => (f.1, weight w f.2)) = ys.map (fun f => (f.1, weight w f.2))) :
    weight w (object xs) = weight w (object ys) := by
  have hsort : ∀ zs : List (String × List Char),
      (zs.insertionSort (fun a b => a.1 ≤ b.1)).map (fun f => (f.1, weight w f.2)) =
        (zs.map (fun f => (f.1, weight w f.2))).insertionSort (fun a b => a.1 ≤ b.1) :=
    fun zs => List.map_insertionSort _ _ _ _ (fun _ _ _ _ => Iff.rfl)
  have hmember : ∀ zs : List (String × List Char),
      ((zs.insertionSort (fun a b => a.1 ≤ b.1)).map member).map (weight w) =
        (((zs.map (fun f => (f.1, weight w f.2))).insertionSort (fun a b => a.1 ≤ b.1)).map
          (fun f => weight w (quote f.1.toList) + (w ':' + f.2))) := by
    intro zs
    rw [← hsort, List.map_map, List.map_map]
    refine List.map_congr_left (fun f _ => ?_)
    simp [member]
  have hsep := weight_separate w _ _ ((hmember xs).trans ((by rw [h]) : _ = _) |>.trans
    (hmember ys).symm)
  simp only [object, weight_cons, weight_append, hsep]

theorem escape_plain {t : List Char} (h : ∀ c ∈ t, escapeChar c = [c]) : escape t = t := by
  induction t with
  | nil => rfl
  | cons c t ih =>
    rw [escape, List.flatMap_cons, h c List.mem_cons_self]
    exact congrArg (c :: ·) (ih (fun d hd => h d (List.mem_cons_of_mem _ hd)))

end Length

end JsonText
