import PeerBridge.Lib.JsonText

namespace JsonDoc
open JsonText

inductive Value where
  | null
  | bool (b : Bool)
  | int (n : ℤ)
  | str (t : String)
  | arr (items : List Value)
  | obj (fields : List (String × Value))

def isBlank (c : Char) : Bool := c = ' ' || c = '\n' || c = '\t' || c = '\r'

abbrev Blank (cs : List Char) : Prop := ∀ c ∈ cs, isBlank c = true

/-- The white space a printer puts in, by nesting depth. -/
structure Layout where
  first : ℕ → List Char
  gap : ℕ → List Char
  close : ℕ → List Char
  colon : List Char
  first_blank : ∀ d, Blank (first d)
  gap_blank : ∀ d, Blank (gap d)
  close_blank : ∀ d, Blank (close d)
  colon_blank : Blank colon

theorem blank_nil : Blank [] := fun _ h => absurd h List.not_mem_nil

theorem blank_space : Blank [' '] := List.all_eq_true.mp rfl

theorem blank_line (n : ℕ) : Blank ('\n' :: List.replicate n ' ') := by
  intro c hc
  rcases List.mem_cons.mp hc with rfl | hc
  · rfl
  · rw [List.eq_of_mem_replicate hc]
    rfl

/-- `separators=(",", ":")` -/
def compact : Layout where
  first _ := []
  gap _ := []
  close _ := []
  colon := []
  first_blank _ := blank_nil
  gap_blank _ := blank_nil
  close_blank _ := blank_nil
  colon_blank := blank_nil

/-- The printer's default separators. -/
def spaced : Layout where
  first _ := []
  gap _ := [' ']
  close _ := []
  colon := [' ']
  first_blank _ := blank_nil
  gap_blank _ := blank_space
  close_blank _ := blank_nil
  colon_blank := blank_space

/-- `indent=2` -/
def indented : Layout where
  first d := '\n' :: List.replicate (2 * d) ' '
  gap d := '\n' :: List.replicate (2 * d) ' '
  close d := '\n' :: List.replicate (2 * d) ' '
  colon := [' ']
  first_blank _ := blank_line _
  gap_blank _ := blank_line _
  close_blank _ := blank_line _
  colon_blank := blank_space

def intText : ℤ → List Char
  | .ofNat n => Nat.toDigits 10 n
  | .negSucc n => '-' :: Nat.toDigits 10 (n + 1)

section Printing
variable (L : Layout)

mutual
def render : ℕ → Value → List Char
  | _, .null => ['n', 'u', 'l', 'l']
  | _, .bool true => ['t', 'r', 'u', 'e']
  | _, .bool false => ['f', 'a', 'l', 's', 'e']
  | _, .int n => intText n
  | _, .str t => quote t.toList
  | _, .arr [] => ['[', ']']
  | d, .arr (v :: vs) =>
    '[' :: (L.first (d + 1) ++ (render (d + 1) v ++ (renderItems (d + 1) vs ++
      (L.close d ++ [']']))))
  | _, .obj [] => ['\x7b', '\x7d']
  | d, .obj ((k, v) :: fs) =>
    '\x7b' :: (L.first (d + 1) ++ (quote k.toList ++ ':' :: (L.colon ++ (render (d + 1) v ++
      (renderFields (d + 1) fs ++ (L.close d ++ ['\x7d']))))))
def renderItems : ℕ → List Value → List Char
  | _, [] => []
  | d, v :: vs => ',' :: (L.gap d ++ (render d v ++ renderItems d vs))
def renderFields : ℕ → List (String × Value) → List Char
  | _, [] => []
  | d, (k, v) :: fs =>
    ',' :: (L.gap d ++ (quote k.toList ++ ':' :: (L.colon ++ (render d v ++ renderFields d fs))))
end

end Printing

section Reading

def skip (cs : List Char) : List Char := cs.dropWhile isBlank

def readString : ℕ → List Char → Option (List Char × List Char)
  | 0, _ => none
  | n + 1, cs =>
    match cs with
    | '"' :: r => some ([], r)
    | cs => do
      let (c, r) ← unescape cs
      let (t, r) ← readString n r
      return (c :: t, r)

def literal (word : List Char) (v : Value) (cs : List Char) : Option (Value × List Char) :=
  if word.isPrefixOf cs then some (v, cs.drop word.length) else none

def readDigits (cs : List Char) : Option (ℕ × List Char) :=
  let ds := cs.takeWhile Char.isDigit
  if ds = [] ∨ (ds.head? = some '0' ∧ ds ≠ ['0']) then none
  else some (Nat.ofDigitChars 10 ds 0, cs.dropWhile Char.isDigit)

def readInt (cs : List Char) : Option (Value × List Char) :=
  match cs with
  | '-' :: r => (readDigits r).map (fun x => (.int (-(x.1 : ℤ)), x.2))
  | cs => (readDigits cs).map (fun x => (.int x.1, x.2))

/-- A later member of a key replaces the value of the earlier one. -/
def assign (f : String × Value) : List (String × Value) → List (String × Value)
  | [] => [f]
  | g :: gs => if g.1 = f.1 then f :: gs else g :: assign f gs

def settle (fs : List (String × Value)) : List (String × Value) :=
  fs.foldl (fun gs f => assign f gs) []

mutual
def readValue : ℕ → List Char → Option (Value × List Char)
  | 0, _ => none
  | n + 1, cs =>
    match skip cs with
    | [] => none
    | c :: r =>
      if c = '"' then (readString (r.length + 1) r).map (fun x => (.str (String.ofList x.1), x.2))
      else if c = '[' then
        if (skip r).head? = some ']' then some (.arr [], (skip r).tail)
        else (readItems n r).map (fun x => (.arr x.1, x.2))
      else if c = '\x7b' then
        if (skip r).head? = some '\x7d' then some (.obj [], (skip r).tail)
        else (readFields n r).map (fun x => (.obj (settle x.1), x.2))
      else if c = 'n' then literal ['u', 'l', 'l'] .null r
      else if c = 't' then literal ['r', 'u', 'e'] (.bool true) r
      else if c = 'f' then literal ['a', 'l', 's', 'e'] (.bool false) r
      else readInt (c :: r)
def readItems : ℕ → List Char → Option (List Value × List Char)
  | 0, _ => none
  | n + 1, cs => do
    let (v, r) ← readValue n cs
    match skip r with
    | ',' :: r => do
      let (vs, r) ← readItems n r
      return (v :: vs, r)
    | ']' :: r => return ([v], r)
    | _ => none
def readFields : ℕ → List Char → Option (List (String × Value) × List Char)
  | 0, _ => none
  | n + 1, cs => do
    match skip cs with
    | '"' :: r => do
      let (k, r) ← readString (r.length + 1) r
      match skip r with
      | ':' :: r => do
        let (v, r) ← readValue n r
        match skip r with
        | ',' :: r => do
          let (fs, r) ← readFields n r
          return ((String.ofList k, v) :: fs, r)
        | '\x7d' :: r => return ([(String.ofList k, v)], r)
        | _ => none
      | _ => none
    | _ => none
end

/-- `json.loads` on the texts of documents without fractions. -/
def loads (text : List Char) : Option Value :=
  match readValue (text.length + 1) text with
  | some (v, r) => if skip r = [] then some v else none
  | none => none

end Reading

section Lexemes
variable {b r t : List Char} {c : Char} {v : Value}

theorem skip_blank (hb : Blank b) (x : List Char) : skip (b ++ x) = skip x := by
  induction b with
  | nil => rfl
  | cons c b ih =>
    have hc : isBlank c = true := hb c List.mem_cons_self
    rw [List.cons_append, skip, List.dropWhile_cons, if_pos hc]
    exact ih (fun d hd => hb d (List.mem_cons_of_mem c hd))

theorem skip_cons (hc : isBlank c = false) : skip (c :: r) = c :: r := by
  rw [skip, List.dropWhile_cons, if_neg (by simp [hc])]

theorem skip_blank_cons (hb : Blank b) (hc : isBlank c = false) :
    skip (b ++ c :: r) = c :: r := (skip_blank hb _).trans (skip_cons hc)

theorem escapeChar_head (c : Char) : ∃ d x, escapeChar c = d :: x ∧ d ≠ '"' := by
  unfold escapeChar
  split_ifs with h1
  all_goals first | exact ⟨_, _, rfl, by decide⟩ | exact ⟨_, _, rfl, h1⟩

theorem readString_escape {n : ℕ} (h : t.length < n) (r : List Char) :
    readString n (escape t ++ '"' :: r) = some (t, r) := by
  induction t generalizing n with
  | nil =>
    cases n with
    | zero => cases h
    | succ n => rfl
  | cons c t ih =>
    cases n with
    | zero => cases h
    | succ n =>
      obtain ⟨d, x, hx, hd⟩ := escapeChar_head c
      have hread := unescape_escape c (escape t ++ '"' :: r)
      have htail := ih (Nat.lt_of_succ_lt_succ h)
      rw [escape, List.flatMap_cons, List.append_assoc]
      change readString (n + 1) (escapeChar c ++ (escape t ++ '"' :: r)) = _
      rw [hx] at hread ⊢
      rw [readString]
      · simp only [hread, Option.bind_eq_bind, Option.bind_some, htail]
        rfl
      · intro y hy
        exact hd (List.cons.inj hy).1

theorem length_escape (t : List Char) : t.length ≤ (escape t).length := by
  induction t with
  | nil => exact le_rfl
  | cons c t ih =>
    obtain ⟨d, x, hx, -⟩ := escapeChar_head c
    simp only [escape, List.flatMap_cons, List.length_append, hx, List.length_cons] at ih ⊢
    omega

theorem readString_quoted (t r : List Char) :
    readString ((escape t ++ '"' :: r).length + 1) (escape t ++ '"' :: r) = some (t, r) := by
  refine readString_escape ?_ r
  have := length_escape t
  simp only [List.length_append, List.length_cons]
  omega

/-- What may follow a number. -/
def Stops (r : List Char) : Prop := r.head?.all (fun c => !c.isDigit) = true

theorem takeWhile_digits {ds : List Char} (hd : ∀ c ∈ ds, c.isDigit = true) (hr : Stops r) :
    (ds ++ r).takeWhile Char.isDigit = ds ∧ (ds ++ r).dropWhile Char.isDigit = r := by
  induction ds with
  | nil =>
    cases r with
    | nil => exact ⟨rfl, rfl⟩
    | cons c r =>
      have hc : c.isDigit = false := by simpa [Stops] using hr
      simp [hc]
  | cons c ds ih =>
    have hc := hd c List.mem_cons_self
    have hrest := ih (fun d hd' => hd d (List.mem_cons_of_mem c hd'))
    simp [hc, hrest]

theorem toDigits_head_small : ∀ n < 10,
    (Nat.toDigits 10 n).head? = some '0' → Nat.toDigits 10 n = ['0'] := by
  decide

theorem toDigits_head (n : ℕ) (h : (Nat.toDigits 10 n).head? = some '0') :
    Nat.toDigits 10 n = ['0'] := by
  induction n using Nat.strong_induction_on with
  | _ n ih =>
    by_cases hn : n < 10
    · exact toDigits_head_small n hn h
    · exfalso
      rw [Nat.toDigits_of_base_le (by decide) (by omega),
        List.head?_append_of_ne_nil _ Nat.toDigits_ne_nil] at h
      have hq := ih (n / 10) (by omega) h
      have hv := congrArg (fun ds => Nat.ofDigitChars 10 ds 0) hq
      simp only [Nat.ofDigitChars_ten_toDigits] at hv
      have h0 : Nat.ofDigitChars 10 ['0'] 0 = 0 := by decide
      omega

theorem readDigits_toDigits (n : ℕ) (hr : Stops r) :
    readDigits (Nat.toDigits 10 n ++ r) = some (n, r) := by
  have hd : ∀ c ∈ Nat.toDigits 10 n, c.isDigit = true := fun c hc =>
    Nat.isDigit_of_mem_toDigits (by decide) (by decide) hc
  obtain ⟨htake, hdrop⟩ := takeWhile_digits hd hr
  have hok : ¬(Nat.toDigits 10 n = [] ∨
      ((Nat.toDigits 10 n).head? = some '0' ∧ Nat.toDigits 10 n ≠ ['0'])) := by
    rintro (h | ⟨h, hne⟩)
    · exact Nat.toDigits_ne_nil h
    · exact hne (toDigits_head n h)
  simp only [readDigits, htake, hdrop, if_neg hok, Nat.ofDigitChars_ten_toDigits]

theorem readInt_intText (n : ℤ) (hr : Stops r) : readInt (intText n ++ r) = some (.int n, r) := by
  cases n with
  | negSucc n =>
    rw [intText, List.cons_append, readInt, readDigits_toDigits _ hr]
    rfl
  | ofNat n =>
    have hread := readDigits_toDigits n hr
    rw [intText]
    cases hx : Nat.toDigits 10 n with
    | nil => exact absurd hx Nat.toDigits_ne_nil
    | cons c ds =>
      have hc : c.isDigit = true :=
        Nat.isDigit_of_mem_toDigits (by decide) (by decide) (hx ▸ List.mem_cons_self)
      rw [hx] at hread
      rw [readInt, hread]
      · rfl
      · intro y hy
        rw [(List.cons.inj hy).1] at hc
        cases hc

end Lexemes

section RoundTrip
variable {L : Layout} {b e r : List Char} {c : Char} {n d : ℕ} {v : Value}

mutual
/-- The fuel that reading a printed document takes. -/
def need : Value → ℕ
  | .null | .bool _ | .int _ | .str _ => 1
  | .arr vs => 1 + needItems vs
  | .obj fs => 1 + needFields fs
def needItems : List Value → ℕ
  | [] => 0
  | v :: vs => 1 + need v + needItems vs
def needFields : List (String × Value) → ℕ
  | [] => 0
  | (_, v) :: fs => 1 + need v + needFields fs
end

mutual
/-- No object has two members of one key. -/
def Distinct : Value → Prop
  | .null | .bool _ | .int _ | .str _ => True
  | .arr vs => DistinctItems vs
  | .obj fs => (fs.map Prod.fst).Nodup ∧ DistinctFields fs
def DistinctItems : List Value → Prop
  | [] => True
  | v :: vs => Distinct v ∧ DistinctItems vs
def DistinctFields : List (String × Value) → Prop
  | [] => True
  | (_, v) :: fs => Distinct v ∧ DistinctFields fs
end

theorem assign_fresh {f : String × Value} {gs : List (String × Value)}
    (h : f.1 ∉ gs.map Prod.fst) : assign f gs = gs ++ [f] := by
  induction gs with
  | nil => rfl
  | cons g gs ih =>
    rw [List.map_cons, List.mem_cons, not_or] at h
    rw [assign, if_neg (fun heq => h.1 heq.symm), ih h.2, List.cons_append]

theorem foldl_assign {fs gs : List (String × Value)} (h : ((gs ++ fs).map Prod.fst).Nodup) :
    fs.foldl (fun gs f => assign f gs) gs = gs ++ fs := by
  induction fs generalizing gs with
  | nil => rw [List.append_nil]; rfl
  | cons f fs ih =>
    have hf : f.1 ∉ gs.map Prod.fst := by
      rw [List.map_append, List.map_cons] at h
      intro hm
      exact (List.nodup_append.mp h).2.2 _ hm _ List.mem_cons_self rfl
    rw [List.foldl_cons, assign_fresh hf, ih (by simpa using h), List.append_assoc]
    rfl

theorem settle_distinct {fs : List (String × Value)} (h : (fs.map Prod.fst).Nodup) :
    settle fs = fs := @foldl_assign _ [] h

theorem intText_head (n : ℤ) : ∃ c x, intText n = c :: x ∧ (c = '-' ∨ c.isDigit = true) := by
  cases n with
  | negSucc n => exact ⟨_, _, rfl, Or.inl rfl⟩
  | ofNat n =>
    cases hx : Nat.toDigits 10 n with
    | nil => exact absurd hx Nat.toDigits_ne_nil
    | cons c x =>
      exact ⟨c, x, hx, Or.inr (Nat.isDigit_of_mem_toDigits (by decide) (by decide)
        (hx ▸ List.mem_cons_self))⟩

/-- The characters no number starts with. -/
def special : List Char := ['"', '[', '\x7b', 'n', 't', 'f', ']', '\x7d', ' ', '\n', '\t', '\r']

theorem number_plain (hc : c = '-' ∨ c.isDigit = true) : c ∉ special := by
  rcases hc with rfl | hc
  · decide
  · intro hm
    have hall : ∀ x ∈ special, x.isDigit = false := by simp [special]
    rw [hall c hm] at hc
    cases hc

theorem isBlank_of_plain (h : c ∉ special) : isBlank c = false := by
  simp only [special, List.mem_cons, not_or] at h
  simp [isBlank, h]

theorem render_head (L : Layout) (d : ℕ) (v : Value) :
    ∃ c x, render L d v = c :: x ∧ isBlank c = false ∧ c ≠ ']' ∧ c ≠ '\x7d' := by
  match v with
  | .null => exact ⟨_, _, by rw [render], by decide⟩
  | .bool true => exact ⟨_, _, by rw [render], by decide⟩
  | .bool false => exact ⟨_, _, by rw [render], by decide⟩
  | .int n =>
    obtain ⟨c, x, hx, hc⟩ := intText_head n
    have hp := number_plain hc
    refine ⟨c, x, by rw [render, hx], isBlank_of_plain hp, ?_, ?_⟩
    · rintro rfl; exact hp (by decide)
    · rintro rfl; exact hp (by decide)
  | .str t => exact ⟨_, _, by rw [render, quote], by decide⟩
  | .arr [] => exact ⟨_, _, by rw [render], by decide⟩
  | .arr (v :: vs) => exact ⟨_, _, by rw [render], by decide⟩
  | .obj [] => exact ⟨_, _, by rw [render], by decide⟩
  | .obj ((k, v) :: fs) => exact ⟨_, _, by rw [render], by decide⟩

theorem readValue_blank (hb : Blank b) (x : List Char) : readValue n (b ++ x) = readValue n x := by
  cases n with
  | zero => rw [readValue, readValue]
  | succ n => rw [readValue, readValue, skip_blank hb]

theorem stops_comma : Stops (',' :: r) := rfl

theorem stops_close (he : Blank e) (hc : c.isDigit = false) : Stops (e ++ c :: r) := by
  cases e with
  | nil => simp [Stops, hc]
  | cons x e =>
    have hx := he x List.mem_cons_self
    have hd : x.isDigit = false := by
      simp only [isBlank, Bool.or_eq_true, decide_eq_true_eq] at hx
      rcases hx with ((rfl | rfl) | rfl) | rfl <;> rfl
    simp [Stops, hd]

theorem readValue_int (n : ℕ) (z : ℤ) (hr : Stops r) :
    readValue (n + 1) (intText z ++ r) = some (.int z, r) := by
  obtain ⟨c, x, hx, hc⟩ := intText_head z
  have hp := number_plain hc
  have hread := readInt_intText z hr
  rw [hx, List.cons_append] at hread ⊢
  rw [readValue, skip_cons (isBlank_of_plain hp)]
  simp only [special, List.mem_cons, not_or] at hp
  simp only [hp, if_false]
  exact hread

theorem readValue_str (n : ℕ) (t : String) (r : List Char) :
    readValue (n + 1) (quote t.toList ++ r) = some (.str t, r) := by
  have hq : quote t.toList ++ r = '"' :: (escape t.toList ++ '"' :: r) := by
    simp [quote]
  rw [hq, readValue, skip_cons (by decide)]
  simp only [↓reduceIte, readString_quoted, Option.map_some, String.ofList_toList]

/-- What a reader with this much fuel gets back. -/
structure Reads (L : Layout) (n : ℕ) : Prop where
  value : ∀ (v : Value) (d : ℕ) (r : List Char), need v ≤ n → Distinct v → Stops r →
    readValue n (render L d v ++ r) = some (v, r)
  items : ∀ (v : Value) (vs : List Value) (d : ℕ) (b e r : List Char),
    1 + need v + needItems vs ≤ n → Distinct v → DistinctItems vs → Blank b → Blank e →
      readItems n (b ++ (render L d v ++ (renderItems L d vs ++ (e ++ ']' :: r)))) =
        some (v :: vs, r)
  fields : ∀ (k : String) (v : Value) (fs : List (String × Value)) (d : ℕ) (b e r : List Char),
    1 + need v + needFields fs ≤ n → Distinct v → DistinctFields fs → Blank b → Blank e →
      readFields n (b ++ (quote k.toList ++ ':' :: (L.colon ++ (render L d v ++
        (renderFields L d fs ++ (e ++ '\x7d' :: r)))))) = some ((k, v) :: fs, r)

theorem need_pos (v : Value) : 1 ≤ need v := by
  cases v <;> simp only [need] <;> omega

theorem Reads.zero (L : Layout) : Reads L 0 where
  value v d r hn := absurd hn (by have := need_pos v; omega)
  items v vs d b e r hn := absurd hn (by omega)
  fields k v fs d b e r hn := absurd hn (by omega)

theorem Reads.array (h : Reads L n) {vs : List Value} (hn : need (.arr vs) ≤ n + 1)
    (hd : Distinct (.arr vs)) : readValue (n + 1) (render L d (.arr vs) ++ r) = some (.arr vs, r) := by
  cases vs with
  | nil =>
    rw [render, List.cons_append, readValue, skip_cons (by decide)]
    rfl
  | cons v vs =>
    obtain ⟨hv, hvs⟩ := hd
    obtain ⟨c, x, hx, hc, hclose, -⟩ := render_head L (d + 1) v
    have hhead : (skip (L.first (d + 1) ++ (render L (d + 1) v ++ (renderItems L (d + 1) vs ++
        (L.close d ++ ']' :: r))))).head? ≠ some ']' := by
      rw [hx, List.cons_append, skip_blank_cons (L.first_blank _) hc, List.head?_cons]
      exact fun heq => hclose (Option.some.inj heq)
    have hitems := h.items v vs (d + 1) (L.first (d + 1)) (L.close d) r
      (by simp only [need, needItems] at hn; omega) hv hvs (L.first_blank _) (L.close_blank _)
    rw [render, List.cons_append, readValue, skip_cons (by decide)]
    simp only [List.append_assoc, List.cons_append, List.nil_append, ↓reduceIte,
      if_neg (show '[' ≠ '"' by decide), if_neg hhead, hitems, Option.map_some]

theorem Reads.object (h : Reads L n) {fs : List (String × Value)} (hn : need (.obj fs) ≤ n + 1)
    (hd : Distinct (.obj fs)) : readValue (n + 1) (render L d (.obj fs) ++ r) = some (.obj fs, r) := by
  cases fs with
  | nil =>
    rw [render, List.cons_append, readValue, skip_cons (by decide)]
    rfl
  | cons f fs =>
    obtain ⟨k, v⟩ := f
    obtain ⟨hkeys, hv, hfs⟩ := hd
    have hhead : (skip (L.first (d + 1) ++ (quote k.toList ++ ':' :: (L.colon ++
        (render L (d + 1) v ++ (renderFields L (d + 1) fs ++
          (L.close d ++ '\x7d' :: r))))))).head? ≠ some '\x7d' := by
      rw [quote, List.cons_append, skip_blank_cons (L.first_blank _) (by decide), List.head?_cons]
      decide
    have hfields := h.fields k v fs (d + 1) (L.first (d + 1)) (L.close d) r
      (by simp only [need, needFields] at hn; omega) hv hfs (L.first_blank _) (L.close_blank _)
    rw [render, List.cons_append, readValue, skip_cons (by decide)]
    simp only [List.append_assoc, List.cons_append, List.nil_append, ↓reduceIte,
      if_neg (show '\x7b' ≠ '"' by decide), if_neg (show '\x7b' ≠ '[' by decide), if_neg hhead,
      hfields, Option.map_some, settle_distinct hkeys]

theorem Reads.step_value (h : Reads L n) (hn : need v ≤ n + 1) (hd : Distinct v) (hr : Stops r) :
    readValue (n + 1) (render L d v ++ r) = some (v, r) := by
  match v with
  | .null =>
    rw [render, List.cons_append, readValue, skip_cons (by decide)]
    rfl
  | .bool true =>
    rw [render, List.cons_append, readValue, skip_cons (by decide)]
    rfl
  | .bool false =>
    rw [render, List.cons_append, readValue, skip_cons (by decide)]
    rfl
  | .int z => exact render.eq_4 L d z ▸ readValue_int n z hr
  | .str t => exact render.eq_5 L d t ▸ readValue_str n t r
  | .arr vs => exact h.array hn hd
  | .obj fs => exact h.object hn hd

theorem Reads.step_items (h : Reads L n) {vs : List Value} (hn : 1 + need v + needItems vs ≤ n + 1)
    (hv : Distinct v) (hvs : DistinctItems vs) (hb : Blank b) (he : Blank e) :
    readItems (n + 1) (b ++ (render L d v ++ (renderItems L d vs ++ (e ++ ']' :: r)))) =
      some (v :: vs, r) := by
  cases vs with
  | nil =>
    have hread := h.value v d (e ++ ']' :: r) (by omega) hv (stops_close he (by decide))
    rw [renderItems, List.nil_append, readItems, readValue_blank hb, hread]
    simp only [Option.bind_eq_bind, Option.bind_some, skip_blank_cons he (show isBlank ']' = false by decide)]
    rfl
  | cons w ws =>
    obtain ⟨hw, hws⟩ := hvs
    simp only [needItems] at hn
    have hread := h.value v d _ (by omega) hv
      (stops_comma (r := L.gap d ++ (render L d w ++ (renderItems L d ws ++ (e ++ ']' :: r)))))
    have hrest := h.items w ws d (L.gap d) e r (by omega) hw hws (L.gap_blank d) he
    rw [renderItems, readItems, readValue_blank hb]
    simp only [List.cons_append, List.append_assoc, hread, Option.bind_eq_bind, Option.bind_some,
      skip_cons (show isBlank ',' = false by decide), hrest]
    rfl

theorem Reads.step_fields (h : Reads L n) {k : String} {fs : List (String × Value)}
    (hn : 1 + need v + needFields fs ≤ n + 1) (hv : Distinct v) (hfs : DistinctFields fs)
    (hb : Blank b) (he : Blank e) :
    readFields (n + 1) (b ++ (quote k.toList ++ ':' :: (L.colon ++ (render L d v ++
      (renderFields L d fs ++ (e ++ '\x7d' :: r)))))) = some ((k, v) :: fs, r) := by
  cases fs with
  | nil =>
    have hread := h.value v d (e ++ '\x7d' :: r) (by omega) hv (stops_close he (by decide))
    rw [renderFields, List.nil_append, readFields, quote, List.cons_append,
      skip_blank_cons hb (by decide)]
    simp only [List.append_assoc, List.cons_append, List.nil_append, readString_quoted,
      Option.bind_eq_bind, Option.bind_some, skip_cons (show isBlank ':' = false by decide),
      readValue_blank L.colon_blank, hread,
      skip_blank_cons he (show isBlank '\x7d' = false by decide), String.ofList_toList]
    rfl
  | cons f fs =>
    obtain ⟨k', w⟩ := f
    obtain ⟨hw, hws⟩ := hfs
    simp only [needFields] at hn
    have hread := h.value v d _ (by omega) hv
      (stops_comma (r := L.gap d ++ (quote k'.toList ++ ':' :: (L.colon ++ (render L d w ++
        (renderFields L d fs ++ (e ++ '\x7d' :: r)))))))
    have hrest := h.fields k' w fs d (L.gap d) e r (by omega) hw hws (L.gap_blank d) he
    rw [renderFields, readFields, quote, List.cons_append, skip_blank_cons hb (by decide)]
    simp only [List.append_assoc, List.cons_append, List.nil_append, readString_quoted,
      Option.bind_eq_bind, Option.bind_some, skip_cons (show isBlank ':' = false by decide),
      readValue_blank L.colon_blank, hread, skip_cons (show isBlank ',' = false by decide), hrest,
      String.ofList_toList]
    rfl

theorem reads (L : Layout) (n : ℕ) : Reads L n := by
  induction n with
  | zero => exact .zero L
  | succ n ih =>
    exact ⟨fun v d r hn hd hr => ih.step_value hn hd hr,
      fun v vs d b e r hn hv hvs hb he => ih.step_items hn hv hvs hb he,
      fun k v fs d b e r hn hv hfs hb he => ih.step_fields hn hv hfs hb he⟩

theorem intText_ne_nil (z : ℤ) : 1 ≤ (intText z).length := by
  obtain ⟨c, x, hx, -⟩ := intText_head z
  rw [hx, List.length_cons]
  omega

mutual
theorem need_le (L : Layout) (d : ℕ) : ∀ v, need v ≤ (render L d v).length
  | .null => by simp [need, render]
  | .bool true => by simp [need, render]
  | .bool false => by simp [need, render]
  | .int z => by simpa [need, render] using intText_ne_nil z
  | .str t => by simp [need, render, quote]
  | .arr [] => by simp [need, needItems, render]
  | .arr (v :: vs) => by
    have hv := need_le L (d + 1) v
    have hvs := needItems_le L (d + 1) vs
    simp only [need, needItems, render, List.length_cons, List.length_append, List.length_nil]
    omega
  | .obj [] => by simp [need, needFields, render]
  | .obj ((k, v) :: fs) => by
    have hv := need_le L (d + 1) v
    have hfs := needFields_le L (d + 1) fs
    simp only [need, needFields, render, List.length_cons, List.length_append, List.length_nil]
    omega
theorem needItems_le (L : Layout) (d : ℕ) : ∀ vs, needItems vs ≤ (renderItems L d vs).length
  | [] => Nat.zero_le _
  | v :: vs => by
    have hv := need_le L d v
    have hvs := needItems_le L d vs
    simp only [needItems, renderItems, List.length_cons, List.length_append]
    omega
theorem needFields_le (L : Layout) (d : ℕ) : ∀ fs, needFields fs ≤ (renderFields L d fs).length
  | [] => Nat.zero_le _
  | (k, v) :: fs => by
    have hv := need_le L d v
    have hfs := needFields_le L d fs
    simp only [needFields, renderFields, List.length_cons, List.length_append]
    omega
end

/-- Every printed document reads back, whatever white space its layout puts in. -/
theorem loads_render (L : Layout) {v : Value} (hd : Distinct v) {e : List Char} (he : Blank e) :
    loads (render L 0 v ++ e) = some v := by
  have hstop : Stops e := by
    have := stops_close (c := ' ') (r := []) he (by decide)
    cases e with
    | nil => rfl
    | cons x e => simpa [Stops] using this
  have hfuel : need v ≤ (render L 0 v ++ e).length + 1 := by
    have := need_le L 0 v
    rw [List.length_append]
    omega
  have hskip : skip e = [] := by
    rw [← List.append_nil e, skip_blank he]
    rfl
  rw [loads, (reads L _).value v 0 e hfuel hd hstop]
  exact if_pos hskip

end RoundTrip

end JsonDoc
