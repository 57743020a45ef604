import PeerBridge.Canonical
import PeerBridge.Lib.JsonCode

namespace PeerBridge

def isNumberChar (c : Char) : Bool := c.isDigit || c = '-' || c = '+' || c = '.' || c = 'e'

-- floats are written in digits, signs, a point and an exponent
structure TextForms.Plain (F : TextForms) : Prop where
  real_ne : ∀ q, (F.real q).toList ≠ []
  real_chars : ∀ q, ∀ c ∈ (F.real q).toList, isNumberChar c = true

inductive Lead where
  | null | yes | no | number | quote | bracket | brace
  deriving DecidableEq

def Lead.of (c : Char) : Option Lead :=
  if c = 'n' then some .null else if c = 't' then some .yes else if c = 'f' then some .no
  else if isNumberChar c then some .number else if c = '"' then some .quote
  else if c = '[' then some .bracket else if c = '\x7b' then some .brace else none

def Json.lead : Json → Lead
  | .null => .null
  | .bool b => if b then .yes else .no
  | .int _ | .real _ => .number
  | .str _ | .sha _ | .utc _ => .quote
  | .arr _ => .bracket
  | .obj _ => .brace

def IsValue (F : TextForms) (x : List Char) : Prop := ∃ v, x = jsonChars F v

def Json.field? (key : String) : Json → Option Json
  | .obj fields => (fields.find? (fun f => f.1 = key)).map Prod.snd
  | _ => none

def Json.text? : Json → Option String
  | .str t => some t
  | .sha d => some d.hex
  | _ => none

section Code
open JsonText
variable {F : TextForms}

theorem isNumberChar_delimiter (c : Char) (h : isDelimiter c = true) : isNumberChar c = false := by
  simp only [isDelimiter, Bool.or_eq_true, decide_eq_true_eq] at h
  rcases h with (rfl | rfl) | rfl <;> decide

theorem Lead.of_number {c : Char} (h : isNumberChar c = true) : Lead.of c = some .number := by
  have hn : c ≠ 'n' := by rintro rfl; simp [isNumberChar] at h
  have ht : c ≠ 't' := by rintro rfl; simp [isNumberChar] at h
  have hf : c ≠ 'f' := by rintro rfl; simp [isNumberChar] at h
  simp [Lead.of, hn, ht, hf, h]

theorem Lead.of_delimiter {c : Char} (h : isDelimiter c = true) : Lead.of c = none := by
  simp only [isDelimiter, Bool.or_eq_true, decide_eq_true_eq] at h
  rcases h with (rfl | rfl) | rfl <;> decide

theorem natText_chars (k : Nat) :
    k.repr.toList ≠ [] ∧ ∀ c ∈ k.repr.toList, isNumberChar c = true := by
  rw [Nat.toList_repr]
  refine ⟨Nat.toDigits_ne_nil, fun c hc => ?_⟩
  simp [isNumberChar, Nat.isDigit_of_mem_toDigits (by decide) (by decide) hc]

theorem intText_chars (n : Int) :
    (toString n).toList ≠ [] ∧ ∀ c ∈ (toString n).toList, isNumberChar c = true := by
  rw [Int.toString_eq_repr, Int.repr_eq_if]
  split
  · exact natText_chars _
  · rw [String.toList_append]
    refine ⟨by simp, fun c hc => ?_⟩
    rcases List.mem_append.mp hc with hc | hc
    · obtain rfl : c = '-' := by simpa using hc
      rfl
    · exact (natText_chars _).2 c hc

theorem jsonChars_number {v : Json} (hF : F.Plain) (h : v.lead = .number) :
    jsonChars F v ≠ [] ∧ ∀ c ∈ jsonChars F v, isNumberChar c = true := by
  cases v with
  | int n => exact intText_chars n
  | real q => exact ⟨hF.real_ne q, hF.real_chars q⟩
  | bool b => cases b <;> cases h
  | _ => cases h

theorem jsonChars_lead (hF : F.Plain) (v : Json) :
    ∃ c cs, jsonChars F v = c :: cs ∧ Lead.of c = some v.lead := by
  have hnumber (hv : v.lead = .number) : ∃ c cs, jsonChars F v = c :: cs ∧
      Lead.of c = some v.lead := by
    obtain ⟨hne, hc⟩ := jsonChars_number hF hv
    obtain ⟨c, cs, hcs⟩ := List.exists_cons_of_ne_nil hne
    exact ⟨c, cs, hcs, hv ▸ Lead.of_number (hc c (hcs ▸ List.mem_cons_self))⟩
  cases v with
  | null => exact ⟨_, _, rfl, rfl⟩
  | bool b => cases b <;> exact ⟨_, _, rfl, rfl⟩
  | int n => exact hnumber rfl
  | real q => exact hnumber rfl
  | str t => exact ⟨_, _, jsonChars.eq_5 .., rfl⟩
  | sha d => exact ⟨_, _, jsonChars.eq_6 .., rfl⟩
  | utc t => exact ⟨_, _, jsonChars.eq_7 .., rfl⟩
  | arr items => exact ⟨_, _, jsonChars.eq_8 .., rfl⟩
  | obj fields => exact ⟨_, _, jsonChars.eq_9 .., rfl⟩

theorem isValue_opens (hF : F.Plain) {x : List Char} (h : IsValue F x) : Opens x := by
  obtain ⟨v, rfl⟩ := h
  obtain ⟨c, cs, hv, hc⟩ := jsonChars_lead hF v
  refine ⟨c, cs, hv, ?_⟩
  cases hd : isDelimiter c with
  | false => rfl
  | true => rw [Lead.of_delimiter hd] at hc; cases hc

theorem lead_eq (hF : F.Plain) {v w : Json} {r s : List Char}
    (h : jsonChars F v ++ r = jsonChars F w ++ s) : v.lead = w.lead := by
  obtain ⟨c, cs, hv, hc⟩ := jsonChars_lead hF v
  obtain ⟨d, ds, hw, hd⟩ := jsonChars_lead hF w
  rw [hv, hw] at h
  obtain rfl := (List.cons.inj h).1
  exact Option.some.inj (hc.symm.trans hd)

theorem itemChars_values (vs : List Json) : ∀ x ∈ itemChars F vs, IsValue F x := by
  induction vs with
  | nil => simp [itemChars]
  | cons v vs ih =>
    intro x hx
    rw [itemChars] at hx
    rcases List.mem_cons.mp hx with rfl | hx
    · exact ⟨v, rfl⟩
    · exact ih x hx

theorem fieldChars_values (fs : List (String × Json)) : ∀ f ∈ fieldChars F fs, IsValue F f.2 := by
  induction fs with
  | nil => simp [fieldChars]
  | cons g gs ih =>
    intro f hf
    rw [fieldChars] at hf
    rcases List.mem_cons.mp hf with rfl | hf
    · exact ⟨_, rfl⟩
    · exact ih f hf

-- canonical JSON is a prefix code, up to the character that ends a value
mutual
theorem jsonChars_splits (hF : F.Plain) (v : Json) : Splits (IsValue F) (jsonChars F v) := by
  rintro _ ⟨w, rfl⟩ r s hr hs h
  have hlead := lead_eq hF h
  have hnumber (hv : v.lead = .number) : jsonChars F v = jsonChars F w ∧ r = s :=
    run_cancel isNumberChar_delimiter (jsonChars_number hF hv).2
      (jsonChars_number hF (hlead ▸ hv)).2 hr hs h
  have hquote {t u : String} (hv : jsonChars F v = quote t.toList)
      (hw : jsonChars F w = quote u.toList) : jsonChars F v = jsonChars F w ∧ r = s := by
    rw [hv, hw] at h ⊢
    obtain ⟨ht, hrs⟩ := quote_cancel h
    exact ⟨by rw [ht], hrs⟩
  have hquoted (hw : w.lead = .quote) : ∃ u : String, jsonChars F w = quote u.toList := by
    cases w with
    | str t => exact ⟨t, jsonChars.eq_5 ..⟩
    | sha d => exact ⟨d.hex, jsonChars.eq_6 ..⟩
    | utc t => exact ⟨F.utc t, jsonChars.eq_7 ..⟩
    | bool b => cases b <;> cases hw
    | _ => cases hw
  cases v with
  | null =>
    cases w with
    | null => exact ⟨rfl, List.append_cancel_left h⟩
    | bool b => cases b <;> cases hlead
    | _ => cases hlead
  | bool a =>
    cases w with
    | bool b =>
      obtain rfl : a = b := by cases a <;> cases b <;> first | rfl | cases hlead
      exact ⟨rfl, List.append_cancel_left h⟩
    | _ => cases a <;> cases hlead
  | int n => exact hnumber rfl
  | real q => exact hnumber rfl
  | str t =>
    obtain ⟨u, hu⟩ := hquoted hlead.symm
    exact hquote (jsonChars.eq_5 ..) hu
  | sha d =>
    obtain ⟨u, hu⟩ := hquoted hlead.symm
    exact hquote (jsonChars.eq_6 ..) hu
  | utc t =>
    obtain ⟨u, hu⟩ := hquoted hlead.symm
    exact hquote (jsonChars.eq_7 ..) hu
  | arr xs =>
    cases w with
    | arr ys =>
      rw [jsonChars, jsonChars] at h ⊢
      simp only [array, List.cons_append, List.append_assoc, List.nil_append] at h
      obtain ⟨he, hrs⟩ := separate_cancel (fun _ hz => isValue_opens hF hz)
        (itemChars_splits hF xs) (itemChars_values ys) (by decide) (by decide) (List.cons.inj h).2
      exact ⟨by rw [he], hrs⟩
    | bool b => cases b <;> cases hlead
    | _ => cases hlead
  | obj fs =>
    cases w with
    | obj gs =>
      rw [jsonChars, jsonChars] at h ⊢
      obtain ⟨he, hrs⟩ := object_cancel (fieldChars_splits hF fs) (fieldChars_values gs) h
      exact ⟨by rw [object, object, he], hrs⟩
    | bool b => cases b <;> cases hlead
    | _ => cases hlead
theorem itemChars_splits (hF : F.Plain) (vs : List Json) :
    ∀ x ∈ itemChars F vs, IsValue F x ∧ Splits (IsValue F) x := by
  intro x hx
  cases vs with
  | nil => simp [itemChars] at hx
  | cons v vs =>
    rw [itemChars] at hx
    rcases List.mem_cons.mp hx with rfl | hx
    · exact ⟨⟨v, rfl⟩, jsonChars_splits hF v⟩
    · exact itemChars_splits hF vs x hx
theorem fieldChars_splits (hF : F.Plain) (fs : List (String × Json)) :
    ∀ f ∈ fieldChars F fs, IsValue F f.2 ∧ Splits (IsValue F) f.2 := by
  intro f hf
  cases fs with
  | nil => simp [fieldChars] at hf
  | cons g gs =>
    obtain ⟨k, v⟩ := g
    rw [fieldChars] at hf
    rcases List.mem_cons.mp hf with rfl | hf
    · exact ⟨⟨v, rfl⟩, jsonChars_splits hF v⟩
    · exact fieldChars_splits hF gs f hf
end

theorem fieldChars_find? (key : String) (fs : List (String × Json)) :
    (fieldChars F fs).find? (fun f => f.1 = key) =
      (fs.find? (fun f => f.1 = key)).map (fun f => (f.1, jsonChars F f.2)) := by
  induction fs with
  | nil => rfl
  | cons f fs ih =>
    rw [fieldChars, List.find?_cons, List.find?_cons, ih]
    by_cases h : f.1 = key <;> simp [h]

theorem dumps_inj {v w : Json} (h : dumps F v = dumps F w) : jsonChars F v = jsonChars F w := by
  simpa [dumps] using congrArg String.toList h

/-- Objects of one canonical text have the same fields, up to the text of each. -/
theorem dumps_field? (hF : F.Plain) {fs gs : List (String × Json)}
    (h : dumps F (.obj fs) = dumps F (.obj gs)) (key : String) :
    ((Json.obj fs).field? key).map (jsonChars F) = ((Json.obj gs).field? key).map (jsonChars F) := by
  have hc := dumps_inj h
  rw [jsonChars, jsonChars] at hc
  obtain ⟨he, -⟩ := object_cancel (r := []) (s := []) (fieldChars_splits hF fs)
    (fieldChars_values gs) (by rw [hc])
  have hfind := congrArg (List.find? (fun f => f.1 = key)) he
  rw [find?_insertionSort, find?_insertionSort, fieldChars_find?, fieldChars_find?] at hfind
  have htext := congrArg (Option.map Prod.snd) hfind
  simpa [Json.field?, Option.map_map, Function.comp_def] using htext

end Code

end PeerBridge
