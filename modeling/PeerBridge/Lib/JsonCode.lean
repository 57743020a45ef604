import PeerBridge.Lib.JsonText

namespace JsonText

def isDelimiter (c : Char) : Bool := c = ',' || c = ']' || c = '\x7d'

-- what follows a value inside an array or an object, or at the end
def Delimited (r : List Char) : Prop := r.head?.all isDelimiter = true

def Opens (x : List Char) : Prop := ∃ c cs, x = c :: cs ∧ isDelimiter c = false

-- x is read off the front of a text in one way among the texts of T
def Splits (T : List Char → Prop) (x : List Char) : Prop :=
  ∀ y, T y → ∀ r s, Delimited r → Delimited s → x ++ r = y ++ s → x = y ∧ r = s

section Delimiters
variable {x y r s : List Char} {c : Char}

theorem Delimited.nil : Delimited [] := rfl

theorem Delimited.cons (h : isDelimiter c = true) : Delimited (c :: r) := h

theorem delimited_comma : Delimited (',' :: r) := rfl

theorem Opens.not_delimited (h : Opens x) : ¬ Delimited (x ++ r) := by
  obtain ⟨c, cs, rfl, hc⟩ := h
  simp [Delimited, hc]

-- the longest run of characters of a number is the number
theorem run_cancel {p : Char → Bool} (hp : ∀ c, isDelimiter c = true → p c = false)
    (hx : ∀ c ∈ x, p c = true) (hy : ∀ c ∈ y, p c = true) (hr : Delimited r) (hs : Delimited s)
    (h : x ++ r = y ++ s) : x = y ∧ r = s := by
  have hstop : ∀ {t : List Char}, Delimited t → t.takeWhile p = [] := by
    intro t ht
    cases t with
    | nil => rfl
    | cons c t => rw [List.takeWhile_cons, hp c ht]; rfl
  have hrun := congrArg (List.takeWhile p) h
  rw [List.takeWhile_append_of_pos hx, List.takeWhile_append_of_pos hy, hstop hr, hstop hs,
    List.append_nil, List.append_nil] at hrun
  subst hrun
  exact ⟨rfl, List.append_cancel_left h⟩

theorem separate_cancel {T : List Char → Prop} (hT : ∀ z, T z → Opens z) {xs ys : List (List Char)}
    (hx : ∀ z ∈ xs, T z ∧ Splits T z) (hy : ∀ z ∈ ys, T z) (hc : isDelimiter c = true)
    (hcomma : c ≠ ',') (h : separate xs ++ c :: r = separate ys ++ c :: s) : xs = ys ∧ r = s := by
  have hopen {z t u : List Char} (hz : T z) : c :: t ≠ z ++ u := by
    intro he
    exact (hT z hz).not_delimited (r := u) (he ▸ Delimited.cons hc)
  induction xs generalizing ys with
  | nil =>
    cases ys with
    | nil => exact ⟨rfl, (List.cons.inj h).2⟩
    | cons y ys =>
      cases ys with
      | nil => exact absurd h (hopen (hy y List.mem_cons_self))
      | cons z zs =>
        rw [separate, separate, List.append_assoc] at h
        exact absurd h (hopen (hy y List.mem_cons_self))
  | cons x xs ih =>
    obtain ⟨hxT, hsplit⟩ := hx x List.mem_cons_self
    cases ys with
    | nil =>
      cases xs with
      | nil => exact absurd h.symm (hopen hxT)
      | cons z zs =>
        rw [separate, separate, List.append_assoc] at h
        exact absurd h.symm (hopen hxT)
    | cons y ys =>
      have hyT := hy y List.mem_cons_self
      have htail {u : List (List Char)} (z : List Char) (zs : List (List Char))
          (hu : u = z :: zs) (t : List Char) :
          separate (y :: u) ++ t = y ++ ',' :: (separate u ++ t) := by
        rw [hu, separate, List.append_assoc]
        rfl
      cases xs with
      | nil =>
        cases ys with
        | nil =>
          obtain ⟨rfl, hr⟩ := hsplit y hyT _ _ (.cons hc) (.cons hc) h
          exact ⟨rfl, (List.cons.inj hr).2⟩
        | cons z zs =>
          rw [htail z zs rfl] at h
          obtain ⟨-, hr⟩ := hsplit y hyT _ _ (.cons hc) delimited_comma h
          exact absurd (List.cons.inj hr).1 hcomma
      | cons a as =>
        rw [separate, List.append_assoc] at h
        cases ys with
        | nil =>
          obtain ⟨-, hr⟩ := hsplit y hyT _ _ delimited_comma (.cons hc) h
          exact absurd (List.cons.inj hr).1.symm hcomma
        | cons z zs =>
          rw [htail z zs rfl] at h
          obtain ⟨rfl, hr⟩ := hsplit y hyT _ _ delimited_comma delimited_comma h
          obtain ⟨he, hrs⟩ := ih (fun w hw => hx w (List.mem_cons_of_mem _ hw))
            (fun w hw => hy w (List.mem_cons_of_mem _ hw)) (List.cons.inj hr).2
          exact ⟨by rw [he], hrs⟩

end Delimiters

section Objects
variable {T : List Char → Prop} {f g : String × List Char} {fs gs : List (String × List Char)}
  {r s : List Char}

theorem member_cancel (hf : Splits T f.2) (hg : T g.2) (hr : Delimited r) (hs : Delimited s)
    (h : member f ++ r = member g ++ s) : f = g ∧ r = s := by
  simp only [member, List.append_assoc, List.cons_append] at h
  obtain ⟨hk, hv⟩ := quote_cancel h
  obtain ⟨hval, hrs⟩ := hf _ hg r s hr hs (List.cons.inj hv).2
  exact ⟨Prod.ext (String.toList_inj.mp hk) hval, hrs⟩

theorem member_splits (hf : Splits T f.2) :
    Splits (fun x => ∃ g : String × List Char, T g.2 ∧ x = member g) (member f) := by
  rintro y ⟨g, hg, rfl⟩ r s hr hs h
  obtain ⟨rfl, hrs⟩ := member_cancel hf hg hr hs h
  exact ⟨rfl, hrs⟩

theorem member_opens : Opens (member f) := ⟨_, _, rfl, by decide⟩

theorem members_eq (hf : ∀ f ∈ fs, Splits T f.2) (hg : ∀ g ∈ gs, T g.2)
    (h : fs.map member = gs.map member) : fs = gs := by
  induction fs generalizing gs with
  | nil => cases gs <;> simp_all
  | cons f fs ih =>
    cases gs with
    | nil => simp at h
    | cons g gs =>
      obtain ⟨h1, h2⟩ := List.cons.inj h
      obtain ⟨rfl, -⟩ := member_cancel (r := []) (s := []) (hf f List.mem_cons_self)
        (hg g List.mem_cons_self) .nil .nil (by rw [h1])
      rw [ih (fun x hx => hf x (List.mem_cons_of_mem _ hx))
        (fun x hx => hg x (List.mem_cons_of_mem _ hx)) h2]

/-- The text of an object determines its members in key order. -/
theorem object_cancel (hf : ∀ f ∈ fs, T f.2 ∧ Splits T f.2) (hg : ∀ g ∈ gs, T g.2)
    (h : object fs ++ r = object gs ++ s) :
    fs.insertionSort (fun a b => a.1 ≤ b.1) = gs.insertionSort (fun a b => a.1 ≤ b.1) ∧
      r = s := by
  simp only [object, List.cons_append, List.append_assoc, List.nil_append] at h
  have hopens : ∀ z, (∃ g : String × List Char, T g.2 ∧ z = member g) → Opens z := by
    rintro z ⟨g, -, rfl⟩
    exact member_opens
  have hxs : ∀ z ∈ (fs.insertionSort (fun a b => a.1 ≤ b.1)).map member,
      (∃ g : String × List Char, T g.2 ∧ z = member g) ∧
        Splits (fun x => ∃ g : String × List Char, T g.2 ∧ x = member g) z := by
    intro z hz
    obtain ⟨f, hm, rfl⟩ := List.mem_map.mp hz
    have hsf := hf f ((List.mem_insertionSort _).mp hm)
    exact ⟨⟨f, hsf.1, rfl⟩, member_splits hsf.2⟩
  have hys : ∀ z ∈ (gs.insertionSort (fun a b => a.1 ≤ b.1)).map member,
      ∃ g : String × List Char, T g.2 ∧ z = member g := by
    intro z hz
    obtain ⟨g, hm, rfl⟩ := List.mem_map.mp hz
    exact ⟨g, hg g ((List.mem_insertionSort _).mp hm), rfl⟩
  obtain ⟨hm, hrs⟩ := separate_cancel hopens hxs hys (by decide) (by decide) (List.cons.inj h).2
  refine ⟨members_eq (T := T) (fun f hm' => ?_) (fun g hm' => ?_) hm, hrs⟩
  · exact (hf f ((List.mem_insertionSort _).mp hm')).2
  · exact hg g ((List.mem_insertionSort _).mp hm')

/-- Sorting by key keeps the first member of each key. -/
theorem find?_insertionSort {β : Type} (key : String) (fs : List (String × β)) :
    (fs.insertionSort (fun a b => a.1 ≤ b.1)).find? (fun f => f.1 = key) =
      fs.find? (fun f => f.1 = key) := by
  have hinsert : ∀ (f : String × β) (gs : List (String × β)),
      (gs.orderedInsert (fun a b => a.1 ≤ b.1) f).find? (fun f => f.1 = key) =
        (f :: gs).find? (fun f => f.1 = key) := by
    intro f gs
    induction gs with
    | nil => rfl
    | cons g gs ih =>
      rw [List.orderedInsert_cons]
      split
      · rfl
      · rename_i hle
        by_cases hg : g.1 = key
        · have hf : f.1 ≠ key := fun he => hle (by simpa only [he, hg] using String.le_refl key)
          simp [hg, hf]
        · by_cases hf : f.1 = key <;> simp_all
  induction fs with
  | nil => rfl
  | cons f fs ih => rw [List.insertionSort_cons, hinsert, List.find?_cons, List.find?_cons, ih]

end Objects

end JsonText
