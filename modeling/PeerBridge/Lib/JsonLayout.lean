import PeerBridge.Lib.JsonDocument
import Mathlib.Algebra.BigOperators.Group.List.Basic

namespace JsonDoc
open JsonText

section Sorting

def byKey (fs : List (String × Value)) : List (String × Value) :=
  fs.insertionSort (fun a b => a.1 ≤ b.1)

mutual
/-- `sort_keys=True`, at every depth. -/
def sortKeys : Value → Value
  | .null => .null
  | .bool b => .bool b
  | .int n => .int n
  | .str t => .str t
  | .arr vs => .arr (sortItems vs)
  | .obj fs => .obj (byKey (sortFields fs))
def sortItems : List Value → List Value
  | [] => []
  | v :: vs => sortKeys v :: sortItems vs
def sortFields : List (String × Value) → List (String × Value)
  | [] => []
  | (k, v) :: fs => (k, sortKeys v) :: sortFields fs
end

def dumps (L : Layout) (v : Value) : List Char := render L 0 (sortKeys v)

variable {fs gs : List (String × Value)} {k : String} {v : Value}

theorem length_sortItems (vs : List Value) : (sortItems vs).length = vs.length := by
  induction vs with
  | nil => rfl
  | cons v vs ih => rw [sortItems, List.length_cons, List.length_cons, ih]

theorem sortFields_eq_map (fs : List (String × Value)) :
    sortFields fs = fs.map (fun f => (f.1, sortKeys f.2)) := by
  induction fs with
  | nil => rfl
  | cons f fs ih => rw [sortFields, ih, List.map_cons]

theorem sortFields_keys (fs : List (String × Value)) :
    (sortFields fs).map Prod.fst = fs.map Prod.fst := by
  rw [sortFields_eq_map, List.map_map]
  rfl

theorem sortFields_append (fs gs : List (String × Value)) :
    sortFields (fs ++ gs) = sortFields fs ++ sortFields gs := by
  rw [sortFields_eq_map, sortFields_eq_map, sortFields_eq_map, List.map_append]

theorem sortFields_byKey (fs : List (String × Value)) :
    sortFields (byKey fs) = byKey (sortFields fs) := by
  rw [sortFields_eq_map, sortFields_eq_map]
  exact List.map_insertionSort _ _ _ _ (fun _ _ _ _ => Iff.rfl)

theorem perm_byKey (fs : List (String × Value)) : (byKey fs).Perm fs := List.perm_insertionSort _ _

theorem byKey_sorted (fs : List (String × Value)) :
    (byKey fs).Pairwise (fun a b => a.1 ≤ b.1) := by
  have : Std.Total (fun a b : String × Value => a.1 ≤ b.1) := ⟨fun a b => String.le_total a.1 b.1⟩
  have : IsTrans (String × Value) (fun a b => a.1 ≤ b.1) := ⟨fun _ _ _ h h' => String.le_trans h h'⟩
  exact List.pairwise_insertionSort _ _

theorem byKey_of_sorted (h : fs.Pairwise (fun a b => a.1 ≤ b.1)) : byKey fs = fs :=
  h.insertionSort_eq

theorem byKey_byKey (fs : List (String × Value)) : byKey (byKey fs) = byKey fs :=
  byKey_of_sorted (byKey_sorted fs)

theorem eq_of_key_eq (h : (fs.map Prod.fst).Nodup) {f g : String × Value} (hf : f ∈ fs)
    (hg : g ∈ fs) (hk : f.1 = g.1) : f = g := List.inj_on_of_nodup_map h hf hg hk

theorem eq_byKey (h : (fs.map Prod.fst).Nodup) (hp : gs.Perm fs)
    (hs : gs.Pairwise (fun a b => a.1 ≤ b.1)) : gs = byKey fs := by
  refine List.Perm.eq_of_pairwise ?_ hs (byKey_sorted fs) (hp.trans (perm_byKey fs).symm)
  intro a b ha hb hab hba
  exact eq_of_key_eq h (hp.mem_iff.mp ha) ((perm_byKey fs).mem_iff.mp hb) (String.le_antisymm hab hba)

mutual
theorem sortKeys_sortKeys : ∀ v, sortKeys (sortKeys v) = sortKeys v
  | .null => rfl
  | .bool _ => rfl
  | .int _ => rfl
  | .str _ => rfl
  | .arr vs => by rw [sortKeys, sortKeys, sortItems_sortItems vs]
  | .obj fs => by
    rw [sortKeys, sortKeys, sortFields_byKey, sortFields_sortFields fs, byKey_byKey]
theorem sortItems_sortItems : ∀ vs, sortItems (sortItems vs) = sortItems vs
  | [] => rfl
  | v :: vs => by rw [sortItems, sortItems, sortKeys_sortKeys v, sortItems_sortItems vs]
theorem sortFields_sortFields : ∀ fs, sortFields (sortFields fs) = sortFields fs
  | [] => rfl
  | (k, v) :: fs => by rw [sortFields, sortFields, sortKeys_sortKeys v, sortFields_sortFields fs]
end

theorem distinctFields_iff : DistinctFields fs ↔ ∀ f ∈ fs, Distinct f.2 := by
  induction fs with
  | nil => simp [DistinctFields]
  | cons f fs ih => simp [DistinctFields, ih]

mutual
theorem distinct_sortKeys : ∀ v, Distinct v → Distinct (sortKeys v)
  | .null, _ => trivial
  | .bool _, _ => trivial
  | .int _, _ => trivial
  | .str _, _ => trivial
  | .arr vs, h => distinct_sortItems vs h
  | .obj fs, h => by
    refine ⟨?_, ?_⟩
    · have hp := (perm_byKey (sortFields fs)).map Prod.fst
      rw [sortFields_keys] at hp
      exact hp.nodup_iff.mpr h.1
    · have hs := distinctFields_iff.mp (distinct_sortFields fs h.2)
      exact distinctFields_iff.mpr (fun f hf => hs f ((perm_byKey _).mem_iff.mp hf))
theorem distinct_sortItems : ∀ vs, DistinctItems vs → DistinctItems (sortItems vs)
  | [], _ => trivial
  | v :: vs, h => ⟨distinct_sortKeys v h.1, distinct_sortItems vs h.2⟩
theorem distinct_sortFields : ∀ fs, DistinctFields fs → DistinctFields (sortFields fs)
  | [], _ => trivial
  | (_, v) :: fs, h => ⟨distinct_sortKeys v h.1, distinct_sortFields fs h.2⟩
end

theorem loads_dumps (L : Layout) (hd : Distinct v) {e : List Char} (he : Blank e) :
    loads (dumps L v ++ e) = some (sortKeys v) :=
  loads_render L (distinct_sortKeys v hd) he

def get (key : String) : Value → Option Value
  | .obj fs => (fs.find? (fun f => f.1 = key)).map Prod.snd
  | _ => none

def without (key : String) : Value → Value
  | .obj fs => .obj (fs.filter (fun f => f.1 ≠ key))
  | v => v

theorem get_sortKeys (key : String) (h : (fs.map Prod.fst).Nodup) :
    get key (sortKeys (.obj fs)) = (get key (.obj fs)).map sortKeys := by
  have hp : ∀ f, f ∈ byKey (sortFields fs) ↔ f ∈ sortFields fs := fun f =>
    (perm_byKey (sortFields fs)).mem_iff
  have hkeys : ((sortFields fs).map Prod.fst).Nodup := by rwa [sortFields_keys]
  have hfind : (byKey (sortFields fs)).find? (fun f => f.1 = key) =
      (sortFields fs).find? (fun f => f.1 = key) := by
    cases hx : (sortFields fs).find? (fun f => f.1 = key) with
    | none =>
      rw [List.find?_eq_none] at hx ⊢
      exact fun f hf => hx f ((hp f).mp hf)
    | some f =>
      cases hy : (byKey (sortFields fs)).find? (fun f => f.1 = key) with
      | none =>
        have hin := (hp f).mpr (List.mem_of_find?_eq_some hx)
        exact absurd (List.find?_some hx) (List.find?_eq_none.mp hy f hin)
      | some g =>
        have hf := List.find?_some hx
        have hg := List.find?_some hy
        simp only [decide_eq_true_eq] at hf hg
        rw [eq_of_key_eq hkeys ((hp g).mp (List.mem_of_find?_eq_some hy))
          (List.mem_of_find?_eq_some hx) (hg.trans hf.symm)]
  rw [sortKeys, get, get, hfind, sortFields_eq_map, List.find?_map]
  simp only [Option.map_map, Function.comp_def]

/-- Taking the added member out again leaves the document as it was printed before. -/
theorem sortKeys_without (h : (fs.map Prod.fst).Nodup) (hk : k ∉ fs.map Prod.fst) :
    sortKeys (without k (sortKeys (.obj (fs ++ [(k, v)])))) = sortKeys (.obj fs) := by
  have hkeys : ((sortFields fs).map Prod.fst).Nodup := by rwa [sortFields_keys]
  have hkept : (sortFields (fs ++ [(k, v)])).filter (fun f => f.1 ≠ k) = sortFields fs := by
    rw [sortFields_append, List.filter_append, List.filter_eq_self.mpr]
    · simp [sortFields]
    · intro f hf
      have hin : f.1 ∈ fs.map Prod.fst := sortFields_keys fs ▸ List.mem_map_of_mem hf
      simp only [ne_eq, decide_eq_true_eq]
      exact fun heq => hk (heq ▸ hin)
  have hsorted : ((byKey (sortFields (fs ++ [(k, v)]))).filter (fun f => f.1 ≠ k)).Pairwise
      (fun a b => a.1 ≤ b.1) := (byKey_sorted _).filter _
  have heq : (byKey (sortFields (fs ++ [(k, v)]))).filter (fun f => f.1 ≠ k) =
      byKey (sortFields fs) :=
    eq_byKey hkeys (((perm_byKey _).filter _).trans (hkept ▸ List.Perm.refl _)) hsorted
  rw [sortKeys, without, heq, ← sortKeys, sortKeys_sortKeys]

end Sorting

section Searching
variable {x y : List Char} {ts us : List (List Char)} {L : Layout}

def isStructural (c : Char) : Bool :=
  isBlank c || c.isDigit || c ∈ ['-', ',', ':', '[', ']', '\x7b', '\x7d', 'n', 'u', 'l', 't', 'r', 'e',
    'f', 'a', 's']

/-- A stretch of a printed document between two strings. -/
abbrev Quiet (cs : List Char) : Prop := ∀ c ∈ cs, isStructural c = true

/-- A text whose quoted strings are the given ones, with quiet stretches between them. -/
inductive Segments : List Char → List (List Char) → Prop
  | quiet {x : List Char} : Quiet x → Segments x []
  | quoted {x y : List Char} {ts : List (List Char)} (t : List Char) : Quiet x → Segments y ts →
      Segments (x ++ '"' :: (t ++ '"' :: y)) (t :: ts)

theorem Quiet.append (hx : Quiet x) (hy : Quiet y) : Quiet (x ++ y) := by
  intro c hc
  rcases List.mem_append.mp hc with hc | hc
  · exact hx c hc
  · exact hy c hc

theorem quiet_nil : Quiet [] := fun _ h => absurd h List.not_mem_nil

theorem quiet_of_blank (h : Blank x) : Quiet x := by
  intro c hc
  simp [isStructural, h c hc]

theorem Segments.prepend (hx : Quiet x) (h : Segments y ts) : Segments (x ++ y) ts := by
  cases h with
  | quiet hy => exact .quiet (hx.append hy)
  | quoted t hy hrest =>
    rw [← List.append_assoc]
    exact .quoted t (hx.append hy) hrest

theorem Segments.append (h : Segments x ts) (h' : Segments y us) : Segments (x ++ y) (ts ++ us) := by
  induction h with
  | quiet hx => exact h'.prepend hx
  | quoted t hx _ ih =>
    simp only [List.append_assoc, List.cons_append]
    exact .quoted t hx ih

theorem segments_quote (t : List Char) : Segments (quote t) [escape t] :=
  .quoted (x := []) (escape t) quiet_nil (.quiet quiet_nil)

theorem Segments.cons {c : Char} (hc : isStructural c = true) (h : Segments x ts) :
    Segments (c :: x) ts := h.prepend (x := [c]) (by simpa [Quiet] using hc)

theorem Segments.blank (hb : Blank x) (h : Segments y ts) : Segments (x ++ y) ts :=
  h.prepend (quiet_of_blank hb)

theorem quiet_intText (n : ℤ) : Quiet (intText n) := by
  have hdigits : ∀ k, Quiet (Nat.toDigits 10 k) := by
    intro k c hc
    simp [isStructural, Nat.isDigit_of_mem_toDigits (by decide) (by decide) hc]
  cases n with
  | ofNat k => exact hdigits k
  | negSucc k =>
    intro c hc
    rcases List.mem_cons.mp hc with rfl | hc
    · rfl
    · exact hdigits _ c hc

mutual
/-- The escaped strings of a document, keys included, in the order they are printed. -/
def strings : Value → List (List Char)
  | .null => []
  | .bool _ => []
  | .int _ => []
  | .str t => [escape t.toList]
  | .arr vs => stringsItems vs
  | .obj fs => stringsFields fs
def stringsItems : List Value → List (List Char)
  | [] => []
  | v :: vs => strings v ++ stringsItems vs
def stringsFields : List (String × Value) → List (List Char)
  | [] => []
  | (k, v) :: fs => [escape k.toList] ++ (strings v ++ stringsFields fs)
end

mutual
/-- No layout puts anything but quiet stretches around the strings. -/
theorem segments_render : ∀ (d : ℕ) (v : Value), Segments (render L d v) (strings v)
  | d, .null => .quiet (by rw [render]; exact List.all_eq_true.mp rfl)
  | d, .bool true => .quiet (by rw [render]; exact List.all_eq_true.mp rfl)
  | d, .bool false => .quiet (by rw [render]; exact List.all_eq_true.mp rfl)
  | d, .int n => .quiet (by rw [render]; exact quiet_intText n)
  | d, .str t => by rw [render]; exact segments_quote t.toList
  | d, .arr [] => .quiet (by rw [render]; exact List.all_eq_true.mp rfl)
  | d, .arr (v :: vs) => by
    have hclose : Segments (L.close d ++ [']']) [] :=
      .blank (L.close_blank d) (.quiet (List.all_eq_true.mp rfl))
    have hitems := ((segments_render (d + 1) v).append
      ((segments_renderItems (d + 1) vs).append hclose)).blank (L.first_blank (d + 1))
    rw [List.append_nil] at hitems
    rw [render]
    exact hitems.cons rfl
  | d, .obj [] => .quiet (by rw [render]; exact List.all_eq_true.mp rfl)
  | d, .obj ((k, v) :: fs) => by
    have hclose : Segments (L.close d ++ ['\x7d']) [] :=
      .blank (L.close_blank d) (.quiet (List.all_eq_true.mp rfl))
    have hvalue := ((segments_render (d + 1) v).append
      ((segments_renderFields (d + 1) fs).append hclose)).blank L.colon_blank
    rw [List.append_nil] at hvalue
    rw [render]
    exact (((segments_quote k.toList).append (hvalue.cons rfl)).blank (L.first_blank _)).cons rfl
theorem segments_renderItems : ∀ (d : ℕ) (vs : List Value),
    Segments (renderItems L d vs) (stringsItems vs)
  | d, [] => .quiet (by rw [renderItems]; exact quiet_nil)
  | d, v :: vs => by
    rw [renderItems]
    exact (((segments_render d v).append (segments_renderItems d vs)).blank
      (L.gap_blank d)).cons rfl
theorem segments_renderFields : ∀ (d : ℕ) (fs : List (String × Value)),
    Segments (renderFields L d fs) (stringsFields fs)
  | d, [] => .quiet (by rw [renderFields]; exact quiet_nil)
  | d, (k, v) :: fs => by
    have hvalue := ((segments_render d v).append (segments_renderFields d fs)).blank L.colon_blank
    rw [renderFields]
    exact (((segments_quote k.toList).append (hvalue.cons rfl)).blank (L.gap_blank d)).cons rfl
end

/-- A search that no match of which holds a quote or lies between strings. -/
structure StringSearch (hit : List Char → Bool) : Prop where
  split : ∀ a b, hit (a ++ '"' :: b) = (hit a || hit b)
  quiet : ∀ x, Quiet x → hit x = false

theorem StringSearch.segments {hit : List Char → Bool} (hs : StringSearch hit)
    (h : Segments x ts) : hit x = ts.any hit := by
  induction h with
  | quiet hx => rw [hs.quiet _ hx, List.any_nil]
  | quoted t hx _ ih => rw [hs.split, hs.split, hs.quiet _ hx, ih, List.any_cons, Bool.false_or]

/-- What a search finds in a printed document depends on its strings alone. -/
theorem StringSearch.dumps {hit : List Char → Bool} (hs : StringSearch hit) (v : Value)
    {e : List Char} (he : Blank e) : hit (dumps L v ++ e) = (strings (sortKeys v)).any hit := by
  have h := (segments_render (L := L) 0 (sortKeys v)).append (.quiet (quiet_of_blank he))
  rw [List.append_nil] at h
  exact hs.segments h

theorem mem_stringsFields {t : List Char} {fs : List (String × Value)} : t ∈ stringsFields fs ↔
    ∃ f ∈ fs, t = escape f.1.toList ∨ t ∈ strings f.2 := by
  induction fs with
  | nil => simp [stringsFields]
  | cons f fs ih =>
    obtain ⟨k, v⟩ := f
    simp [stringsFields, ih, or_assoc]

theorem strings_swap {t : List Char} {A B : List (String × Value)} {k : String} {v u : Value}
    (h : t ∈ strings (.obj (A ++ (k, v) :: B))) :
    t ∈ strings (.obj (A ++ (k, u) :: B)) ∨ t ∈ strings v := by
  rw [strings, mem_stringsFields] at h ⊢
  obtain ⟨f, hf, hk⟩ := h
  rcases List.mem_append.mp hf with hA | hB
  · exact Or.inl ⟨f, List.mem_append_left _ hA, hk⟩
  · rcases List.mem_cons.mp hB with rfl | hB
    · exact hk.imp (fun h => ⟨(k, u), by simp, Or.inl h⟩) id
    · exact Or.inl ⟨f, List.mem_append_right _ (List.mem_cons_of_mem _ hB), hk⟩

theorem mem_stringsItems {t : List Char} {vs : List Value} :
    t ∈ stringsItems vs ↔ ∃ v ∈ vs, t ∈ strings v := by
  induction vs with
  | nil => simp [stringsItems]
  | cons v vs ih => simp [stringsItems, ih]

mutual
theorem mem_strings_sortKeys {t : List Char} : ∀ v, t ∈ strings (sortKeys v) ↔ t ∈ strings v
  | .null => Iff.rfl
  | .bool _ => Iff.rfl
  | .int _ => Iff.rfl
  | .str _ => Iff.rfl
  | .arr vs => mem_strings_sortItems vs
  | .obj fs => by
    have hfields := mem_strings_sortFields (t := t) fs
    rw [mem_stringsFields] at hfields
    rw [sortKeys, strings, strings, mem_stringsFields, ← hfields]
    exact exists_congr (fun f => and_congr_left (fun _ => (perm_byKey _).mem_iff))
theorem mem_strings_sortItems {t : List Char} :
    ∀ vs, t ∈ stringsItems (sortItems vs) ↔ t ∈ stringsItems vs
  | [] => Iff.rfl
  | v :: vs => by
    rw [sortItems, stringsItems, stringsItems, List.mem_append, List.mem_append,
      mem_strings_sortKeys v, mem_strings_sortItems vs]
theorem mem_strings_sortFields {t : List Char} :
    ∀ fs, t ∈ stringsFields (sortFields fs) ↔ t ∈ stringsFields fs
  | [] => Iff.rfl
  | (k, v) :: fs => by
    rw [sortFields, stringsFields, stringsFields, List.mem_append, List.mem_append, List.mem_append,
      List.mem_append, mem_strings_sortKeys v, mem_strings_sortFields fs]
end

theorem StringSearch.dumps_eq_false {hit : List Char → Bool} (hs : StringSearch hit) {v : Value}
    (h : ∀ t ∈ strings v, hit t = false) {e : List Char} (he : Blank e) :
    hit (JsonDoc.dumps L v ++ e) = false := by
  rw [hs.dumps v he, List.any_eq_false]
  intro t ht
  rw [h t ((mem_strings_sortKeys v).mp ht)]
  decide

end Searching

section Weighing
variable (w : Char → ℕ) (L : Layout)

def memberWeight (d : ℕ) (f : String × Value) : ℕ :=
  weight w (quote f.1.toList) + w ':' + weight w L.colon + weight w (render L d f.2)

theorem weight_renderItems (d : ℕ) (vs : List Value) : weight w (renderItems L d vs) =
    (vs.map (fun v => weight w (render L d v))).sum + vs.length * (w ',' + weight w (L.gap d)) := by
  induction vs with
  | nil => simp [renderItems]
  | cons v vs ih =>
    rw [renderItems, weight_cons, weight_append, weight_append, ih, List.map_cons, List.sum_cons,
      List.length_cons, Nat.succ_mul]
    omega

theorem weight_renderFields (d : ℕ) (fs : List (String × Value)) : weight w (renderFields L d fs) =
    (fs.map (memberWeight w L d)).sum + fs.length * (w ',' + weight w (L.gap d)) := by
  induction fs with
  | nil => simp [renderFields]
  | cons f fs ih =>
    obtain ⟨k, v⟩ := f
    simp only [renderFields, weight_cons, weight_append, ih, List.map_cons, List.sum_cons,
      List.length_cons, Nat.succ_mul, memberWeight]
    omega

theorem weight_arr (d : ℕ) {vs : List Value} (h : vs ≠ []) : weight w (render L d (.arr vs)) =
    w '[' + w ']' + weight w (L.first (d + 1)) + weight w (L.close d) +
      (vs.map (fun v => weight w (render L (d + 1) v))).sum +
        (vs.length - 1) * (w ',' + weight w (L.gap (d + 1))) := by
  cases vs with
  | nil => exact absurd rfl h
  | cons v vs =>
    simp only [render, weight_cons, weight_append, weight_renderItems, weight_nil, List.map_cons,
      List.sum_cons, List.length_cons, Nat.add_sub_cancel]
    omega

theorem weight_obj (d : ℕ) {fs : List (String × Value)} (h : fs ≠ []) :
    weight w (render L d (.obj fs)) =
      w '\x7b' + w '\x7d' + weight w (L.first (d + 1)) + weight w (L.close d) +
        (fs.map (memberWeight w L (d + 1))).sum +
          (fs.length - 1) * (w ',' + weight w (L.gap (d + 1))) := by
  cases fs with
  | nil => exact absurd rfl h
  | cons f fs =>
    obtain ⟨k, v⟩ := f
    simp only [render, weight_cons, weight_append, weight_renderFields, weight_nil, List.map_cons,
      List.sum_cons, List.length_cons, Nat.add_sub_cancel, memberWeight]
    omega

mutual
/-- Sorting the keys keeps the length. -/
theorem weight_sortKeys : ∀ (d : ℕ) (v : Value),
    weight w (render L d (sortKeys v)) = weight w (render L d v)
  | d, .null => rfl
  | d, .bool _ => rfl
  | d, .int _ => rfl
  | d, .str _ => rfl
  | d, .arr [] => rfl
  | d, .arr (v :: vs) => by
    rw [sortKeys, sortItems, weight_arr _ _ _ (List.cons_ne_nil _ _),
      weight_arr _ _ _ (List.cons_ne_nil _ _), List.map_cons, List.map_cons, List.sum_cons,
      List.sum_cons, weight_sortKeys (d + 1) v, weight_sortItems (d + 1) vs, List.length_cons,
      List.length_cons, length_sortItems]
  | d, .obj [] => rfl
  | d, .obj (f :: fs) => by
    have hne : byKey (sortFields (f :: fs)) ≠ [] := by
      intro h
      have := (perm_byKey (sortFields (f :: fs))).length_eq
      rw [h, sortFields_eq_map] at this
      cases this
    have hlen : (byKey (sortFields (f :: fs))).length = (f :: fs).length := by
      rw [(perm_byKey _).length_eq, sortFields_eq_map, List.length_map]
    rw [sortKeys, weight_obj _ _ _ hne, weight_obj _ _ _ (List.cons_ne_nil _ _), hlen,
      ((perm_byKey _).map _).sum_eq, weight_sortFields (d + 1) (f :: fs)]
theorem weight_sortItems : ∀ (d : ℕ) (vs : List Value),
    ((sortItems vs).map (fun v => weight w (render L d v))).sum =
      (vs.map (fun v => weight w (render L d v))).sum
  | d, [] => rfl
  | d, v :: vs => by
    rw [sortItems, List.map_cons, List.map_cons, List.sum_cons, List.sum_cons,
      weight_sortKeys d v, weight_sortItems d vs]
theorem weight_sortFields : ∀ (d : ℕ) (fs : List (String × Value)),
    ((sortFields fs).map (memberWeight w L d)).sum = (fs.map (memberWeight w L d)).sum
  | d, [] => rfl
  | d, (k, v) :: fs => by
    rw [sortFields, List.map_cons, List.map_cons, List.sum_cons, List.sum_cons,
      weight_sortFields d fs, memberWeight, memberWeight, weight_sortKeys d v]
end

/-- What replacing one member's value does to the length. -/
theorem weight_swap (d : ℕ) (A B : List (String × Value)) (k : String) (v u : Value) :
    weight w (render L d (.obj (A ++ (k, v) :: B))) + weight w (render L (d + 1) u) =
      weight w (render L d (.obj (A ++ (k, u) :: B))) + weight w (render L (d + 1) v) := by
  rw [weight_obj _ _ _ (by simp), weight_obj _ _ _ (by simp)]
  simp only [List.map_append, List.map_cons, List.sum_append, List.sum_cons, memberWeight,
    List.length_append, List.length_cons]
  omega

end Weighing

end JsonDoc
