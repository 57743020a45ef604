import Mathlib.Data.List.Basic

/-! Reading a stream line by line through a bounded buffer. -/

namespace Lines

variable {β : Type} [DecidableEq β] (nl : β)

/-- At most `k` symbols, up to and including the first `nl`. -/
def readline : ℕ → List β → List β × List β
  | 0, s => ([], s)
  | _ + 1, [] => ([], [])
  | k + 1, b :: s =>
    if b = nl then ([b], s)
    else (b :: (readline k s).1, (readline k s).2)

/-- The first line with its end, and what follows. -/
def cut : List β → List β × List β
  | [] => ([], [])
  | b :: s => if b = nl then ([b], s) else (b :: (cut s).1, (cut s).2)

variable {nl} {k : ℕ} {s t l r : List β}

theorem readline_append (k : ℕ) (s : List β) : (readline nl k s).1 ++ (readline nl k s).2 = s := by
  induction s generalizing k with
  | nil => cases k <;> rfl
  | cons b s ih =>
    cases k with
    | zero => rfl
    | succ k =>
      rw [readline]
      split
      · rfl
      · rw [List.cons_append, ih]

theorem cut_append (s : List β) : (cut nl s).1 ++ (cut nl s).2 = s := by
  induction s with
  | nil => rfl
  | cons b s ih =>
    rw [cut]
    split
    · rfl
    · rw [List.cons_append, ih]

theorem readline_nonempty (hs : s ≠ []) : (readline nl (k + 1) s).1 ≠ [] := by
  cases s with
  | nil => exact absurd rfl hs
  | cons b s =>
    rw [readline]
    split <;> exact List.cons_ne_nil _ _

theorem readline_shorter (hs : s ≠ []) : (readline nl (k + 1) s).2.length < s.length := by
  have hlen := congrArg List.length (@readline_append _ _ nl (k + 1) s)
  have hpos := List.length_pos_iff.mpr (@readline_nonempty _ _ nl k s hs)
  rw [List.length_append] at hlen
  omega

theorem cut_nonempty (hs : s ≠ []) : (cut nl s).1 ≠ [] := by
  cases s with
  | nil => exact absurd rfl hs
  | cons b s =>
    rw [cut]
    split <;> exact List.cons_ne_nil _ _

theorem cut_shorter (hs : s ≠ []) : (cut nl s).2.length < s.length := by
  have hlen := congrArg List.length (@cut_append _ _ nl s)
  have hpos := List.length_pos_iff.mpr (@cut_nonempty _ _ nl s hs)
  rw [List.length_append] at hlen
  omega

variable (nl) in
/-- The lines of a finished stream, each with its end. -/
def lines (s : List β) : List (List β) :=
  if _h : s = [] then [] else (cut nl s).1 :: lines (cut nl s).2
  termination_by s.length
  decreasing_by exact cut_shorter ‹_›

theorem lines_nil : lines nl [] = [] := by rw [lines, dif_pos rfl]

theorem lines_cons (hs : s ≠ []) : lines nl s = (cut nl s).1 :: lines nl (cut nl s).2 := by
  rw [lines, dif_neg hs]

/-- A buffer that holds the whole line reads it. -/
theorem readline_short (h : (cut nl s).1.length ≤ k) : readline nl k s = cut nl s := by
  induction s generalizing k with
  | nil => cases k <;> rfl
  | cons b s ih =>
    by_cases hb : b = nl
    · rw [cut, if_pos hb] at h ⊢
      obtain ⟨k, rfl⟩ := Nat.exists_eq_succ_of_ne_zero (show k ≠ 0 by
        simp only [List.length_singleton] at h; omega)
      rw [readline, if_pos hb]
    · rw [cut, if_neg hb] at h ⊢
      obtain ⟨k, rfl⟩ := Nat.exists_eq_succ_of_ne_zero (show k ≠ 0 by
        simp only [List.length_cons] at h; omega)
      rw [readline, if_neg hb, ih (by simpa using h)]

/-- A full buffer has the head of the line, and the rest of the line is still to come. -/
theorem readline_long (h : k < (cut nl s).1.length) :
    (readline nl k s).1.length = k ∧ nl ∉ (readline nl k s).1 ∧
      (cut nl (readline nl k s).2).2 = (cut nl s).2 ∧ (readline nl k s).2 ≠ [] := by
  induction s generalizing k with
  | nil => exact absurd h (Nat.not_lt_zero k)
  | cons b s ih =>
    cases k with
    | zero => exact ⟨rfl, List.not_mem_nil, rfl, List.cons_ne_nil b s⟩
    | succ k =>
      by_cases hb : b = nl
      · rw [cut, if_pos hb] at h
        simp at h
      · rw [cut, if_neg hb] at h ⊢
        obtain ⟨hlen, hnl, hrest, hne⟩ := @ih k (by simpa using h)
        rw [readline, if_neg hb]
        refine ⟨by rw [List.length_cons, hlen], ?_, hrest, hne⟩
        rintro (_ | ⟨_, hm⟩)
        · exact hb rfl
        · exact hnl hm

theorem cut_last (s : List β) : (cut nl s).1.getLast? = some nl ∨ (cut nl s).2 = [] := by
  induction s with
  | nil => exact .inr rfl
  | cons b s ih =>
    by_cases hb : b = nl
    · rw [cut, if_pos hb, hb]
      exact .inl rfl
    · rw [cut, if_neg hb]
      refine ih.imp (fun h => ?_) id
      rw [List.getLast?_cons, h]
      rfl

/-- What follows the line does not change it. -/
theorem cut_append_of_end (hne : s ≠ []) (hs : s.getLast? = some nl) (t : List β) :
    (cut nl (s ++ t)).1 = (cut nl s).1 ∧ (cut nl (s ++ t)).2 = (cut nl s).2 ++ t ∧
      ((cut nl s).2 = [] ∨ (cut nl s).2.getLast? = some nl) := by
  induction s with
  | nil => exact absurd rfl hne
  | cons b s ih =>
    by_cases hb : b = nl
    · simp only [List.cons_append, cut, if_pos hb, true_and]
      cases s with
      | nil => exact .inl rfl
      | cons c s => exact .inr (by rwa [List.getLast?_cons_cons] at hs)
    · cases s with
      | nil =>
        rw [List.getLast?_singleton] at hs
        exact absurd (Option.some.inj hs) hb
      | cons c s =>
        rw [List.getLast?_cons_cons] at hs
        obtain ⟨hl, hr, hend⟩ := ih (List.cons_ne_nil c s) hs
        rw [List.cons_append, cut, if_neg hb, cut, if_neg hb, hl, hr]
        exact ⟨rfl, rfl, hend⟩

variable (nl) in
/-- Reads on to the end of a line whose last buffer was `l`. -/
def discard (k : ℕ) (l s : List β) : List β :=
  if l = [] ∨ l.getLast? = some nl then s
  else if _h : s = [] then []
  else discard k (readline nl (k + 1) s).1 (readline nl (k + 1) s).2
  termination_by s.length
  decreasing_by exact readline_shorter ‹_›

/-- However long the line is, the next read starts at the next line. -/
theorem discard_rest (hl : l ≠ []) (hnl : nl ∉ l) : discard nl k l s = (cut nl s).2 := by
  induction hn : s.length using Nat.strongRecOn generalizing l s with
  | ind n ih =>
    have hlast : l.getLast? ≠ some nl := fun h => hnl (List.mem_of_getLast? h)
    rw [discard, if_neg (by simp [hl, hlast])]
    by_cases hs : s = []
    · rw [dif_pos hs, hs]
      rfl
    · rw [dif_neg hs]
      rcases Nat.lt_or_ge (k + 1) (cut nl s).1.length with hlong | hshort
      · obtain ⟨-, hfree, hrest, -⟩ := readline_long hlong
        rw [ih _ (hn ▸ readline_shorter hs) (readline_nonempty hs) hfree rfl, hrest]
      · rw [readline_short hshort]
        rcases @cut_last _ _ nl s with hend | hend
        · rw [discard, if_pos (.inr hend)]
        · rw [hend, discard]
          split
          · rfl
          · rw [dif_pos rfl]

theorem cut_of_line (hr : nl ∉ r) (s : List β) :
    cut nl (r ++ nl :: s) = (r ++ [nl], s) := by
  induction r with
  | nil => rw [List.nil_append, cut, if_pos rfl, List.nil_append]
  | cons b r ih =>
    have hb : b ≠ nl := fun h => hr (h ▸ List.mem_cons_self)
    rw [List.cons_append, cut, if_neg hb, ih (fun h => hr (List.mem_cons_of_mem b h))]
    rfl

/-- A stream cut at the end of a line falls into the lines of its parts. -/
theorem lines_append (hs : s = [] ∨ s.getLast? = some nl) (t : List β) :
    lines nl (s ++ t) = lines nl s ++ lines nl t := by
  induction hn : s.length using Nat.strongRecOn generalizing s with
  | ind n ih =>
    by_cases hne : s = []
    · rw [hne, lines_nil, List.nil_append, List.nil_append]
    · have hend := hs.resolve_left hne
      obtain ⟨hl, hr, hrest⟩ := cut_append_of_end hne hend t
      rw [lines_cons (List.append_ne_nil_of_left_ne_nil hne t), lines_cons hne, hl, hr,
        ih _ (hn ▸ cut_shorter hne) hrest rfl, List.cons_append]

/-- Lines written one after another are read back as they were. -/
theorem lines_flatten {ls : List (List β)} (h : ∀ l ∈ ls, ∃ r, nl ∉ r ∧ l = r ++ [nl]) :
    lines nl ls.flatten = ls := by
  induction ls with
  | nil => exact lines_nil
  | cons l ls ih =>
    obtain ⟨r, hr, rfl⟩ := h l List.mem_cons_self
    have hcut := cut_of_line hr ls.flatten
    rw [List.flatten_cons, List.append_assoc, List.singleton_append,
      lines_cons (by simp), hcut, ih (fun m hm => h m (List.mem_cons_of_mem _ hm))]

end Lines
