import Mathlib.Data.List.Basic
import Mathlib.Order.Lattice

/-! Reading a growing list in pages, each from where the last one ended. -/

namespace Paging

variable {α κ : Type} [LinearOrder κ] (key : α → κ) (keep : α → Bool)

def after (n : κ) (xs : List α) : List α := xs.filter (fun x => keep x && decide (n < key x))

def page (n : κ) (limit : ℕ) (xs : List α) : List α := (after key keep n xs).take limit

def next (n : κ) (got : List α) : κ := (got.getLast?.map key).getD n

/-- What lies above `n` and not above `k`. -/
def between (n k : κ) (xs : List α) : List α :=
  (after key keep n xs).filter (fun x => decide (key x ≤ k))

def Sorted (xs : List α) : Prop := xs.Pairwise (fun x y => key x < key y)

/-- Pages taken one after another while the list grows. -/
inductive Read (n : κ) : List α → List α → κ → Prop
  | start (xs : List α) : Read n xs [] n
  | grow {xs ys got : List α} {k : κ} : Read n xs got k → xs <+: ys → Read n ys got k
  | turn {xs got : List α} {k : κ} (limit : ℕ) : Read n xs got k →
      Read n xs (got ++ page key keep k limit xs) (next key k (page key keep k limit xs))

section Pages
variable {key keep} {xs ys got : List α} {n m k : κ} {limit : ℕ} {x : α}

theorem mem_after : x ∈ after key keep n xs ↔ x ∈ xs ∧ keep x = true ∧ n < key x := by
  simp [after]

theorem mem_between : x ∈ between key keep n k xs ↔
    x ∈ xs ∧ keep x = true ∧ n < key x ∧ key x ≤ k := by
  simp [between, mem_after, and_assoc]

theorem Sorted.after (keep : α → Bool) (n : κ) (h : Sorted key xs) :
    Sorted key (after key keep n xs) := h.filter _

theorem between_self : between key keep n n xs = [] := by
  rw [List.eq_nil_iff_forall_not_mem]
  intro x hx
  obtain ⟨-, -, hlt, hle⟩ := mem_between.mp hx
  exact absurd hlt (not_lt.mpr hle)

theorem after_cons_pos (h : (keep x && decide (n < key x)) = true) :
    after key keep n (x :: xs) = x :: after key keep n xs :=
  List.filter_cons_of_pos h

theorem after_cons_neg (h : (keep x && decide (n < key x)) = false) :
    after key keep n (x :: xs) = after key keep n xs :=
  List.filter_cons_of_neg (by rw [h]; exact Bool.false_ne_true)

theorem after_append : after key keep n (xs ++ ys) = after key keep n xs ++ after key keep n ys :=
  List.filter_append _ _

/-- A strictly increasing list falls apart at any bound. -/
theorem Sorted.split (h : Sorted key xs) (m : κ) :
    xs.filter (fun x => decide (key x ≤ m)) ++ xs.filter (fun x => decide (m < key x)) = xs := by
  induction xs with
  | nil => rfl
  | cons a xs ih =>
    have htail := ih h.tail
    by_cases hle : key a ≤ m
    · rw [List.filter_cons_of_pos (by simpa using hle), List.cons_append,
        List.filter_cons_of_neg (by simpa using hle), htail]
    · have hall : ∀ x ∈ a :: xs, m < key x := by
        intro x hx
        rcases List.mem_cons.mp hx with rfl | hx
        · exact not_le.mp hle
        · exact (not_le.mp hle).trans (List.rel_of_pairwise_cons h hx)
      have hnone : (a :: xs).filter (fun x => decide (key x ≤ m)) = [] := by
        rw [List.filter_eq_nil_iff]
        exact fun x hx => by simpa using hall x hx
      rw [hnone, List.nil_append, List.filter_eq_self]
      exact fun x hx => by simpa using hall x hx

theorem between_trans (h : Sorted key xs) (hnm : n ≤ m) (hmk : m ≤ k) :
    between key keep n k xs = between key keep n m xs ++ between key keep m k xs := by
  have hcut := Sorted.split ((h.after keep n).filter (fun x => decide (key x ≤ k))) m
  rw [between, ← hcut, between, between, after, after]
  simp only [List.filter_filter]
  congr 1 <;> refine List.filter_congr (fun x _ => ?_)
  · by_cases hx : key x ≤ m
    · simp [hx, hx.trans hmk]
    · simp [hx]
  · by_cases hx : m < key x
    · simp [hx, hnm.trans_lt hx, Bool.and_comm]
    · simp [hx]

omit [LinearOrder κ] in
theorem next_concat (xs : List α) (x : α) : next key n (xs ++ [x]) = key x := by
  rw [next, List.getLast?_concat, Option.map_some, Option.getD_some]

theorem next_le (h : ∀ x ∈ xs, key x ≤ k) (hn : n ≤ k) : next key n xs ≤ k := by
  rcases List.eq_nil_or_concat xs with rfl | ⟨init, z, rfl⟩
  · exact hn
  · rw [List.concat_eq_append, next_concat]
    exact h z (by simp)

theorem Sorted.le_next (h : Sorted key xs) : ∀ x ∈ xs, key x ≤ next key n xs := by
  intro x hx
  rcases List.eq_nil_or_concat xs with rfl | ⟨init, z, rfl⟩
  · cases hx
  · rw [List.concat_eq_append] at h hx ⊢
    rw [next_concat]
    rcases List.mem_append.mp hx with hx | hx
    · exact ((List.pairwise_append.mp h).2.2 x hx z (by simp)).le
    · rw [List.mem_singleton.mp hx]

theorem Sorted.next_lt (h : Sorted key (xs ++ ys)) (hn : ∀ y ∈ ys, n < key y) :
    ∀ y ∈ ys, next key n xs < key y := by
  intro y hy
  rcases List.eq_nil_or_concat xs with rfl | ⟨init, z, rfl⟩
  · exact hn y hy
  · rw [List.concat_eq_append] at h ⊢
    rw [next_concat]
    exact (List.pairwise_append.mp h).2.2 z (by simp) y hy

omit [LinearOrder κ] in
theorem next_mem (h : next key n xs ≠ n) : ∃ x ∈ xs, key x = next key n xs := by
  rcases List.eq_nil_or_concat xs with rfl | ⟨init, z, rfl⟩
  · exact absurd rfl h
  · rw [List.concat_eq_append, next_concat]
    exact ⟨z, by simp, rfl⟩

/-- A page is what lies up to its last entry. -/
theorem page_between (h : Sorted key xs) :
    page key keep n limit xs =
      between key keep n (next key n (page key keep n limit xs)) xs := by
  have hsorted := h.after keep n
  have hfloor : ∀ x ∈ after key keep n xs, n < key x := fun x hx => (mem_after.mp hx).2.2
  rw [between]
  unfold page
  generalize after key keep n xs = ys at hsorted hfloor ⊢
  have hcut : ys.take limit ++ ys.drop limit = ys := List.take_append_drop limit ys
  have hhead := Sorted.le_next (n := n) (hsorted.sublist (List.take_sublist limit ys))
  have htail := Sorted.next_lt (n := n) (hcut.symm ▸ hsorted)
    (fun y hy => hfloor y (List.mem_of_mem_drop hy))
  generalize next key n (ys.take limit) = k at hhead htail ⊢
  conv_rhs => rw [← hcut]
  rw [List.filter_append, List.filter_eq_self.mpr (fun x hx => decide_eq_true (hhead x hx)),
    List.filter_eq_nil_iff.mpr (fun x hx => by simpa using htail x hx), List.append_nil]

theorem next_ge (keep : α → Bool) (n : κ) (limit : ℕ) (h : Sorted key xs) :
    n ≤ next key n (page key keep n limit xs) := by
  by_cases heq : next key n (page key keep n limit xs) = n
  · exact heq.ge
  · obtain ⟨x, hx, hk⟩ := next_mem heq
    rw [page_between h] at hx
    rw [← hk]
    exact (mem_between.mp hx).2.2.1.le

/-- A page that is not full has reached the end. -/
theorem page_short (hshort : (page key keep n limit xs).length < limit) :
    page key keep n limit xs = after key keep n xs := by
  unfold page at hshort ⊢
  rw [List.length_take] at hshort
  exact List.take_of_length_le (by omega)

/-- Later entries leave alone what has been passed. -/
theorem between_grow (h : Sorted key (xs ++ ys)) (hk : k = n ∨ ∃ x ∈ xs, key x = k) :
    between key keep n k (xs ++ ys) = between key keep n k xs := by
  rcases hk with rfl | ⟨z, hz, rfl⟩
  · rw [between_self, between_self]
  · have hnone : (after key keep n ys).filter (fun x => decide (key x ≤ key z)) = [] := by
      rw [List.filter_eq_nil_iff]
      intro y hy
      simpa using (List.pairwise_append.mp h).2.2 z hz y (mem_after.mp hy).1
    rw [between, after_append, List.filter_append, hnone, List.append_nil, between]

theorem Read.exact (hr : Read key keep n xs got k) (h : Sorted key xs) :
    n ≤ k ∧ got = between key keep n k xs ∧ (k = n ∨ ∃ x ∈ xs, key x = k) := by
  induction hr with
  | start => exact ⟨le_refl n, between_self.symm, .inl rfl⟩
  | grow _ hgrow ih =>
    obtain ⟨rest, rfl⟩ := hgrow
    obtain ⟨hle, hgot, hk⟩ := ih (List.pairwise_append.mp h).1
    refine ⟨hle, hgot.trans (between_grow h hk).symm, hk.imp id ?_⟩
    exact fun ⟨x, hx, hxk⟩ => ⟨x, List.mem_append_left _ hx, hxk⟩
  | @turn xs got k limit _ ih =>
    obtain ⟨hle, hgot, hk⟩ := ih h
    have hnext := next_ge keep k limit h
    refine ⟨hle.trans hnext, ?_, ?_⟩
    · rw [between_trans h hle hnext, ← hgot]
      exact congrArg (got ++ ·) (page_between h)
    · by_cases heq : next key k (page key keep k limit xs) = k
      · rw [heq]
        exact hk
      · obtain ⟨x, hx, hxk⟩ := next_mem heq
        rw [page_between h] at hx
        exact .inr ⟨x, (mem_between.mp hx).1, hxk⟩

theorem Read.caught_up (hr : Read key keep n xs got k) (h : Sorted key xs)
    (hshort : (page key keep k limit xs).length < limit) :
    got ++ page key keep k limit xs = after key keep n xs := by
  obtain ⟨-, hgot, -⟩ := (hr.turn limit).exact h
  rw [hgot, page_short hshort, between, List.filter_eq_self]
  intro x hx
  refine decide_eq_true ?_
  by_cases hkx : k < key x
  · obtain ⟨hmem, hkeep, -⟩ := mem_after.mp hx
    exact Sorted.le_next (h.after keep k) x (mem_after.mpr ⟨hmem, hkeep, hkx⟩)
  · refine (not_lt.mp hkx).trans ?_
    rw [← page_short hshort]
    exact next_ge keep k limit h

end Pages

end Paging
