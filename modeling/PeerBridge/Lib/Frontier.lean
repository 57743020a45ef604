import Mathlib.Data.List.Basic

namespace Frontier
variable {α : Type} (key : α → Nat) (done : α → Bool)

def scan (start : Nat) (xs : List α) : Nat :=
  (((xs.takeWhile done).getLast?).map key).getD start

def window (start : Nat) (xs : List α) : Nat :=
  match ((xs.filter (fun x => !done x)).map key).min? with
  | none => ((xs.map key).max?).getD start
  | some first => (((xs.filter (fun x => done x && key x < first)).map key).max?).getD start

structure Reaches (start : Nat) (xs : List α) (n : Nat) : Prop where
  forward : start ≤ n
  covered : ∀ x ∈ xs, key x ≤ n → done x = true
  attained : n = start ∨ ∃ x ∈ xs, key x = n
  maximal : ∀ x ∈ xs, (∀ y ∈ xs, key y ≤ key x → done y = true) → key x ≤ n

variable {key done} {start : Nat} {xs : List α}

theorem Reaches.le {n m : Nat} (h : Reaches key done start xs n)
    (k : Reaches key done start xs m) : n ≤ m := by
  rcases h.attained with rfl | ⟨x, hx, rfl⟩
  · exact k.forward
  · exact k.maximal x hx (fun y hy hle => h.covered y hy hle)

theorem Reaches.unique {n m : Nat} (h : Reaches key done start xs n)
    (k : Reaches key done start xs m) : n = m := Nat.le_antisymm (h.le k) (k.le h)

theorem scan_reaches (sorted : xs.Pairwise (fun x y => key x < key y))
    (above : ∀ x ∈ xs, start < key x) : Reaches key done start xs (scan key done start xs) := by
  induction xs generalizing start with
  | nil => exact ⟨Nat.le_refl _, by simp, .inl rfl, by simp⟩
  | cons a xs ih =>
    obtain ⟨hhead, htail⟩ := List.pairwise_cons.mp sorted
    by_cases ha : done a = true
    · have hscan : scan key done start (a :: xs) = scan key done (key a) xs := by
        unfold scan
        rw [List.takeWhile_cons_of_pos ha]
        cases hl : xs.takeWhile done with
        | nil => rfl
        | cons b bs =>
          rw [List.getLast?_cons_cons]
          cases hb : (b :: bs).getLast? with
          | none => simp at hb
          | some z => rfl
      have hr : Reaches key done (key a) xs (scan key done (key a) xs) := ih htail hhead
      rw [hscan]
      refine ⟨Nat.le_trans (Nat.le_of_lt (above a List.mem_cons_self)) hr.forward, ?_, ?_, ?_⟩
      · intro x hx hle
        rcases List.mem_cons.mp hx with rfl | hx
        · exact ha
        · exact hr.covered x hx hle
      · rcases hr.attained with h | ⟨x, hx, h⟩
        · exact .inr ⟨a, List.mem_cons_self, h.symm⟩
        · exact .inr ⟨x, List.mem_cons_of_mem _ hx, h⟩
      · intro x hx hdone
        rcases List.mem_cons.mp hx with rfl | hx
        · exact hr.forward
        · exact hr.maximal x hx (fun y hy => hdone y (List.mem_cons_of_mem _ hy))
    · have hscan : scan key done start (a :: xs) = start := by
        unfold scan
        rw [List.takeWhile_cons_of_neg ha]
        rfl
      rw [hscan]
      refine ⟨Nat.le_refl _, ?_, .inl rfl, ?_⟩
      · intro x hx hle
        exact absurd hle (Nat.not_le.mpr (above x hx))
      · intro x hx hdone
        have hle : key a ≤ key x := by
          rcases List.mem_cons.mp hx with rfl | hx
          · exact Nat.le_refl _
          · exact Nat.le_of_lt (hhead x hx)
        exact absurd (hdone a List.mem_cons_self hle) ha

theorem getD_max (key : α → Nat) (start : Nat) (xs : List α) (hs : ∀ x ∈ xs, start < key x) :
    start ≤ ((xs.map key).max?).getD start ∧
      (∀ x ∈ xs, key x ≤ ((xs.map key).max?).getD start) ∧
      (((xs.map key).max?).getD start = start ∨
        ∃ x ∈ xs, key x = ((xs.map key).max?).getD start) := by
  cases hm : (xs.map key).max? with
  | none =>
    have hnil : xs = [] := by simpa using hm
    subst hnil
    exact ⟨Nat.le_refl _, by simp, .inl rfl⟩
  | some n =>
    obtain ⟨hn, hle⟩ := List.max?_eq_some_iff.mp hm
    obtain ⟨x, hx, rfl⟩ := List.mem_map.mp hn
    refine ⟨Nat.le_of_lt (hs x hx), fun y hy => hle _ (List.mem_map_of_mem hy), .inr ⟨x, hx, rfl⟩⟩

theorem window_reaches (above : ∀ x ∈ xs, start < key x) :
    Reaches key done start xs (window key done start xs) := by
  unfold window
  cases hm : ((xs.filter (fun x => !done x)).map key).min? with
  | none =>
    have hall : ∀ x ∈ xs, done x = true := by simpa using hm
    obtain ⟨h1, h2, h3⟩ := getD_max key start xs above
    exact ⟨h1, fun x hx _ => hall x hx, h3, fun x hx _ => h2 x hx⟩
  | some first =>
    obtain ⟨hfirst, hleast⟩ := List.min?_eq_some_iff.mp hm
    obtain ⟨a, ha, rfl⟩ := List.mem_map.mp hfirst
    obtain ⟨ha, hopen⟩ := List.mem_filter.mp ha
    have hopen : done a = false := by simpa using hopen
    obtain ⟨h1, h2, h3⟩ := getD_max key start
      (xs.filter (fun x => done x && key x < key a))
      (fun x hx => above x (List.mem_of_mem_filter hx))
    have hbelow : ((xs.filter (fun x => done x && key x < key a)).map key).max?.getD start <
        key a := by
      rcases h3 with h | ⟨x, hx, h⟩
      · rw [h]
        exact above a ha
      · rw [← h]
        have hx := (List.mem_filter.mp hx).2
        simp only [Bool.and_eq_true, decide_eq_true_eq] at hx
        exact hx.2
    refine ⟨h1, fun x hx hle => ?_, ?_, fun x hx hdone => ?_⟩
    · by_contra hne
      have hmin := hleast (key x)
        (List.mem_map_of_mem (List.mem_filter.mpr ⟨hx, by simpa using hne⟩))
      exact absurd (Nat.lt_of_le_of_lt hle hbelow) (Nat.not_lt.mpr hmin)
    · exact h3.imp id (fun ⟨x, hx, h⟩ => ⟨x, List.mem_of_mem_filter hx, h⟩)
    · have hxa : key x < key a := by
        by_contra hge
        have hd := hdone a ha (by omega)
        rw [hopen] at hd
        exact absurd hd (by simp)
      refine h2 x (List.mem_filter.mpr ⟨hx, ?_⟩)
      rw [hdone x hx (Nat.le_refl _)]
      simpa using hxa

/-- On a sorted list the loop and the two aggregate queries find the same end. -/
theorem scan_eq_window (sorted : xs.Pairwise (fun x y => key x < key y))
    (above : ∀ x ∈ xs, start < key x) : scan key done start xs = window key done start xs :=
  (scan_reaches sorted above).unique (window_reaches above)

end Frontier
