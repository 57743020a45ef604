import PeerBridge.Lib.Rows

namespace Rows
variable {α κ : Type} [DecidableEq κ] {key : α → κ} {rows : List α} {row x : α}

theorem mem_upsert_self : row ∈ upsert key row rows :=
  lookup_mem ((lookup_upsert key (key row) row rows).trans (if_pos rfl))

theorem mem_upsert_of_ne (h : (rows.map key).Nodup) (hx : x ∈ rows) (hk : key x ≠ key row) :
    x ∈ upsert key row rows := by
  have hl : lookup key (key x) (upsert key row rows) = some x := by
    rw [lookup_upsert, if_neg (Ne.symm hk)]
    exact lookup_of_mem h hx
  exact lookup_mem hl

theorem mem_upsert_iff (h : (rows.map key).Nodup) :
    x ∈ upsert key row rows ↔ x = row ∨ (x ∈ rows ∧ key x ≠ key row) := by
  refine ⟨mem_upsert_of_nodup h, ?_⟩
  rintro (rfl | ⟨hx, hk⟩)
  · exact mem_upsert_self
  · exact mem_upsert_of_ne h hx hk

/-- A row goes on as itself or as what replaced it. -/
theorem kept_upsert (h : (rows.map key).Nodup) (hx : x ∈ rows) :
    x ∈ upsert key row rows ∨ (key x = key row ∧ row ∈ upsert key row rows) := by
  by_cases hk : key x = key row
  · exact .inr ⟨hk, mem_upsert_self⟩
  · exact .inl (mem_upsert_of_ne h hx hk)

theorem upsert_upsert (r : α) (hk : key r = key row) :
    upsert key row (upsert key r rows) = upsert key row rows := by
  induction rows with
  | nil => simp [upsert, hk]
  | cons q rows ih =>
    by_cases hq : key q = key row
    · simp [upsert, hk, hq]
    · simp [upsert, hk, hq, ih]

theorem upsert_of_absent (h : lookup key (key row) rows = none) :
    upsert key row rows = rows ++ [row] := by
  induction rows with
  | nil => rfl
  | cons r rows ih =>
    rw [lookup_eq_none] at h
    rw [upsert, if_neg (h r List.mem_cons_self), List.cons_append,
      ih (lookup_eq_none.mpr (fun x hx => h x (List.mem_cons_of_mem _ hx)))]

theorem pairwise_upsert {R : α → α → Prop} {old : α} (h : lookup key (key row) rows = some old)
    (hleft : ∀ x, R x old → R x row) (hright : ∀ x, R old x → R row x) (hR : rows.Pairwise R) :
    (upsert key row rows).Pairwise R := by
  induction rows with
  | nil => cases h
  | cons r rows ih =>
    obtain ⟨hr, hR⟩ := List.pairwise_cons.mp hR
    by_cases hk : key r = key row
    · rw [lookup, List.find?_cons_of_pos (by simpa using hk)] at h
      obtain rfl := Option.some.inj h
      rw [upsert, if_pos hk]
      exact List.pairwise_cons.mpr ⟨fun x hx => hright x (hr x hx), hR⟩
    · rw [lookup, List.find?_cons_of_neg (by simpa using hk)] at h
      rw [upsert, if_neg hk]
      refine List.pairwise_cons.mpr ⟨fun x hx => ?_, ih h hR⟩
      rcases mem_upsert hx with rfl | hx
      · exact hleft r (hr old (lookup_mem h))
      · exact hr x hx

section Batch
variable {f : α → α} {batch : List α}

theorem lookup_foldl_upsert (hf : ∀ r, key (f r) = key r) (h : (batch.map key).Nodup) (k : κ) :
    lookup key k (batch.foldl (fun all r => upsert key (f r) all) rows) =
      ((lookup key k batch).map f).or (lookup key k rows) := by
  induction batch generalizing rows with
  | nil => rfl
  | cons r batch ih =>
    obtain ⟨hnew, h⟩ := List.nodup_cons.mp h
    rw [List.foldl_cons, ih h, lookup_upsert, hf]
    by_cases hk : key r = k
    · have hnone : lookup key k batch = none :=
        lookup_eq_none.mpr (fun q hq he => hnew (List.mem_map.mpr ⟨q, hq, he.trans hk.symm⟩))
      have hsome : lookup key k (r :: batch) = some r := List.find?_cons_of_pos (by simpa using hk)
      rw [hnone, hsome, if_pos hk]
      rfl
    · have hnext : lookup key k (r :: batch) = lookup key k batch :=
        List.find?_cons_of_neg (by simpa using hk)
      rw [hnext, if_neg hk]

theorem mem_foldl_upsert (hx : x ∈ batch.foldl (fun all r => upsert key (f r) all) rows) :
    x ∈ rows ∨ ∃ r ∈ batch, x = f r := by
  induction batch generalizing rows with
  | nil => exact .inl hx
  | cons r batch ih =>
    rcases ih hx with h | ⟨q, hq, rfl⟩
    · rcases mem_upsert h with rfl | h
      · exact .inr ⟨r, List.mem_cons_self, rfl⟩
      · exact .inl h
    · exact .inr ⟨q, List.mem_cons_of_mem _ hq, rfl⟩

theorem nodup_foldl_upsert (h : (rows.map key).Nodup) :
    ((batch.foldl (fun all r => upsert key (f r) all) rows).map key).Nodup := by
  induction batch generalizing rows with
  | nil => exact h
  | cons r batch ih => exact ih (nodup_upsert (f r) h)

end Batch

theorem countP_upsert_some {p : α → Bool} {old : α} (h : lookup key (key row) rows = some old) :
    (upsert key row rows).countP p + (p old).toNat = rows.countP p + (p row).toNat := by
  induction rows with
  | nil => cases h
  | cons q rows ih =>
    by_cases hq : key q = key row
    · rw [lookup, List.find?_cons_of_pos (by simpa using hq)] at h
      obtain rfl := Option.some.inj h
      rw [upsert, if_pos hq, List.countP_cons, List.countP_cons]
      cases p q <;> cases p row <;> simp
    · have hl : lookup key (key row) rows = some old := by
        rwa [lookup, List.find?_cons_of_neg (by simpa using hq)] at h
      rw [upsert, if_neg hq, List.countP_cons, List.countP_cons]
      have := ih hl
      omega

theorem countP_upsert_none {p : α → Bool} (h : lookup key (key row) rows = none) :
    (upsert key row rows).countP p = rows.countP p + (p row).toNat := by
  induction rows with
  | nil => cases hp : p row <;> simp [upsert, hp]
  | cons q rows ih =>
    have hq : key q ≠ key row := lookup_eq_none.mp h q List.mem_cons_self
    have hl : lookup key (key row) rows = none :=
      lookup_eq_none.mpr fun r hr => lookup_eq_none.mp h r (List.mem_cons_of_mem _ hr)
    rw [upsert, if_neg hq, List.countP_cons, List.countP_cons, ih hl]
    omega

end Rows
