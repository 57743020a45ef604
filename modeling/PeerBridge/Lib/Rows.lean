import Mathlib.Data.List.Nodup

namespace Rows
variable {α κ β : Type} [DecidableEq κ]

def lookup (key : α → κ) (k : κ) (rows : List α) : Option α :=
  rows.find? (fun r => key r = k)

def upsert (key : α → κ) (row : α) : List α → List α
  | [] => [row]
  | r :: rows => if key r = key row then row :: rows else r :: upsert key row rows

theorem lookup_key {key : α → κ} {k : κ} {rows : List α} {r : α}
    (h : lookup key k rows = some r) : key r = k := by
  simpa using List.find?_some h

theorem lookup_mem {key : α → κ} {k : κ} {rows : List α} {r : α}
    (h : lookup key k rows = some r) : r ∈ rows := List.mem_of_find?_eq_some h

theorem lookup_eq_none {key : α → κ} {k : κ} {rows : List α} :
    lookup key k rows = none ↔ ∀ r ∈ rows, key r ≠ k := by
  simp [lookup]

theorem lookup_append {key : α → κ} {k : κ} (xs ys : List α) :
    lookup key k (xs ++ ys) = (lookup key k xs).or (lookup key k ys) := by
  simp [lookup]

theorem lookup_map {key : α → κ} {f : α → α} (hf : ∀ x, key (f x) = key x) (k : κ)
    (rows : List α) : lookup key k (rows.map f) = (lookup key k rows).map f := by
  induction rows with
  | nil => rfl
  | cons r rows ih => by_cases h : key r = k <;> simp_all [lookup]

theorem lookup_upsert (key : α → κ) (k : κ) (row : α) (rows : List α) :
    lookup key k (upsert key row rows) =
      if key row = k then some row else lookup key k rows := by
  induction rows with
  | nil => by_cases h : key row = k <;> simp [upsert, lookup, h]
  | cons r rows ih =>
    simp only [upsert]
    by_cases hr : key r = key row
    · by_cases hk : key row = k <;> simp [lookup, hr, hk]
    · by_cases hk : key row = k
      · have hrk : key r ≠ k := fun h => hr (h.trans hk.symm)
        simpa [lookup, hr, hrk, hk] using ih
      · rw [if_neg hr, if_neg hk]
        by_cases hrk : key r = k
        · simp [lookup, hrk]
        · simpa [lookup, hrk, hk] using ih

theorem lookup_remove (key : α → κ) (k k' : κ) (rows : List α) :
    lookup key k' (rows.filter (fun r => key r ≠ k)) =
      if k = k' then none else lookup key k' rows := by
  induction rows with
  | nil => simp [lookup]
  | cons r rows ih =>
    by_cases hr : key r = k
    · by_cases hk : k = k'
      · simpa [hr, hk] using ih
      · have hne : key r ≠ k' := fun h => hk (hr.symm.trans h)
        rw [List.filter_cons_of_neg (by simpa using hr), ih, if_neg hk, if_neg hk, lookup, lookup,
          List.find?_cons_of_neg (by simpa using hne)]
    · rw [List.filter_cons_of_pos (by simpa using hr)]
      by_cases hk : key r = k'
      · have hne : k ≠ k' := fun h => hr (hk.trans h.symm)
        simp [lookup, hk, hne]
      · rw [lookup, List.find?_cons_of_neg (by simpa using hk), ← lookup, ih, lookup, lookup,
          List.find?_cons_of_neg (by simpa using hk)]

theorem mem_upsert {key : α → κ} {row x : α} {rows : List α}
    (h : x ∈ upsert key row rows) : x = row ∨ x ∈ rows := by
  induction rows with
  | nil => exact .inl (by simpa [upsert] using h)
  | cons r rows ih =>
    simp only [upsert] at h
    split at h
    · rcases List.mem_cons.mp h with h | h
      · exact .inl h
      · exact .inr (List.mem_cons_of_mem _ h)
    · rcases List.mem_cons.mp h with h | h
      · exact .inr (h ▸ List.mem_cons_self)
      · exact (ih h).imp id (List.mem_cons_of_mem _)

theorem upsert_keys (key : α → κ) (row : α) (rows : List α) :
    (upsert key row rows).map key =
      if key row ∈ rows.map key then rows.map key else rows.map key ++ [key row] := by
  induction rows with
  | nil => simp [upsert]
  | cons r rows ih =>
    by_cases hr : key r = key row
    · simp [upsert, hr]
    · have hne : key row ≠ key r := fun h => hr h.symm
      rw [upsert, if_neg hr, List.map_cons, ih]
      by_cases hm : key row ∈ rows.map key
      · simp [hm]
      · rw [if_neg hm, if_neg (by simpa [hne] using hm)]
        simp

theorem nodup_upsert {key : α → κ} {rows : List α} (row : α)
    (h : (rows.map key).Nodup) : ((upsert key row rows).map key).Nodup := by
  rw [upsert_keys]
  split
  · exact h
  · rename_i hm
    exact List.nodup_append.mpr ⟨h, by simp, by
      intro a ha b hb hab
      exact hm (by rw [List.mem_singleton.mp hb] at hab; exact hab ▸ ha)⟩

omit [DecidableEq κ] in
theorem eq_of_key_eq {key : α → κ} {rows : List α} (h : (rows.map key).Nodup) {x y : α}
    (hx : x ∈ rows) (hy : y ∈ rows) (hk : key x = key y) : x = y :=
  List.inj_on_of_nodup_map h hx hy hk

theorem lookup_of_mem {key : α → κ} {rows : List α} (h : (rows.map key).Nodup) {r : α}
    (hr : r ∈ rows) : lookup key (key r) rows = some r := by
  cases hl : lookup key (key r) rows with
  | none => exact absurd rfl (lookup_eq_none.mp hl r hr)
  | some r' => rw [eq_of_key_eq h (lookup_mem hl) hr (lookup_key hl)]

theorem lookup_iff_mem {key : α → κ} {rows : List α} (h : (rows.map key).Nodup) {k : κ} {r : α} :
    lookup key k rows = some r ↔ r ∈ rows ∧ key r = k :=
  ⟨fun hl => ⟨lookup_mem hl, lookup_key hl⟩, fun ⟨hm, hk⟩ => hk ▸ lookup_of_mem h hm⟩

/-- Beside the new row an upsert holds the rows of the other keys. -/
theorem mem_upsert_of_nodup {key : α → κ} {rows : List α} (h : (rows.map key).Nodup) {row x : α}
    (hx : x ∈ upsert key row rows) : x = row ∨ (x ∈ rows ∧ key x ≠ key row) := by
  have hl := lookup_of_mem (nodup_upsert row h) hx
  rw [lookup_upsert] at hl
  by_cases hk : key row = key x
  · exact .inl (Option.some.inj ((if_pos hk).symm.trans hl)).symm
  · exact .inr ⟨(mem_upsert hx).resolve_left (fun he => hk (by rw [he])), fun he => hk he.symm⟩

end Rows
