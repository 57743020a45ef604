import PeerBridge.Lib.Upsert
import Mathlib.Logic.ExistsUnique

namespace Rows
variable {α β κ : Type}

/-- Two tables under one primary key, every row of one linked to a row of the other. -/
structure Paired (f : α → κ) (g : β → κ) (link : α → β → Prop) (xs : List α) (ys : List β) :
    Prop where
  left_keys : (xs.map f).Nodup
  right_keys : (ys.map g).Nodup
  linked : ∀ x ∈ xs, ∃ y ∈ ys, g y = f x ∧ link x y
  owned : ∀ y ∈ ys, ∃ x ∈ xs, f x = g y

section Pairs
variable {f : α → κ} {g : β → κ} {link : α → β → Prop} {xs : List α} {ys : List β} {x : α} {y : β}

theorem Paired.nil : Paired f g link [] [] :=
  ⟨List.nodup_nil, List.nodup_nil, fun _ h => absurd h List.not_mem_nil,
    fun _ h => absurd h List.not_mem_nil⟩

theorem Paired.unique_right (h : Paired f g link xs ys) (hx : x ∈ xs) :
    ∃! y, y ∈ ys ∧ g y = f x := by
  obtain ⟨y, hy, hk, -⟩ := h.linked x hx
  exact ⟨y, ⟨hy, hk⟩, fun z hz => eq_of_key_eq h.right_keys hz.1 hy (hz.2.trans hk.symm)⟩

theorem Paired.unique_left (h : Paired f g link xs ys) (hy : y ∈ ys) :
    ∃! x, x ∈ xs ∧ f x = g y := by
  obtain ⟨x, hx, hk⟩ := h.owned y hy
  exact ⟨x, ⟨hx, hk⟩, fun z hz => eq_of_key_eq h.left_keys hz.1 hx (hz.2.trans hk.symm)⟩

theorem Paired.link_of_key (h : Paired f g link xs ys) (hx : x ∈ xs) (hy : y ∈ ys)
    (hk : g y = f x) : link x y := by
  obtain ⟨z, hz, hzk, hl⟩ := h.linked x hx
  rwa [eq_of_key_eq h.right_keys hy hz (hk.trans hzk.symm)]

end Pairs

section Tables
variable [DecidableEq κ]

theorem lookup_cons_self {key : α → κ} (x : α) (xs : List α) :
    lookup key (key x) (x :: xs) = some x := List.find?_cons_of_pos (by simp)

theorem lookup_cons_ne {key : α → κ} {k : κ} {x : α} {xs : List α} (h : key x ≠ k) :
    lookup key k (x :: xs) = lookup key k xs := List.find?_cons_of_neg (by simpa using h)

theorem upsert_of_lookup {key : α → κ} {row : α} {rows : List α}
    (h : lookup key (key row) rows = some row) : upsert key row rows = rows := by
  induction rows with
  | nil => cases h
  | cons r rows ih =>
    by_cases hk : key r = key row
    · rw [← hk, lookup_cons_self] at h
      obtain rfl := Option.some.inj h
      exact if_pos rfl
    · rw [lookup_cons_ne hk] at h
      rw [upsert, if_neg hk, ih h]

-- one pass over the left table that writes each row's partner
def fill (f : α → κ) (g : β → κ) (make : α → Option β → β) : List α → List β → List β
  | [], ys => ys
  | x :: xs, ys => fill f g make xs (upsert g (make x (lookup g (f x) ys)) ys)

variable {f : α → κ} {g : β → κ} {link : α → β → Prop} {xs : List α} {ys : List β} {x : α} {y : β}

theorem Paired.upsert (h : Paired f g link xs ys) (hk : g y = f x) (hl : link x y) :
    Paired f g link (upsert f x xs) (upsert g y ys) := by
  refine ⟨nodup_upsert x h.left_keys, nodup_upsert y h.right_keys, fun a ha => ?_, fun b hb => ?_⟩
  · rcases mem_upsert_of_nodup h.left_keys ha with rfl | ⟨ha, hne⟩
    · exact ⟨y, mem_upsert_self, hk, hl⟩
    · obtain ⟨b, hb, hbk, hbl⟩ := h.linked a ha
      exact ⟨b, mem_upsert_of_ne h.right_keys hb (by rwa [hbk, hk]), hbk, hbl⟩
  · rcases mem_upsert_of_nodup h.right_keys hb with rfl | ⟨hb, hne⟩
    · exact ⟨x, mem_upsert_self, hk.symm⟩
    · obtain ⟨a, ha, hak⟩ := h.owned b hb
      exact ⟨a, mem_upsert_of_ne h.left_keys ha (by rwa [hak, ← hk]), hak⟩

theorem lookup_fill {make : α → Option β → β} (hmake : ∀ x o, g (make x o) = f x)
    (hx : (xs.map f).Nodup) (k : κ) : lookup g k (fill f g make xs ys) =
      match lookup f k xs with
      | some x => some (make x (lookup g k ys))
      | none => lookup g k ys := by
  induction xs generalizing ys with
  | nil => rfl
  | cons a xs ih =>
    rw [List.map_cons, List.nodup_cons] at hx
    rw [fill, ih hx.2]
    by_cases hk : f a = k
    · subst hk
      have hnone : lookup f (f a) xs = none :=
        lookup_eq_none.mpr fun b hb he => hx.1 (he ▸ List.mem_map_of_mem hb)
      rw [hnone, lookup_upsert, if_pos (hmake _ _), lookup_cons_self]
    · rw [lookup_upsert, if_neg (by rwa [hmake]), lookup_cons_ne hk]

theorem fill_keys {make : α → Option β → β} (hy : (ys.map g).Nodup) :
    ((fill f g make xs ys).map g).Nodup := by
  induction xs generalizing ys with
  | nil => exact hy
  | cons a xs ih => exact ih (nodup_upsert _ hy)

/-- One pass pairs a table whose partners are missing or out of date. -/
theorem fill_paired {make : α → Option β → β}
    (hmake : ∀ x o, g (make x o) = f x ∧ link x (make x o)) (hx : (xs.map f).Nodup)
    (hy : (ys.map g).Nodup) (owned : ∀ y ∈ ys, ∃ x ∈ xs, f x = g y) :
    Paired f g link xs (fill f g make xs ys) := by
  have hlook := fun k => @lookup_fill _ _ _ _ _ _ _ ys _ (fun x o => (hmake x o).1) hx k
  have hkeys : ((fill f g make xs ys).map g).Nodup := fill_keys hy
  refine ⟨hx, hkeys, fun a ha => ?_, fun b hb => ?_⟩
  · have hl := hlook (f a)
    rw [lookup_of_mem hx ha] at hl
    exact ⟨_, lookup_mem hl, hmake _ _⟩
  · have hl := hlook (g b)
    rw [lookup_of_mem hkeys hb] at hl
    cases ha : lookup f (g b) xs with
    | some a => exact ⟨a, lookup_mem ha, lookup_key ha⟩
    | none =>
      rw [ha] at hl
      exact owned b (lookup_mem hl.symm)

theorem mem_fill {make : α → Option β → β} (hmake : ∀ x o, g (make x o) = f x)
    (hx : (xs.map f).Nodup) (hy : (ys.map g).Nodup) (owned : ∀ y ∈ ys, ∃ x ∈ xs, f x = g y)
    (h : y ∈ fill f g make xs ys) : ∃ x ∈ xs, ∃ o, y = make x o := by
  have hl := @lookup_fill _ _ _ _ _ _ _ ys _ hmake hx (g y)
  rw [lookup_of_mem (fill_keys hy) h] at hl
  cases ha : lookup f (g y) xs with
  | some a =>
    rw [ha] at hl
    exact ⟨a, lookup_mem ha, _, Option.some.inj hl⟩
  | none =>
    rw [ha] at hl
    obtain ⟨x, hx, hk⟩ := owned y (lookup_mem hl.symm)
    exact absurd hk (lookup_eq_none.mp ha x hx)

end Tables

end Rows
