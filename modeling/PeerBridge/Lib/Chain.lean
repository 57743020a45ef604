import Mathlib.Data.List.Induction

namespace Chain
variable {δ ε : Type} (link : δ → ε → δ)

def head (root : δ) (xs : List ε) : δ := xs.foldl link root

def links (root : δ) : List ε → List (δ × ε)
  | [] => []
  | x :: xs => (root, x) :: links (link root x) xs

variable {link}

@[simp] theorem head_nil (root : δ) : head link root [] = root := rfl

@[simp] theorem head_cons (root : δ) (x : ε) (xs : List ε) :
    head link root (x :: xs) = head link (link root x) xs := rfl

theorem head_snoc (root : δ) (xs : List ε) (x : ε) :
    head link root (xs ++ [x]) = link (head link root xs) x := by
  simp [head]

theorem links_snoc (root : δ) (xs : List ε) (x : ε) :
    links link root (xs ++ [x]) = links link root xs ++ [(head link root xs, x)] := by
  induction xs generalizing root with
  | nil => rfl
  | cons y ys ih => rw [List.cons_append, links, ih, links, head_cons, List.cons_append]

/-- A head commits to the whole chain when no two links collide and no link is the root. -/
theorem eq_of_head_eq {root : δ} {xs ys : List ε}
    (inj : ∀ p ∈ links link root xs, ∀ q ∈ links link root ys,
      link p.1 p.2 = link q.1 q.2 → p = q)
    (left : ∀ p ∈ links link root xs, link p.1 p.2 ≠ root)
    (right : ∀ q ∈ links link root ys, link q.1 q.2 ≠ root)
    (h : head link root xs = head link root ys) : xs = ys := by
  induction xs using List.reverseRecOn generalizing ys with
  | nil =>
    rcases List.eq_nil_or_concat ys with rfl | ⟨ys, y, rfl⟩
    · rfl
    · rw [List.concat_eq_append] at h right
      rw [head_nil, head_snoc] at h
      have hy := right (head link root ys, y) (by rw [links_snoc]; simp)
      exact absurd h.symm hy
  | append_singleton xs x ih =>
    have hx := left (head link root xs, x) (by rw [links_snoc]; simp)
    rcases List.eq_nil_or_concat ys with rfl | ⟨ys, y, rfl⟩
    · rw [head_nil, head_snoc] at h
      exact absurd h hx
    · rw [List.concat_eq_append] at *
      rw [head_snoc, head_snoc] at h
      have hp := inj (head link root xs, x) (by rw [links_snoc]; simp)
        (head link root ys, y) (by rw [links_snoc]; simp) h
      rw [Prod.mk.injEq] at hp
      obtain ⟨hheads, rfl⟩ := hp
      have htail : xs = ys := by
        refine ih (fun p hp q hq => ?_) (fun p hp => ?_) (fun q hq => ?_) hheads
        · exact inj p (by rw [links_snoc]; exact List.mem_append_left _ hp)
            q (by rw [links_snoc]; exact List.mem_append_left _ hq)
        · exact left p (by rw [links_snoc]; exact List.mem_append_left _ hp)
        · exact right q (by rw [links_snoc]; exact List.mem_append_left _ hq)
      rw [htail]

end Chain
