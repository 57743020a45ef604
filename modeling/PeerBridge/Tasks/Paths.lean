import PeerBridge.Text
import PeerBridge.Lib.Components

namespace PeerBridge

def pathCollisionKey (P : Platform) (normalized : String) : String :=
  if P.windows then String.ofList (normalized.toList.flatMap P.casefold) else normalized

def startsBelow (path root : String) : Bool := (root ++ "/").toList.isPrefixOf path.toList

def pathOverlaps (P : Platform) (left right : String) : Bool :=
  let left := pathCollisionKey P left
  let right := pathCollisionKey P right
  left = "." || right = "." || left = right || startsBelow left right || startsBelow right left

def pathWithin (P : Platform) (path root : String) : Bool :=
  let path := pathCollisionKey P path
  let root := pathCollisionKey P root
  root = "." || path = root || startsBelow path root

def components (t : String) : List (List Char) := t.toList.splitOn '/'

-- equal to the other or one of its ancestor directories; '.' is above everything
def PathAbove (P : Platform) (above below : String) : Prop :=
  pathCollisionKey P above = "." ∨
    components (pathCollisionKey P above) <+: components (pathCollisionKey P below)

instance (P : Platform) (a b : String) : Decidable (PathAbove P a b) :=
  inferInstanceAs (Decidable (_ ∨ _))

section Paths
variable {P : Platform} {a b : String}

theorem components_prefix_iff :
    components a <+: components b ↔ a = b ∨ startsBelow b a = true := by
  rw [components, components, Components.splitOn_prefix_iff, String.toList_inj, startsBelow,
    List.isPrefixOf_iff_prefix, String.toList_append]
  rfl

theorem pathOverlaps_iff : pathOverlaps P a b = true ↔ PathAbove P a b ∨ PathAbove P b a := by
  simp only [pathOverlaps, PathAbove, components_prefix_iff, Bool.or_eq_true, decide_eq_true_eq]
  constructor
  · rintro ((((h | h) | h) | h) | h)
    · exact .inl (.inl h)
    · exact .inr (.inl h)
    · exact .inl (.inr (.inl h))
    · exact .inr (.inr (.inr h))
    · exact .inl (.inr (.inr h))
  · rintro ((h | h | h) | (h | h | h))
    · exact .inl (.inl (.inl (.inl h)))
    · exact .inl (.inl (.inr h))
    · exact .inr h
    · exact .inl (.inl (.inl (.inr h)))
    · exact .inl (.inl (.inr h.symm))
    · exact .inl (.inr h)

theorem pathOverlaps_comm : pathOverlaps P a b = pathOverlaps P b a := by
  rw [Bool.eq_iff_iff, pathOverlaps_iff, pathOverlaps_iff, or_comm]

theorem pathWithin_iff : pathWithin P b a = true ↔ PathAbove P a b := by
  simp only [pathWithin, PathAbove, components_prefix_iff, Bool.or_eq_true, decide_eq_true_eq,
    or_assoc, eq_comm (a := pathCollisionKey P b)]

end Paths

end PeerBridge
