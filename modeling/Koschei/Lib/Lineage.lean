import Koschei.Lib.Names
import Mathlib.Logic.Relation

/-!
# Items that name their predecessors

An item names its predecessor, or names none and is the first. An item is
grounded when its predecessors lead to a first one.

When items name one predecessor only, a grounded item does not come again among
its successors. A chain of digests without collisions is of this kind: the
digest of an item settles what the item says, its predecessor included.
-/

namespace Koschei.Lib

variable {α : Type}

/-- The predecessors of an item lead to a first one. -/
inductive Grounded (Names : α → Option α → Prop) : α → Prop where
  | first {item : α} (names : Names item none) : Grounded Names item
  | next {item previous : α} (names : Names item (some previous))
      (grounded : Grounded Names previous) : Grounded Names item

/-- The second item names the first as its predecessor. -/
def NamedBy (Names : α → Option α → Prop) (previous item : α) : Prop := Names item (some previous)

variable {Names : α → Option α → Prop}

/-- A grounded item is not among its successors: between the two, items would name
predecessors for ever. -/
theorem Grounded.not_again (functional : ∀ item a b, Names item a → Names item b → a = b)
    {item : α} (grounded : Grounded Names item) : ¬ TransGen (NamedBy Names) item item := by
  induction grounded with
  | first names =>
    intro again
    obtain ⟨previous, -, named⟩ := Relation.TransGen.tail'_iff.mp again
    cases functional _ _ _ names named
  | @next item previous names _ ih =>
    intro again
    obtain ⟨last, path, named⟩ := Relation.TransGen.tail'_iff.mp again
    cases functional _ _ _ names named
    exact ih (.head' names path)

end Koschei.Lib
