import Koschei.Lib.Names

/-!
# Texts that agree or diverge

Two printers that write the same value piece by piece write the same text when
every pair of pieces is the same. The converse fails for pieces in general,
since a longer piece may be made up for by a shorter one later. It holds when
every pair of pieces is either the same or *diverges*: neither piece is the
beginning of the other, so that no continuation can repair the difference.

`Decides agree a b` says that `a` and `b` are the same when `agree` holds and
diverge when it does not. The property passes to concatenations and to joined
lists, with the conjunction of the conditions.
-/

namespace Koschei.Lib

variable {α : Type*} {P Q : Prop} {a b c d : List α}

/-- No continuations make the two texts equal. -/
def Diverge (a b : List α) : Prop := ∀ r s : List α, a ++ r ≠ b ++ s

theorem Diverge.append (h : Diverge a b) (c d : List α) : Diverge (a ++ c) (b ++ d) := by
  intro r s same
  rw [append_assoc, append_assoc] at same
  exact h _ _ same

theorem Diverge.prepend (h : Diverge a b) (c : List α) : Diverge (c ++ a) (c ++ b) := by
  intro r s same
  rw [append_assoc, append_assoc] at same
  exact h r s (append_cancel_left same)

theorem Diverge.ne (h : Diverge a b) : a ≠ b := by
  intro same
  apply h [] []
  rw [same]

theorem diverge_cons {x y : α} (different : x ≠ y) (a b : List α) : Diverge (x :: a) (y :: b) := by
  intro r s same
  exact different (cons.inj same).1

theorem Diverge.cons (h : Diverge a b) (x : α) : Diverge (x :: a) (x :: b) := h.prepend [x]

/-- The two texts are the same under the condition, and diverge without it. -/
structure Decides (agree : Prop) (a b : List α) : Prop where
  same : agree → a = b
  diverge : ¬ agree → Diverge a b

namespace Decides

theorem refl (a : List α) : Decides True a a := ⟨fun _ => rfl, fun h => absurd trivial h⟩

theorem congr (h : Decides P a b) (iff : P ↔ Q) : Decides Q a b :=
  ⟨fun q => h.same (iff.mpr q), fun nq => h.diverge fun p => nq (iff.mp p)⟩

theorem eq_iff (h : Decides P a b) : a = b ↔ P := by
  constructor
  · intro same
    by_contra failed
    exact (h.diverge failed).ne same
  · exact h.same

theorem append (first : Decides P a b) (second : Decides Q c d) :
    Decides (P ∧ Q) (a ++ c) (b ++ d) := by
  constructor
  · rintro ⟨p, q⟩
    rw [first.same p, second.same q]
  · intro failed
    by_cases p : P
    · rw [first.same p]
      exact (second.diverge fun q => failed ⟨p, q⟩).prepend b
    · exact (first.diverge p).append c d

theorem prepend (h : Decides P a b) (c : List α) : Decides P (c ++ a) (c ++ b) :=
  ((refl c).append h).congr (by simp)

theorem followedBy (h : Decides P a b) (c : List α) : Decides P (a ++ c) (b ++ c) :=
  (h.append (refl c)).congr (by simp)

end Decides

/-- Two lists of pieces that agree or diverge piece by piece. -/
inductive DecidesAll : Prop → List (List α) → List (List α) → Prop where
  | nil : DecidesAll True [] []
  | cons {P Q : Prop} {a b : List α} {as bs : List (List α)} :
      Decides P a b → DecidesAll Q as bs → DecidesAll (P ∧ Q) (a :: as) (b :: bs)

theorem DecidesAll.intercalate {as bs : List (List α)} (separator : List α)
    (h : DecidesAll P as bs) : Decides P (separator.intercalate as) (separator.intercalate bs) := by
  induction h with
  | nil => exact Decides.refl _
  | cons piece rest ih =>
    cases rest with
    | nil =>
      simp only [intercalate_singleton]
      exact piece.congr (by simp)
    | cons next others =>
      simp only [intercalate_cons_cons]
      exact (piece.followedBy separator).append ih

end Koschei.Lib
