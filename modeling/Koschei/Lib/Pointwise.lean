import Koschei.Lib.Names

/-!
# Lists related element by element

What a relation between the elements of two lists says about finding elements in
them, and the relation that mapping a fallible function over a list leaves behind.
-/

namespace Koschei.Lib

variable {α β ε : Type} {related R : α → β → Prop} {as xs : List α} {bs ys : List β}

section

variable (each : Forall₂ related as bs)

include each

theorem exists_left_of_forall₂ {b : β} (member : b ∈ bs) : ∃ a ∈ as, related a b := by
  induction each with
  | nil => cases member
  | cons first _ ih =>
    rcases mem_cons.mp member with rfl | later
    · exact ⟨_, mem_cons_self, first⟩
    · obtain ⟨a, isIn, holds⟩ := ih later
      exact ⟨a, mem_cons_of_mem _ isIn, holds⟩

theorem forall₂_mem_right : Forall₂ (fun a b => related a b ∧ b ∈ bs) as bs := by
  induction each with
  | nil => exact .nil
  | cons first _ ih =>
    exact .cons ⟨first, mem_cons_self⟩ (ih.imp fun a b both => ⟨both.1, mem_cons_of_mem _ both.2⟩)

theorem exists_right_of_forall₂ {a : α} (member : a ∈ as) : ∃ b ∈ bs, related a b :=
  exists_left_of_forall₂ each.flip member

omit each in
theorem mapM_forall₂ {f : α → Except ε β}
    (mapped : xs.mapM f = .ok ys) : Forall₂ (fun x y => f x = .ok y) xs ys := by
  induction xs generalizing ys with
  | nil =>
    simp only [List.mapM_nil, pure, Except.pure, ok.injEq] at mapped
    subst mapped
    exact .nil
  | cons x xs ih =>
    rw [List.mapM_cons] at mapped
    cases first : f x with
    | error message =>
      rw [first] at mapped
      cases mapped
    | ok y =>
      cases rest : xs.mapM f with
      | error message =>
        rw [first, rest] at mapped
        cases mapped
      | ok ys' =>
        rw [first, rest] at mapped
        cases mapped
        exact .cons first (ih rest)

omit each in
theorem exists_mapM_eq_ok {f : α → Except ε β} {xs : List α} (each : ∀ x ∈ xs, ∃ y, f x = .ok y) :
    ∃ ys, xs.mapM f = .ok ys := by
  induction xs with
  | nil => exact ⟨[], rfl⟩
  | cons x xs ih =>
    obtain ⟨y, first⟩ := each x mem_cons_self
    obtain ⟨ys, rest⟩ := ih fun other inside => each other (mem_cons_of_mem _ inside)
    refine ⟨y :: ys, ?_⟩
    rw [List.mapM_cons, first, rest]
    rfl

theorem forall₂_map_eq {f : β → α} (same : ∀ a b, related a b → a = f b) : as = bs.map f := by
  induction each with
  | nil => rfl
  | cons first _ ih => rw [map_cons, ← same _ _ first, ← ih]

end

/-- An element of the second list stands where the elements before it are related as well. -/
theorem split_of_forall₂ {before after : List β} {b : β}
    (each : Forall₂ related as (before ++ b :: after)) :
    ∃ first a rest, as = first ++ a :: rest ∧ Forall₂ related first before ∧ related a b := by
  induction before generalizing as with
  | nil =>
    cases each with
    | cons here others => exact ⟨[], _, _, rfl, .nil, here⟩
  | cons x before ih =>
    cases each with
    | cons here others =>
      obtain ⟨first, a, rest, rfl, earlier, found⟩ := ih others
      exact ⟨_ :: first, a, rest, rfl, .cons here earlier, found⟩

variable {p : α → Bool} {q : β → Bool}

theorem find_forall₂ (related : Forall₂ R xs ys)
    (same : ∀ x y, R x y → q y = p x) {x : α} (found : xs.find? p = some x) :
    ∃ y, R x y ∧ ys.find? q = some y := by
  induction related with
  | nil => cases found
  | cons first rest ih =>
    rename_i x' y' xs ys
    rw [find?_cons] at found ⊢
    rw [same x' y' first]
    cases chosen : p x' with
    | true =>
      rw [chosen] at found
      cases found
      exact ⟨y', first, rfl⟩
    | false =>
      rw [chosen] at found
      exact ih found

theorem any_forall₂ (related : Forall₂ R xs ys)
    (same : ∀ x y, R x y → q y = p x) : ys.any q = xs.any p := by
  induction related with
  | nil => rfl
  | cons first rest ih => simp only [any_cons, same _ _ first, ih]

end Koschei.Lib
