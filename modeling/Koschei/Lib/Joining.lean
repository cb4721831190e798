import Koschei.Lib.Names
import Mathlib.Algebra.Order.Ring.Int
import Mathlib.Data.List.Infix
import Mathlib.Algebra.BigOperators.Group.List.Basic

/-!
# Rows joined by a separator

`List.intercalate [s]` writes rows one after the other with a separator between
them. The rows are not recovered from the text when a row contains the separator
itself. Two series of rows that join to one text are the same as soon as
corresponding rows contain equally many separators; and all of them contain
together equally many when there are equally many rows.

A text that can be continued in two ways is the same text: when one continuation
starts with one element after the separator and the other one with another, the
end of the text cannot lie inside a longer one.
-/

namespace Koschei.Lib.Joining

variable {α : Type} {s : α} {rows : List (List α)}

theorem intercalate_cons {row : List α} (more : rows ≠ []) :
    [s].intercalate (row :: rows) = row ++ s :: [s].intercalate rows := by
  rw [List.intercalate_cons_of_ne_nil more, append_assoc, singleton_append]

/-- A text that does not end with the separator, and that is continued after the separator in two
different ways, is known from its two continuations. -/
theorem eq_of_continuations {p p' u u' v v' : List α} {a b : α} (apart : a ≠ b)
    (ends : p.getLast? ≠ some s) (ends' : p'.getLast? ≠ some s)
    (first : p ++ s :: a :: u = p' ++ s :: a :: u')
    (second : p ++ s :: b :: v = p' ++ s :: b :: v') : p = p' := by
  -- the text that is longer goes on with both continuations of the other one
  have longer : ∀ {p p' u u' v v' : List α}, p'.getLast? ≠ some s → ∀ w, p' = p ++ w →
      s :: a :: u = w ++ s :: a :: u' → p ++ s :: b :: v = p' ++ s :: b :: v' → p = p' := by
    intro p p' u u' v v' ends' w grown one other
    subst grown
    cases w with
    | nil => exact (append_nil p).symm
    | cons c w =>
      rw [append_assoc, List.append_cancel_left_eq] at other
      rw [cons_append, cons.injEq] at one other
      obtain ⟨rfl, one⟩ := one
      cases w with
      | nil => exact absurd getLast?_concat ends'
      | cons d w =>
        rw [cons_append, cons.injEq] at one other
        exact absurd (one.1.trans other.2.1.symm) apart
  rcases List.append_eq_append_iff.mp first with ⟨w, grown, rest⟩ | ⟨w, grown, rest⟩
  · exact longer ends' w grown rest second
  · exact (longer ends w grown rest second.symm).symm

/-- A part of known width between two separators is found again when there is no separator before
the first or after the second in one of the two texts. -/
theorem delimited_inj {before before' middle middle' after after' : List α}
    (plain : s ∉ before) (plain' : s ∉ after) (width : middle.length = middle'.length)
    (same : before ++ s :: (middle ++ s :: after) = before' ++ s :: (middle' ++ s :: after')) :
    before = before' ∧ middle = middle' ∧ after = after' := by
  have aligned : before = before' := by
    rcases List.append_eq_append_iff.mp same with ⟨w, rfl, rest⟩ | ⟨w, rfl, rest⟩
    · cases w with
      | nil => exact (append_nil before).symm
      | cons c w =>
        -- The other text is shorter after its second separator, so this lies after ours.
        have lengths := congrArg List.length rest
        simp only [length_append, length_cons] at lengths
        have ours : after <:+ c :: w ++ s :: (middle' ++ s :: after') :=
          rest ▸ ⟨s :: (middle ++ [s]), by simp⟩
        have theirs : s :: after' <:+ c :: w ++ s :: (middle' ++ s :: after') :=
          ⟨c :: w ++ s :: middle', by simp⟩
        have inside : s :: after' <:+ after :=
          List.suffix_of_suffix_length_le theirs ours (by rw [length_cons]; omega)
        exact absurd (inside.subset mem_cons_self) plain'
    · cases w with
      | nil => exact append_nil before'
      | cons c w =>
        have first : s = c := (cons.inj rest).1
        exact absurd (first ▸ mem_append_right _ mem_cons_self) plain
  subst aligned
  have rest := (cons.inj (append_cancel_left same)).2
  obtain ⟨sameMiddle, last⟩ := append_inj rest width
  exact ⟨rfl, sameMiddle, (cons.inj last).2⟩

/-- What is in a joined text is the separator or in a row. -/
theorem mem_intercalate {c : α} (member : c ∈ [s].intercalate rows) :
    c = s ∨ ∃ row ∈ rows, c ∈ row := by
  induction rows with
  | nil => cases member
  | cons row rows ih =>
    by_cases last : rows = []
    · subst last
      rw [intercalate_singleton] at member
      exact .inr ⟨row, mem_cons_self, member⟩
    · rw [intercalate_cons last] at member
      rcases mem_append.mp member with here | later
      · exact .inr ⟨row, mem_cons_self, here⟩
      · rcases mem_cons.mp later with separator | further
        · exact .inl separator
        · obtain isSeparator | ⟨other, isRow, inside⟩ := ih further
          · exact .inl isSeparator
          · exact .inr ⟨other, mem_cons_of_mem _ isRow, inside⟩

section Counts

variable [DecidableEq α]

/-- The ends of two beginnings with equally many separators are at the same separator. -/
theorem append_inj_of_count {a a' b b' : List α} (counts : a.count s = a'.count s)
    (same : a ++ s :: b = a' ++ s :: b') : a = a' ∧ b = b' := by
  rcases List.append_eq_append_iff.mp same with ⟨w, rfl, rest⟩ | ⟨w, rfl, rest⟩
  · cases w with
    | nil =>
      rw [nil_append] at rest
      cases rest
      exact ⟨(append_nil a).symm, rfl⟩
    | cons c w =>
      rw [cons_append] at rest
      cases rest
      rw [count_append, count_cons_self] at counts
      omega
  · cases w with
    | nil =>
      rw [nil_append] at rest
      cases rest
      exact ⟨append_nil a', rfl⟩
    | cons c w =>
      rw [cons_append] at rest
      cases rest
      rw [count_append, count_cons_self] at counts
      omega

variable {rows rows' : List (List α)}

/-- Rows that join to one text are the same when corresponding rows contain equally many
separators. -/
theorem rows_eq_of_count (counts : rows.map (List.count s) = rows'.map (List.count s))
    (joined : [s].intercalate rows = [s].intercalate rows') : rows = rows' := by
  induction rows generalizing rows' with
  | nil =>
    cases rows' with
    | nil => rfl
    | cons row' rows' => cases counts
  | cons row rows ih =>
    cases rows' with
    | nil => cases counts
    | cons row' rows' =>
      rw [map_cons, map_cons, cons.injEq] at counts
      by_cases last : rows = []
      · subst last
        have last' : rows' = [] := map_eq_nil_iff.mp counts.2.symm
        subst last'
        rw [intercalate_singleton, intercalate_singleton] at joined
        rw [joined]
      · have more : rows' ≠ [] := by
          rintro rfl
          exact last (map_eq_nil_iff.mp counts.2)
        rw [intercalate_cons last, intercalate_cons more] at joined
        obtain ⟨same, rest⟩ := append_inj_of_count counts.1 joined
        rw [same, ih counts.2 rest]

/-- The separators of a joined text: those in the rows and those between them. -/
theorem count_intercalate (rows : List (List α)) (some_row : rows ≠ []) :
    ([s].intercalate rows).count s + 1 = (rows.map (List.count s)).sum + rows.length := by
  induction rows with
  | nil => exact absurd rfl some_row
  | cons row rows ih =>
    by_cases last : rows = []
    · subst last
      simp
    · rw [intercalate_cons last, count_append, count_cons_self, map_cons, sum_cons, length_cons]
      have rest := ih last
      omega

/-- Series of as many rows that join to one text contain equally many separators. -/
theorem count_rows (lengths : rows.length = rows'.length)
    (joined : [s].intercalate rows = [s].intercalate rows') :
    (rows.map (List.count s)).sum = (rows'.map (List.count s)).sum := by
  by_cases none : rows = []
  · subst none
    rw [length_eq_zero_iff.mp lengths.symm]
  · have some_row : rows' ≠ [] := by
      rintro rfl
      exact none (length_eq_zero_iff.mp lengths)
    have first := count_intercalate (s := s) rows none
    have second := count_intercalate (s := s) rows' some_row
    rw [joined] at first
    omega

/-- Rows without separators are recovered from their text. -/
theorem rows_eq_of_plain (some_row : rows ≠ [])
    (some_row' : rows' ≠ []) (plain : ∀ row ∈ rows, s ∉ row) (plain' : ∀ row ∈ rows', s ∉ row)
    (joined : [s].intercalate rows = [s].intercalate rows') : rows = rows' := by
  have none : ∀ series : List (List α), (∀ row ∈ series, s ∉ row) →
      series.map (List.count s) = replicate series.length 0 := by
    intro series without
    rw [map_congr_left fun row member => count_eq_zero.mpr (without row member), List.map_const']
  have first := count_intercalate (s := s) rows some_row
  have second := count_intercalate (s := s) rows' some_row'
  rw [none rows plain, List.sum_replicate, nsmul_zero] at first
  rw [none rows' plain', List.sum_replicate, nsmul_zero] at second
  have lengths : rows.length = rows'.length := by
    rw [joined] at first
    omega
  refine rows_eq_of_count ?_ joined
  rw [none rows plain, none rows' plain', lengths]

end Counts

end Koschei.Lib.Joining
