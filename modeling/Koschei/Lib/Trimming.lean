import Koschei.Lib.Names
import Mathlib.Data.List.DropRight

/-!
# Trimming a list at both ends

`trim p l` takes away the elements that satisfy `p` from both ends of `l`. Two
libraries that trim by different predicates, one inside the other, agree on a
list exactly when the wider predicate finds nothing at the ends that the
narrower one would leave.
-/

namespace Koschei.Lib

variable {α : Type*} {p q : α → Bool} {l : List α}

/-- The list without the elements satisfying the predicate at its ends. -/
def trim (p : α → Bool) (l : List α) : List α := (l.dropWhile p).rdropWhile p

/-- Neither end satisfies the predicate. -/
structure CleanEnds (p : α → Bool) (l : List α) : Prop where
  head : ∀ x, l.head? = some x → p x = false
  last : ∀ x, l.getLast? = some x → p x = false

theorem CleanEnds.reverse (h : CleanEnds p l) : CleanEnds p l.reverse := by
  constructor
  · intro x first
    rw [List.head?_reverse] at first
    exact h.last x first
  · intro x final
    rw [List.getLast?_reverse] at final
    exact h.head x final

theorem dropWhile_of_head (clean : ∀ x, l.head? = some x → p x = false) : l.dropWhile p = l := by
  cases l with
  | nil => rfl
  | cons x l => rw [dropWhile_cons, clean x rfl, if_neg false_ne_true]

theorem head?_dropWhile (l : List α) : ∀ x, (l.dropWhile p).head? = some x → p x = false := by
  intro x first
  have stops := List.head?_dropWhile_not p l
  rw [first] at stops
  simpa using stops

/-- A beginning of a list starts as the list does, unless it is empty. -/
theorem head?_of_prefix {a b : List α} (initial : a <+: b) (some_left : a ≠ []) :
    a.head? = b.head? := by
  obtain ⟨rest, rfl⟩ := initial
  cases a with
  | nil => exact absurd rfl some_left
  | cons x a => rfl

theorem trim_eq_nil_iff : trim p l = [] ↔ ∀ x ∈ l, p x = true := by
  rw [trim, List.rdropWhile_eq_nil_iff]
  constructor
  · intro rest x member
    rw [← List.takeWhile_append_dropWhile (p := p) (l := l)] at member
    rcases mem_append.mp member with first | later
    · exact List.mem_takeWhile_imp first
    · exact rest x later
  · intro all x member
    exact all x ((List.dropWhile_sublist p).subset member)

theorem head?_trim (left : trim p l ≠ []) : (trim p l).head? = (l.dropWhile p).head? :=
  head?_of_prefix (List.rdropWhile_prefix _ _) left

theorem trim_clean (p : α → Bool) (l : List α) : CleanEnds p (trim p l) := by
  constructor
  · intro x first
    have left : trim p l ≠ [] := by
      intro empty
      rw [empty] at first
      cases first
    rw [head?_trim left] at first
    exact head?_dropWhile l x first
  · intro x final
    have left : trim p l ≠ [] := by
      intro empty
      rw [empty] at final
      cases final
    rw [List.getLast?_eq_some_getLast left, some.injEq] at final
    rw [← final]
    exact eq_false_iff.mpr (List.rdropWhile_last_not p _ left)

theorem rdropWhile_append_of_all {r v : List α} (ends : ∀ x ∈ v, p x = true) :
    (r ++ v).rdropWhile p = r.rdropWhile p := by
  rw [List.rdropWhile, List.rdropWhile, reverse_append, dropWhile_append_of_pos]
  intro x member
  exact ends x (mem_reverse.mp member)

/-- What is between elements to be trimmed, when nothing is to be trimmed from it. -/
theorem trim_append {u r v : List α} (before : ∀ x ∈ u, p x = true) (clean : CleanEnds p r)
    (after : ∀ x ∈ v, p x = true) : trim p (u ++ r ++ v) = r := by
  have back : r.rdropWhile p = r := by
    rw [List.rdropWhile, dropWhile_of_head clean.reverse.head, reverse_reverse]
  rw [trim, append_assoc, dropWhile_append_of_pos before]
  cases r with
  | nil =>
    rw [nil_append, List.dropWhile_eq_nil_iff.mpr after]
    rfl
  | cons x r =>
    have stays : ((x :: r) ++ v).dropWhile p = (x :: r) ++ v :=
      dropWhile_of_head fun y first => clean.head y first
    rw [stays, rdropWhile_append_of_all after, back]

theorem trim_of_clean (clean : CleanEnds p l) : trim p l = l := by
  simpa using trim_append (p := p) (u := []) (v := []) (by simp) clean (by simp)

theorem exists_trim (p : α → Bool) (l : List α) : ∃ u v : List α,
    (∀ x ∈ u, p x = true) ∧ (∀ x ∈ v, p x = true) ∧ l = u ++ trim p l ++ v := by
  refine ⟨l.takeWhile p, (l.dropWhile p).rtakeWhile p, ?_, ?_, ?_⟩
  · intro x member
    exact List.mem_takeWhile_imp member
  · intro x member
    exact List.mem_rtakeWhile_imp member
  · rw [trim, append_assoc, List.rdropWhile_append_rtakeWhile, List.takeWhile_append_dropWhile]

theorem trim_reverse (p : α → Bool) (l : List α) : trim p l.reverse = (trim p l).reverse := by
  obtain ⟨u, v, before, after, parts⟩ := exists_trim p l
  have turned : l.reverse = v.reverse ++ (trim p l).reverse ++ u.reverse := by
    conv_lhs => rw [parts]
    simp only [reverse_append, append_assoc]
  rw [turned]
  refine trim_append ?_ (trim_clean p l).reverse ?_
  · intro x member
    exact after x (mem_reverse.mp member)
  · intro x member
    exact before x (mem_reverse.mp member)

/-- Where the wider predicate finds only what the narrower one finds, the two drop alike. -/
theorem dropWhile_congr (narrow : ∀ x, q x = true → p x = true)
    (alike : ∀ x ∈ l.takeWhile p, q x = true) : l.dropWhile q = l.dropWhile p := by
  induction l with
  | nil => rfl
  | cons x l ih =>
    cases wide : p x with
    | false =>
      have kept : q x = false := by
        rw [eq_false_iff]
        intro found
        rw [narrow x found] at wide
        exact Bool.noConfusion wide
      rw [dropWhile_cons, dropWhile_cons, wide, kept, if_neg false_ne_true, if_neg false_ne_true]
    | true =>
      rw [takeWhile_cons, wide, if_pos rfl] at alike
      have found : q x = true := alike x mem_cons_self
      rw [dropWhile_cons, dropWhile_cons, wide, found, if_pos rfl, if_pos rfl]
      exact ih fun y member => alike y (mem_cons_of_mem x member)

/-- Two drops that stop at the same element have dropped the same. -/
theorem takeWhile_of_head?_eq {x : α} (wide : (l.dropWhile p).head? = some x)
    (same : (l.dropWhile q).head? = some x) : ∀ y ∈ l.takeWhile p, q y = true := by
  induction l with
  | nil => simp
  | cons z l ih =>
    rw [dropWhile_cons] at wide same
    cases first : p z with
    | false => simp [first]
    | true =>
      rw [first, if_pos rfl] at wide
      cases second : q z with
      | false =>
        rw [second, if_neg false_ne_true, head?_cons, some.injEq] at same
        have stops := head?_dropWhile l x wide
        rw [← same, first] at stops
        exact Bool.noConfusion stops
      | true =>
        rw [second, if_pos rfl] at same
        intro y member
        rw [takeWhile_cons, first, if_pos rfl] at member
        rcases mem_cons.mp member with rfl | later
        · exact second
        · exact ih wide same y later

theorem takeWhile_of_trim_eq (same : trim q l = trim p l) : ∀ x ∈ l.takeWhile p, q x = true := by
  by_cases empty : trim q l = []
  · intro x member
    exact trim_eq_nil_iff.mp empty x ((List.takeWhile_prefix p).subset member)
  · have narrowHead := head?_trim empty
    have wideHead := head?_trim (same ▸ empty)
    obtain ⟨x, first⟩ : ∃ x, (trim q l).head? = some x :=
      isSome_iff_exists.mp (List.isSome_head?.mpr empty)
    apply takeWhile_of_head?_eq (x := x)
    · rw [← wideHead, ← same, first]
    · rw [← narrowHead, first]

theorem mem_takeWhile_mono {a b : List α} (initial : a <+: b) {x : α}
    (member : x ∈ a.takeWhile p) : x ∈ b.takeWhile p := by
  obtain ⟨rest, rfl⟩ := initial
  induction a with
  | nil => simp at member
  | cons y a ih =>
    rw [cons_append, takeWhile_cons]
    rw [takeWhile_cons] at member
    cases first : p y with
    | false => simp [first] at member
    | true =>
      rw [first, if_pos rfl] at member
      rw [if_pos rfl]
      rcases mem_cons.mp member with rfl | later
      · exact mem_cons_self
      · exact mem_cons_of_mem y (ih later)

/-- The two trims agree exactly when the wider predicate finds at the ends only what the
narrower one finds. -/
theorem trim_eq_trim_iff (narrow : ∀ x, q x = true → p x = true) : trim q l = trim p l ↔
      (∀ x ∈ l.takeWhile p, q x = true) ∧ ∀ x ∈ l.reverse.takeWhile p, q x = true := by
  constructor
  · intro same
    refine ⟨takeWhile_of_trim_eq same, takeWhile_of_trim_eq ?_⟩
    rw [trim_reverse, trim_reverse, same]
  · rintro ⟨front, back⟩
    have start : l.dropWhile q = l.dropWhile p := dropWhile_congr narrow front
    have finish : (l.dropWhile p).reverse.dropWhile q = (l.dropWhile p).reverse.dropWhile p := by
      apply dropWhile_congr narrow
      intro x member
      have initial : (l.dropWhile p).reverse <+: l.reverse :=
        List.reverse_prefix.mpr (List.dropWhile_suffix p)
      exact back x (mem_takeWhile_mono initial member)
    rw [trim, trim, start, List.rdropWhile, List.rdropWhile, finish]

end Koschei.Lib
