import Koschei.Lib.Names
import Mathlib.Algebra.Group.Nat.Defs
import Mathlib.Data.List.Sort

/-!
# Sorting by a key that loses information

A stable sort by a monotone key puts a list in order exactly when the list
already has in order those of its elements that the key cannot tell apart. The
key of this kind that matters in practice is the conversion of an integer to a
floating-point number: `roundTo` rounds a number to a given number of binary
digits, to the even neighbour when it is half way between two.
-/

namespace Koschei.Lib

section Key

variable {α β : Type*} [LinearOrder β] {key : α → β} {l : List α}

/-- The list in order, elements with the same key in the order of the list. -/
def sortByKey (key : α → β) (l : List α) : List α := l.mergeSort fun a b => decide (key a ≤ key b)

theorem keyLe_trans (key : α → β) : ∀ a b c : α, decide (key a ≤ key b) = true →
    decide (key b ≤ key c) = true → decide (key a ≤ key c) = true := by
  intro a b c first second
  rw [decide_eq_true_eq] at *
  exact first.trans second

theorem keyLe_total (key : α → β) : ∀ a b : α,
    (decide (key a ≤ key b) || decide (key b ≤ key a)) = true := by
  intro a b
  rw [or_eq_true, decide_eq_true_eq, decide_eq_true_eq]
  exact le_total (key a) (key b)

theorem sortByKey_perm (key : α → β) (l : List α) : (sortByKey key l).Perm l :=
  List.mergeSort_perm l _

@[simp]
theorem sortByKey_nil (key : α → β) : sortByKey key [] = [] := List.perm_nil.mp (sortByKey_perm key [])

@[simp]
theorem sortByKey_singleton (key : α → β) (a : α) : sortByKey key [a] = [a] :=
  List.perm_singleton.mp (sortByKey_perm key [a])

theorem sortByKey_pairwise (key : α → β) (l : List α) :
    (sortByKey key l).Pairwise fun a b => key a ≤ key b := by
  have sorted := List.pairwise_mergeSort (keyLe_trans key) (keyLe_total key) l
  exact sorted.imp of_decide_eq_true

/-- Stability: two elements the key leaves in order stay in order. -/
theorem sortByKey_keeps {a b : α} (ordered : key a ≤ key b) (before : [a, b].Sublist l) :
    [a, b].Sublist (sortByKey key l) :=
  List.pair_sublist_mergeSort (keyLe_trans key) (keyLe_total key) (decide_eq_true ordered) before

/-- The elements of one key are the same list before and after the sort. -/
theorem filter_sortByKey (key : α → β) (l : List α) (k : β) :
    (sortByKey key l).filter (key · = k) = l.filter (key · = k) := by
  have alike : (l.filter (key · = k)).Pairwise fun a b => decide (key a ≤ key b) = true := by
    rw [List.pairwise_iff_forall_sublist]
    intro a b both
    have first := List.of_mem_filter (both.subset (mem_cons_self))
    have second := List.of_mem_filter (both.subset (mem_cons_of_mem a mem_cons_self))
    rw [decide_eq_true_eq] at first second
    rw [first, second]
    exact decide_eq_true (le_refl k)
  have kept : (l.filter (key · = k)).Sublist (sortByKey key l) :=
    List.sublist_mergeSort (keyLe_trans key) (keyLe_total key) alike filter_sublist
  have filtered := kept.filter (key · = k)
  rw [List.filter_filter] at filtered
  simp only [Bool.and_self] at filtered
  exact (filtered.eq_of_length ((sortByKey_perm key l).filter _).length_eq.symm).symm

/-- Where the key tells the elements apart, the sorted list does not depend on their order. -/
theorem sortByKey_eq_of_perm {l' : List α} (perm : l.Perm l')
    (apart : ∀ a ∈ l, ∀ b ∈ l, key a = key b → a = b) : sortByKey key l = sortByKey key l' := by
  have both : (sortByKey key l).Perm (sortByKey key l') :=
    (sortByKey_perm key l).trans (perm.trans (sortByKey_perm key l').symm)
  refine List.Perm.eq_of_pairwise ?_ (sortByKey_pairwise key l) (sortByKey_pairwise key l') both
  intro a b first second below above
  refine apart a ((sortByKey_perm key l).subset first) b ?_ (le_antisymm below above)
  exact perm.symm.subset ((sortByKey_perm key l').subset second)

/-- Mapping commutes with the sort when it keeps the keys of the elements. -/
theorem map_sortByKey {γ : Type*} {f : γ → α} {other : γ → β} {l : List γ}
    (keeps : ∀ c ∈ l, other c = key (f c)) : (sortByKey other l).map f = sortByKey key (l.map f) := by
  rw [sortByKey, sortByKey, List.map_mergeSort]
  intro a first b second
  rw [keeps a first, keeps b second]

end Key

section Order

variable {α β : Type*} [LinearOrder α] [LinearOrder β] {key : α → β} {l : List α}

/-- A stable sort by a monotone key puts the list in order exactly when the elements of one
key are in order already. -/
theorem sortByKey_eq_sort_iff (monotone : Monotone key) :
    sortByKey key l = sortByKey id l ↔ l.Pairwise fun a b => key a = key b → a ≤ b := by
  constructor
  · intro same
    rw [List.pairwise_iff_forall_sublist]
    intro a b before equal
    have kept := sortByKey_keeps (le_of_eq equal) before
    rw [same] at kept
    exact List.pairwise_iff_forall_sublist.mp (sortByKey_pairwise id l) kept
  · intro ordered
    have permuted : (sortByKey key l).Perm (sortByKey id l) :=
      (sortByKey_perm key l).trans (sortByKey_perm id l).symm
    have sorted : (sortByKey key l).Pairwise fun a b => a ≤ b := by
      rw [List.pairwise_iff_forall_sublist]
      intro a b before
      have keys := List.pairwise_iff_forall_sublist.mp (sortByKey_pairwise key l) before
      rcases lt_or_eq_of_le keys with less | equal
      · exact le_of_not_gt fun greater => absurd (monotone (le_of_lt greater)) (not_le_of_gt less)
      · -- Both are among the elements of one key, which the sort has not moved.
        have both : [a, b].Sublist ((sortByKey key l).filter (key · = key b)) := by
          have selected := before.filter (key · = key b)
          simpa [equal] using selected
        rw [filter_sortByKey] at both
        exact List.pairwise_iff_forall_sublist.mp ordered (both.trans filter_sublist) equal
    exact List.Perm.eq_of_pairwise (fun a b _ _ => le_antisymm) sorted (sortByKey_pairwise id l)
      permuted

end Order

/-! ## Rounding -/

/-- The unit in the last of the given number of binary digits. -/
def unitOf (digits n : Nat) : Nat := 2 ^ (n.log2 + 1 - digits)

/-- Whether a number is rounded up: it is above the middle, or at the middle with an odd
quotient. -/
def RoundsUp (unit n : Nat) : Prop :=
  unit < 2 * (n % unit) ∨ 2 * (n % unit) = unit ∧ n / unit % 2 = 1

instance (unit n : Nat) : Decidable (RoundsUp unit n) := inferInstanceAs (Decidable (_ ∨ _))

/-- A number to the nearest multiple of the unit, to the even one when two are as near. -/
def roundAt (unit n : Nat) : Nat :=
  if RoundsUp unit n then (n / unit + 1) * unit else n / unit * unit

/-- A number rounded to a number of binary digits. -/
def roundTo (digits n : Nat) : Nat := roundAt (unitOf digits n) n

theorem le_roundAt (unit n : Nat) : n / unit * unit ≤ roundAt unit n := by
  unfold roundAt
  split
  · exact Nat.mul_le_mul_right unit (Nat.le_succ _)
  · exact le_refl _

theorem roundAt_le (unit n : Nat) : roundAt unit n ≤ (n / unit + 1) * unit := by
  unfold roundAt
  split
  · exact le_refl _
  · exact Nat.mul_le_mul_right unit (Nat.le_succ _)

theorem roundAt_mono (unit : Nat) {n m : Nat} (ordered : n ≤ m) :
    roundAt unit n ≤ roundAt unit m := by
  rcases lt_or_eq_of_le (Nat.div_le_div_right (c := unit) ordered) with less | equal
  · calc roundAt unit n ≤ (n / unit + 1) * unit := roundAt_le unit n
      _ ≤ m / unit * unit := Nat.mul_le_mul_right unit less
      _ ≤ roundAt unit m := le_roundAt unit m
  · have remainders : n % unit ≤ m % unit := by
      have first := Nat.div_add_mod n unit
      have second := Nat.div_add_mod m unit
      rw [equal] at first
      omega
    have follows : RoundsUp unit n → RoundsUp unit m := by
      unfold RoundsUp
      rw [equal]
      omega
    unfold roundAt
    by_cases up : RoundsUp unit n
    · rw [if_pos up, if_pos (follows up), equal]
    · rw [if_neg up, equal]
      exact le_roundAt unit m

theorem roundTo_le (digits n : Nat) : roundTo digits n ≤ 2 ^ (n.log2 + 1) := by
  have below : n < 2 ^ (n.log2 + 1) := Nat.lt_log2_self
  have split : 2 ^ (n.log2 + 1) = 2 ^ (n.log2 + 1 - (n.log2 + 1 - digits)) * unitOf digits n := by
    rw [unitOf, ← Nat.pow_add]
    congr 1
    omega
  rw [split] at below ⊢
  exact (roundAt_le _ n).trans (Nat.mul_le_mul_right _ (Nat.div_lt_of_lt_mul (by
    rwa [Nat.mul_comm] at below)))

variable {digits n : Nat}

theorem le_roundTo (some_digit : 0 < digits) (positive : n ≠ 0) :
    2 ^ n.log2 ≤ roundTo digits n := by
  have above : 2 ^ n.log2 ≤ n := Nat.log2_self_le positive
  have split : 2 ^ n.log2 = 2 ^ (n.log2 - (n.log2 + 1 - digits)) * unitOf digits n := by
    rw [unitOf, ← Nat.pow_add]
    congr 1
    omega
  have unitPositive : 0 < unitOf digits n := by
    rw [unitOf]
    exact Nat.two_pow_pos _
  rw [split] at above ⊢
  exact (Nat.mul_le_mul_right _ ((Nat.le_div_iff_mul_le unitPositive).mpr above)).trans
    (le_roundAt _ n)

theorem roundTo_mono (some_digit : 0 < digits) : Monotone (roundTo digits) := by
  intro n m ordered
  by_cases zero : n = 0
  · subst zero
    have nothing : roundTo digits 0 = 0 := by simp [roundTo, roundAt, RoundsUp, unitOf]
    rw [nothing]
    exact Nat.zero_le _
  · have logs : n.log2 ≤ m.log2 :=
      (Nat.le_log2 (by omega)).mpr ((Nat.log2_self_le zero).trans ordered)
    rcases lt_or_eq_of_le logs with less | equal
    · calc roundTo digits n ≤ 2 ^ (n.log2 + 1) := roundTo_le digits n
        _ ≤ 2 ^ m.log2 := Nat.pow_le_pow_right (by omega) less
        _ ≤ roundTo digits m := le_roundTo some_digit (by omega)
    · have units : unitOf digits n = unitOf digits m := by rw [unitOf, unitOf, equal]
      rw [roundTo, roundTo, units]
      exact roundAt_mono _ ordered

/-- An integer rounded to a number of binary digits. -/
def roundInt (digits : Nat) (i : Int) : Int :=
  if i < 0 then -(roundTo digits i.natAbs : Int) else roundTo digits i.natAbs

theorem roundInt_mono (some_digit : 0 < digits) {i j : Int} (ordered : i ≤ j) :
    roundInt digits i ≤ roundInt digits j := by
  unfold roundInt
  by_cases first : i < 0
  · rw [if_pos first]
    by_cases second : j < 0
    · rw [if_pos second]
      have sizes := roundTo_mono some_digit (a := j.natAbs) (b := i.natAbs) (by omega)
      omega
    · rw [if_neg second]
      omega
  · rw [if_neg first, if_neg (by omega : ¬ j < 0)]
    have sizes := roundTo_mono some_digit (a := i.natAbs) (b := j.natAbs) (by omega)
    omega

end Koschei.Lib
