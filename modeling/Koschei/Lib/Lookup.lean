import Koschei.Lib.Dictionary
import Mathlib.Data.List.Perm.Subperm

/-!
# Looking up a key

What is found under a key of a list of entries is an entry of it, and with
distinct keys every entry is found.
-/

namespace Koschei.Lib

variable {K V : Type} [BEq K] [LawfulBEq K] {entries : List (K × V)} {key : K} {item : V}

theorem mem_of_lookup_eq_some (found : entries.lookup key = some item) : (key, item) ∈ entries := by
  obtain ⟨before, after, rfl, -⟩ := lookup_eq_some_iff.mp found
  exact mem_append_right _ mem_cons_self

theorem lookup_eq_some_iff_mem (distinct : (entries.map fst).Nodup) :
    entries.lookup key = some item ↔ (key, item) ∈ entries := by
  refine ⟨mem_of_lookup_eq_some, fun member => ?_⟩
  cases found : entries.lookup key with
  | none =>
    have apart := lookup_eq_none_iff.mp found (key, item) member
    exact absurd rfl (bne_iff_ne.mp apart)
  | some other =>
    have same := inj_on_of_nodup_map distinct (mem_of_lookup_eq_some found) member rfl
    exact congrArg some (congrArg snd same)

/-- Lists of as many entries with distinct keys, of which one is found in the other, are the same
under every key. -/
theorem lookup_map_congr_iff {W : Type} {f : V → W} {xs ys : List (K × V)}
    (first : (xs.map fst).Nodup) (second : (ys.map fst).Nodup) :
    (∀ key, (xs.lookup key).map f = (ys.lookup key).map f) ↔
      xs.length = ys.length ∧ ∀ entry ∈ xs, (ys.lookup entry.1).map f = some (f entry.2) := by
  constructor
  · intro same
    have keys : ∀ key, key ∈ xs.map fst ↔ key ∈ ys.map fst := by
      intro key
      have found := congrArg Option.isSome (same key)
      rw [isSome_map, isSome_map, Bool.eq_iff_iff, List.lookup_isSome_iff,
        List.lookup_isSome_iff] at found
      simpa only [mem_map, beq_iff_eq, @eq_comm K key] using found
    have perm := (List.perm_ext_iff_of_nodup first second).mpr keys
    refine ⟨by simpa using perm.length_eq, fun entry member => ?_⟩
    rw [← same, (lookup_eq_some_iff_mem first).mpr member, map_some]
  · rintro ⟨lengths, each⟩ key
    have within : xs.map fst ⊆ ys.map fst := by
      intro key member
      obtain ⟨entry, inside, rfl⟩ := mem_map.mp member
      obtain ⟨item, found, -⟩ := map_eq_some_iff.mp (each entry inside)
      exact mem_map.mpr ⟨_, mem_of_lookup_eq_some found, rfl⟩
    have perm := (first.subperm within).perm_of_length_le (by simp [lengths])
    cases found : xs.lookup key with
    | some item => exact (each _ (mem_of_lookup_eq_some found)).symm
    | none =>
      cases other : ys.lookup key with
      | none => rfl
      | some item =>
        have member := perm.mem_iff.mpr (mem_map_of_mem (mem_of_lookup_eq_some other))
        obtain ⟨entry, inside, isKey⟩ := mem_map.mp member
        have there := (lookup_eq_some_iff_mem first).mpr inside
        rw [show entry.1 = key from isKey, found] at there
        cases there

theorem lookup_replace [DecidableEq K] (entries : List (K × V)) (key other : K) (item : V) :
    (entries.map fun entry => if entry.1 = key then (key, item) else entry).lookup other =
      if other = key then (entries.lookup other).map fun _ => item else entries.lookup other := by
  induction entries with
  | nil => simp
  | cons entry entries ih =>
    obtain ⟨first, old⟩ := entry
    rw [map_cons]
    by_cases isKey : first = key
    · subst isKey
      rw [if_pos rfl, lookup_cons, lookup_cons, ih]
      by_cases same : other = first
      · simp [same]
      · simp [same, beq_eq_false_iff_ne.mpr same]
    · rw [if_neg isKey, lookup_cons, lookup_cons, ih]
      by_cases same : other = first
      · simp [same, isKey]
      · simp [beq_eq_false_iff_ne.mpr same]

theorem lookup_put_eq [DecidableEq K] (entries : List (K × V)) (key other : K) (item : V) :
    (Dictionary.put entries key item).lookup other =
      if other = key then some item else entries.lookup other := by
  unfold Dictionary.put
  split
  · rename_i present
    rw [lookup_replace]
    by_cases same : other = key
    · obtain ⟨entry, member, isKey⟩ := mem_map.mp present
      have known : (entries.lookup other).isSome := by
        rw [List.lookup_isSome_iff]
        exact ⟨entry, member, by rw [same, isKey, beq_self_eq_true]⟩
      obtain ⟨old, found⟩ := isSome_iff_exists.mp known
      rw [if_pos same, if_pos same, found, map_some]
    · rw [if_neg same, if_neg same]
  · rename_i absent
    rw [lookup_append, lookup_cons, List.lookup_nil]
    by_cases same : other = key
    · have unknown : entries.lookup other = none := by
        rw [lookup_eq_none_iff]
        intro entry member
        exact bne_iff_ne.mpr fun equal =>
          absent (mem_map.mpr ⟨entry, member, equal.symm.trans same⟩)
      rw [if_pos same, unknown, same, beq_self_eq_true]
      rfl
    · rw [if_neg same, beq_eq_false_iff_ne.mpr same]
      cases entries.lookup other <;> rfl

end Koschei.Lib
