import Koschei.Lib.Names

/-!
# Dictionaries that keep the order of insertion

A dictionary is a list of entries. A key that is put in again keeps its place and
takes the new item; a new key goes to the end. After a series of puts, a key has
the item that was put last, and of two keys the one that was put first stands
first.
-/

namespace Koschei.Lib.Dictionary

variable {K V : Type} [DecidableEq K]

/-- `dictionary[key] = item`. -/
def put (dictionary : List (K × V)) (key : K) (item : V) : List (K × V) :=
  if key ∈ dictionary.map fst then
    dictionary.map fun entry => if entry.1 = key then (key, item) else entry
  else dictionary ++ [(key, item)]

/-- A dictionary filled entry by entry. -/
def ofEntries (entries : List (K × V)) : List (K × V) :=
  entries.foldl (fun dictionary entry => put dictionary entry.1 entry.2) []

def lastItem (key : K) (entries : List (K × V)) : Option V := entries.reverse.lookup key

theorem ofEntries_snoc (entries : List (K × V)) (key : K) (item : V) :
    ofEntries (entries ++ [(key, item)]) = put (ofEntries entries) key item := by
  unfold ofEntries
  rw [foldl_append]
  rfl

theorem keys_put (dictionary : List (K × V)) (key : K) (item : V) :
    (put dictionary key item).map fst =
      if key ∈ dictionary.map fst then dictionary.map fst
      else dictionary.map fst ++ [key] := by
  unfold put
  split
  · rw [map_map]
    apply map_congr_left
    intro entry _
    rw [Function.comp_apply]
    split
    · rename_i same
      exact same.symm
    · rfl
  · rw [map_append]
    rfl

variable {entries : List (K × V)} {key : K}

theorem mem_keys_ofEntries : key ∈ (ofEntries entries).map fst ↔ key ∈ entries.map fst := by
  induction entries using reverseRecOn with
  | nil => exact Iff.rfl
  | append_singleton entries entry ih =>
    obtain ⟨other, item⟩ := entry
    rw [ofEntries_snoc, keys_put, map_append, mem_append, ← ih]
    split
    · rename_i known
      constructor
      · exact .inl
      · rintro (member | last)
        · exact member
        · rw [mem_singleton.mp last]
          exact known
    · rw [mem_append]
      rfl

theorem nodup_keys_ofEntries (entries : List (K × V)) : ((ofEntries entries).map fst).Nodup := by
  induction entries using reverseRecOn with
  | nil => exact nodup_nil
  | append_singleton entries entry ih =>
    obtain ⟨other, item⟩ := entry
    rw [ofEntries_snoc, keys_put]
    split
    · exact ih
    · rename_i fresh
      rw [nodup_append]
      refine ⟨ih, nodup_singleton other, ?_⟩
      rintro key member last isLast rfl
      rw [mem_singleton.mp isLast] at member
      exact fresh member

variable {item : V}

theorem mem_ofEntries : (key, item) ∈ ofEntries entries ↔ lastItem key entries = some item := by
  induction entries using reverseRecOn with
  | nil => simp [ofEntries, lastItem]
  | append_singleton entries entry ih =>
    obtain ⟨other, new⟩ := entry
    unfold lastItem at ih ⊢
    rw [ofEntries_snoc, reverse_append, List.reverse_singleton, singleton_append, lookup_cons]
    unfold put
    by_cases same : key = other
    · subst same
      rw [beq_self_eq_true]
      split
      · rename_i known
        obtain ⟨entry, member, isKey⟩ := mem_map.mp known
        rw [mem_map]
        constructor
        · rintro ⟨found, -, equal⟩
          split at equal
          · cases equal
            rfl
          · rename_i differs
            rw [equal] at differs
            exact absurd rfl differs
        · intro equal
          cases some.inj equal
          exact ⟨entry, member, if_pos isKey⟩
      · rename_i fresh
        rw [mem_append, mem_singleton]
        constructor
        · rintro (member | equal)
          · exact absurd (mem_map_of_mem member) fresh
          · cases equal
            rfl
        · intro equal
          cases some.inj equal
          exact .inr rfl
    · have differs : (key == other) = false := by simpa using same
      rw [differs, ← ih]
      split
      · rw [mem_map]
        constructor
        · rintro ⟨entry, member, equal⟩
          split at equal
          · cases equal
            exact absurd rfl same
          · rwa [← equal]
        · intro member
          exact ⟨(key, item), member, if_neg same⟩
      · rw [mem_append, mem_singleton]
        constructor
        · rintro (member | equal)
          · exact member
          · cases equal
            exact absurd rfl same
        · exact .inl

/-- One key occurs before another does. -/
def Earlier (first second : K) (keys : List K) : Prop :=
  first ∈ keys.takeWhile fun key => key ≠ second

variable {before : List K}

theorem takeWhile_append_of_mem (member : key ∈ before)
    (after : List K) : ((before ++ after).takeWhile fun other => other ≠ key) =
      before.takeWhile fun other => other ≠ key := by
  induction before with
  | nil => cases member
  | cons other before ih =>
    rw [cons_append, takeWhile_cons, takeWhile_cons]
    by_cases same : other = key
    · simp [same]
    · rw [ih ((mem_cons.mp member).resolve_left fun h => same h.symm)]

theorem takeWhile_append_of_notMem (absent : key ∉ before)
    (after : List K) : ((before ++ after).takeWhile fun other => other ≠ key) =
      before ++ after.takeWhile fun other => other ≠ key := by
  apply List.takeWhile_append_of_pos
  intro other member
  rw [decide_eq_true_eq]
  rintro rfl
  exact absent member

/-- The keys stand in the order in which they were first put in. -/
theorem earlier_ofEntries {first second : K} :
    Earlier first second ((ofEntries entries).map fst) ↔
      Earlier first second (entries.map fst) := by
  induction entries using reverseRecOn with
  | nil => exact Iff.rfl
  | append_singleton entries entry ih =>
    obtain ⟨key, item⟩ := entry
    unfold Earlier at ih ⊢
    rw [ofEntries_snoc, keys_put, map_append]
    by_cases known : second ∈ entries.map fst
    · rw [takeWhile_append_of_mem known, ← ih]
      split
      · exact Iff.rfl
      · rw [takeWhile_append_of_mem (mem_keys_ofEntries.mpr known)]
    · have unknown : second ∉ (ofEntries entries).map fst :=
        fun member => known (mem_keys_ofEntries.mp member)
      have same : first ∈ entries.map fst ↔ first ∈ (ofEntries entries).map fst :=
        mem_keys_ofEntries.symm
      rw [takeWhile_append_of_notMem known, mem_append, same]
      split
      · rename_i present
        -- The new entry has a key that is known, so it is not the second key.
        have all := takeWhile_append_of_notMem unknown []
        rw [append_nil] at all
        rw [all, List.takeWhile_nil, append_nil]
        constructor
        · exact .inl
        · rintro (member | last)
          · exact member
          · have same : first = key := mem_singleton.mp (List.takeWhile_subset _ last)
            rw [same]
            exact present
      · rw [takeWhile_append_of_notMem unknown, mem_append]
        rfl

theorem earlier_of_split {other : K} {after : List K} (distinct : (before ++ key :: after).Nodup) :
    Earlier other key (before ++ key :: after) ↔ other ∈ before := by
  have absent : key ∉ before := by
    intro member
    exact (nodup_append.mp distinct).2.2 key member key mem_cons_self rfl
  unfold Earlier
  rw [takeWhile_append_of_notMem absent, takeWhile_cons]
  simp

variable {property : K × V → Bool}

theorem find?_reverse_iff {dictionary : List (K × V)} (distinct : (dictionary.map fst).Nodup) :
    dictionary.reverse.find? property = some (key, item) ↔
      (key, item) ∈ dictionary ∧ property (key, item) = true ∧
        ∀ other new, other ≠ key → (other, new) ∈ dictionary →
          property (other, new) = true → Earlier other key (dictionary.map fst) := by
  rw [List.find?_eq_some_iff_append]
  constructor
  · rintro ⟨holds, later, earlier, split, none_⟩
    have whole : dictionary = earlier.reverse ++ (key, item) :: later.reverse := by
      rw [← reverse_reverse dictionary, split]
      simp
    subst whole
    refine ⟨mem_append_right _ mem_cons_self, holds, ?_⟩
    intro other new apart member also
    rw [map_append, map_cons] at distinct ⊢
    rw [earlier_of_split distinct]
    rcases mem_append.mp member with before | rest
    · exact mem_map_of_mem before
    · rcases mem_cons.mp rest with same | after
      · exact absurd (congrArg fst same) apart
      · have fails := none_ _ (mem_reverse.mp after)
        rw [also] at fails
        cases fails
  · rintro ⟨member, holds, others⟩
    obtain ⟨before, after, rfl⟩ := append_of_mem member
    refine ⟨holds, after.reverse, before.reverse, by simp, ?_⟩
    rintro ⟨other, new⟩ inAfter
    rw [mem_reverse] at inAfter
    rw [not_eq_true']
    by_contra also
    rw [not_eq_false] at also
    rw [map_append, map_cons] at distinct others
    have keyAfter : other ∈ after.map fst := mem_map_of_mem inAfter
    obtain ⟨-, rest, disjoint⟩ := nodup_append.mp distinct
    have apart : other ≠ key := by
      rintro rfl
      exact (nodup_cons.mp rest).1 keyAfter
    have early := others other new apart (mem_append_right _ (mem_cons_of_mem _ inAfter)) also
    rw [earlier_of_split distinct] at early
    exact disjoint other early other (mem_cons_of_mem _ keyAfter) rfl

/-- The last entry with a property: it has it, and every other entry that has it was put in
earlier. -/
theorem find?_reverse_ofEntries :
    (ofEntries entries).reverse.find? property = some (key, item) ↔
      lastItem key entries = some item ∧ property (key, item) = true ∧
        ∀ other new, other ≠ key → lastItem other entries = some new →
          property (other, new) = true → Earlier other key (entries.map fst) := by
  rw [find?_reverse_iff (nodup_keys_ofEntries entries)]
  simp only [mem_ofEntries, earlier_ofEntries]

/-! ## Distinct keys -/

section Keys

variable {α : Type} {key : α → K} {l : List α} {a : α}

/-- With distinct keys, what is found under a key is the element that has it. -/
theorem find?_key_iff (distinct : (l.map key).Nodup) {k : K} :
    l.find? (fun x => decide (key x = k)) = some a ↔ a ∈ l ∧ key a = k := by
  constructor
  · intro found
    exact ⟨mem_of_find?_eq_some found,
      of_decide_eq_true (find?_some (p := fun x => decide (key x = k)) found)⟩
  · rintro ⟨member, rfl⟩
    cases found : l.find? fun x => decide (key x = key a) with
    | none => exact absurd (decide_eq_true rfl) (find?_eq_none.mp found a member)
    | some b =>
      have same := of_decide_eq_true (find?_some (p := fun x => decide (key x = key a)) found)
      rw [inj_on_of_nodup_map distinct (mem_of_find?_eq_some found) member same]

omit [DecidableEq K] in
/-- Where the keys are distinct, an element has none of the keys before it. -/
theorem new_of_nodup_map {before after : List α} (distinct : ((before ++ a :: after).map key).Nodup) :
    key a ∉ before.map key := by
  rw [map_append, map_cons] at distinct
  exact fun member => List.disjoint_of_nodup_append distinct member mem_cons_self

end Keys

end Koschei.Lib.Dictionary

namespace Koschei.Lib

export Dictionary (find?_key_iff keys_put lastItem new_of_nodup_map ofEntries ofEntries_snoc)

end Koschei.Lib
