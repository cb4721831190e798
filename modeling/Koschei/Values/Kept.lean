import Koschei.Lib.Checks
import Koschei.Values.Standard

/-!
# Every operation keeps within a standard

One lemma for each member, method and builtin: from a world and operands within
a standard, the result and the world after are within it.
-/

namespace Koschei.Values

open Lib Ast

variable {std : Standard} {outside : Outside} {declared : Declared} {world : World}

/-! ## Members -/

variable {receiver value item : Value}

theorem boundMember_within {name missing : String} {methods : List String}
    (holds : Within std receiver) : ResultWithin std (boundMember receiver name methods missing) := by
  unfold boundMember
  split
  · exact resultWithin_ok holds
  · exact resultWithin_error _

variable {key text name : String} {entries : List (String × Value)}

theorem mem_of_lookup (found : entries.lookup key = some value) : (key, value) ∈ entries := by
  obtain ⟨before, after, rfl, -⟩ := lookup_eq_some_iff.mp found
  exact mem_append_right _ mem_cons_self

theorem memberOf_within (within : WorldWithin std world)
    (holds : Within std receiver) (name : String) :
    ResultWithin std (memberOf world receiver name) := by
  unfold memberOf
  split
  · exact boundMember_within holds
  · exact boundMember_within holds
  · exact boundMember_within holds
  · split
    · rename_i typeName fields typeArguments found
      have inside := within.objectOf holds found
      split
      · rename_i value known
        exact resultWithin_ok (inside _ (mem_of_lookup known))
      · exact resultWithin_error _
    · rename_i kind scope roots found
      have inside := within.objectOf holds found
      unfold capabilityMember
      split
      · rename_i root known
        exact resultWithin_ok (inside.2 _ (mem_of_lookup known))
      · split
        · exact resultWithin_ok holds
        · split
          · exact resultWithin_error _
          · exact resultWithin_error _
    · exact boundMember_within holds
    · exact resultWithin_error _
  · exact resultWithin_error _

/-! ## Methods of texts -/

theorem hostLength_within (n : Nat) : ResultWithin std (hostLength n) := by
  unfold hostLength
  split
  · rename_i fits
    refine resultWithin_ok (std.inRange _ ⟨?_, fits⟩)
    unfold intMin
    omega
  · exact resultWithin_error _

/-- What `to_int` reads is within the standard. -/
def Readable (std : Standard) (outside : Outside) (text : String) : Prop :=
  ∀ i, Datum.int? outside.library (strip text.toList) = some i → std.int i

theorem textToInt_within (readable : Readable std outside text) :
    Within std (textToInt outside text) := by
  unfold textToInt
  split
  · rename_i i read
    exact readable i read
  · trivial

variable {arguments items : List Value} {result : Except Fault Value}

theorem textMethod_within (readable : name = "to_int" → Readable std outside text)
    (run : textMethod outside world text name arguments = some result) :
    ResultWithin std result := by
  unfold textMethod at run
  split at run
  · cases run
    exact hostLength_within _
  · cases run
    exact resultWithin_ok (textToInt_within (readable rfl))
  · cases run
    refine resultWithin_ok ?_
    unfold textToFloat
    split
    · trivial
    · trivial
  · cases run
    exact resultWithin_ok trivial
  · cases run
    exact resultWithin_ok trivial
  · cases run
    refine resultWithin_ok ?_
    unfold textSplit
    split
    · split
      · trivial
      · exact within_texts _
    · trivial
  · cases run
    refine resultWithin_ok ?_
    unfold textJoin
    split
    · split
      · trivial
      · trivial
    · trivial
  · cases run

/-! ## Methods of Lists -/

theorem optionSome_within (holds : Within std value) :
    Within std (optionSome value) := within_asPayload holds

theorem resultOk_within (holds : Within std value) :
    Within std (resultOk value) := within_asPayload holds

theorem resultError_within (message : String) : Within std (resultError message) := trivial

theorem unlessCarrying_within {values : List Value} {message : String}
    (holds : ResultWithin std result) :
    ResultWithin std (unlessCarrying world values message result) := by
  unfold unlessCarrying
  split
  · exact resultWithin_error _
  · exact holds

theorem ints?_mem {ints : List Int} (read : ints? items = some ints) :
    ∀ i ∈ ints, .int i ∈ items := by
  induction items generalizing ints with
  | nil =>
    cases read
    simp
  | cons item items ih =>
    cases item with
    | int i =>
      obtain ⟨rest, done, rfl⟩ := map_eq_some_iff.mp read
      intro j member
      rcases mem_cons.mp member with rfl | later
      · exact mem_cons_self
      · exact mem_cons_of_mem _ (ih done j later)
    | _ => cases read

theorem sumInts_within (ints : List Int) {total : Int} (holds : std.int total) :
    Within std (sumInts ints total) := by
  induction ints generalizing total with
  | nil => exact resultOk_within holds
  | cons i rest ih =>
    simp only [sumInts]
    split
    · rename_i fits
      exact ih (std.inRange _ fits)
    · exact resultError_within _

theorem pick_mem {α : Type} (before : α → α → Bool) (best : α) (rest : List α) :
    pick before best rest ∈ best :: rest := by
  induction rest generalizing best with
  | nil => exact mem_cons_self
  | cons item rest ih =>
    rw [pick]
    rcases mem_cons.mp (ih (if before item best then item else best)) with same | later
    · rw [same]
      split
      · exact mem_cons_of_mem _ mem_cons_self
      · exact mem_cons_self
    · exact mem_cons_of_mem _ (mem_cons_of_mem _ later)

theorem sumFloats_within (floats : List (BitVec 64)) (total : BitVec 64) :
    Within std (sumFloats outside floats total) := by
  induction floats generalizing total with
  | nil => exact resultOk_within trivial
  | cons bits rest ih =>
    simp only [sumFloats]
    split
    · split
      · exact ih _
      · exact resultError_within _
    · exact resultError_within _

theorem reduceInts_within (operation : String) {first : Int} {rest : List Int}
    (holds : ∀ i ∈ first :: rest, std.int i) : Within std (reduceInts operation first rest) := by
  unfold reduceInts
  split
  · exact sumInts_within _ (std.inRange 0 (by decide))
  · split
    · exact resultOk_within (holds _ (pick_mem _ _ _))
    · exact resultOk_within (holds _ (pick_mem _ _ _))

theorem reduceFloats_within (operation : String) (first : BitVec 64) (rest : List (BitVec 64)) :
    Within std (reduceFloats outside operation first rest) := by
  unfold reduceFloats
  split
  · exact resultError_within _
  · split
    · exact sumFloats_within _ _
    · split
      · exact resultOk_within trivial
      · exact resultOk_within trivial

section

variable (holds : ∀ item ∈ items, Within std item)

include holds

theorem listReduce_within (operation : String) :
    Within std (listReduce outside operation items) := by
  unfold listReduce
  split
  · exact resultError_within _
  · split
    · rename_i first rest _ read
      exact reduceInts_within operation fun i member => holds _ (ints?_mem read i member)
    · exact reduceFloats_within operation _ _
    · exact resultError_within _

theorem listGet_within (index : Value) : Within std (listGet items index) := by
  unfold listGet
  split
  · split
    · trivial
    · split
      · rename_i item found
        exact optionSome_within (holds item (mem_of_getElem? found))
      · trivial
  · trivial

theorem listSort_within : Within std (listSort outside items) := by
  unfold listSort
  split
  · exact within_list.mpr fun item member => holds item (mem_mergeSort.mp member)
  · trivial

theorem listTake_within (count : Value) : Within std (listTake items count) := by
  unfold listTake
  split
  · split
    · exact within_list.mpr (by simp)
    · exact within_list.mpr fun item member => holds item (List.mem_of_mem_take member)
  · trivial

omit holds in
theorem differenceFrom_within (position : Nat) (items others : List Value) :
    ResultWithin std (differenceFrom outside world position items others) := by
  have found (n : Nat) : ResultWithin std (do pure (optionSome (← hostLength n))) :=
    resultWithin_bind fun value counted =>
      resultWithin_ok (optionSome_within (hostLength_within n value counted))
  induction items generalizing position others with
  | nil =>
    cases others with
    | nil => exact resultWithin_ok trivial
    | cons other others => exact found position
  | cons item items ih =>
    cases others with
    | nil => exact found position
    | cons other others =>
      simp only [differenceFrom]
      refine resultWithin_bind fun same _ => ?_
      split
      · exact ih _ _
      · exact found position

omit holds in
theorem uniqueItems_subset : ∀ item ∈ uniqueItems outside world items, item ∈ items := by
  have kept (rest kept : List Value) : ∀ item ∈ rest.foldl (fun kept candidate =>
        if kept.any fun existing => outside.structurallyEqual world existing candidate then kept
        else kept ++ [candidate]) kept, item ∈ kept ∨ item ∈ rest := by
    induction rest generalizing kept with
    | nil => exact fun item member => .inl member
    | cons candidate rest ih =>
      intro item member
      rw [foldl_cons] at member
      rcases ih _ item member with before | later
      · split at before
        · exact .inl before
        · rcases mem_append.mp before with old | new
          · exact .inl old
          · rw [mem_singleton.mp new]
            exact .inr mem_cons_self
      · exact .inr (mem_cons_of_mem _ later)
  intro item member
  rcases kept items [] item member with none | among
  · cases none
  · exact among

omit holds in
theorem flattenItems_within {items flat : List Value} (holds : ∀ item ∈ items, Within std item)
    (done : flattenItems items = some flat) : ∀ item ∈ flat, Within std item := by
  induction items generalizing flat with
  | nil =>
    cases done
    simp
  | cons item items ih =>
    obtain ⟨first, rest⟩ := forall_mem_cons.mp holds
    cases item with
    | list group =>
      obtain ⟨others, flattened, rfl⟩ := map_eq_some_iff.mp done
      intro item member
      rcases mem_append.mp member with own | other
      · exact within_list.mp first item own
      · exact ih rest flattened item other
    | _ => cases done

theorem pieces_within (size bound : Nat) : ∀ piece ∈ pieces size bound items, Within std piece := by
  induction bound generalizing items with
  | zero => cases items <;> simp [pieces]
  | succ bound ih =>
    cases items with
    | nil => simp [pieces]
    | cons item items =>
      intro piece member
      rcases mem_cons.mp member with rfl | later
      · exact within_list.mpr fun item member => holds item (List.mem_of_mem_take member)
      · exact ih (fun item member => holds item (List.mem_of_mem_drop member)) piece later

theorem listChunks_within (size : Value) : Within std (listChunks items size) := by
  unfold listChunks
  split
  · split
    · exact resultError_within _
    · exact resultOk_within (within_list.mpr (pieces_within holds _ _))
  · exact resultError_within _

theorem listMethod_within (others : ∀ argument ∈ arguments, Within std argument)
    (run : listMethod outside world items name arguments = some result) :
    ResultWithin std result := by
  unfold listMethod at run
  split at run
  · cases run
    exact hostLength_within _
  · cases run
    exact resultWithin_ok (listGet_within holds _)
  · cases run
    refine unlessCarrying_within (resultWithin_ok (within_list.mpr ?_))
    simpa [or_imp, forall_and] using And.intro holds (others _ mem_cons_self)
  · cases run
    exact resultWithin_bind fun _ _ => resultWithin_ok trivial
  · cases run
    exact unlessCarrying_within (resultWithin_ok (listSort_within holds))
  · cases run
    exact resultWithin_ok (listTake_within holds _)
  · cases run
    unfold firstDifference
    split
    · exact differenceFrom_within _ _ _
    · exact resultWithin_ok trivial
  · cases run
    exact unlessCarrying_within (resultWithin_ok (listReduce_within holds _))
  · cases run
    exact unlessCarrying_within (resultWithin_ok (listReduce_within holds _))
  · cases run
    exact unlessCarrying_within (resultWithin_ok (listReduce_within holds _))
  · cases run
    exact unlessCarrying_within (resultWithin_ok (within_list.mpr fun item member =>
      holds item (uniqueItems_subset item member)))
  · cases run
    refine unlessCarrying_within (resultWithin_ok ?_)
    split
    · rename_i flat done
      exact within_list.mpr (flattenItems_within holds done)
    · trivial
  · cases run
    exact unlessCarrying_within (resultWithin_ok (listChunks_within holds _))
  · cases run

end

/-! ## Methods of Maps -/

theorem withKey_within {key : Value} {use : String → Except Fault Value}
    (holds : ∀ text, ResultWithin std (use text)) : ResultWithin std (withKey key use) := by
  unfold withKey
  split
  · exact holds _
  · exact resultWithin_ok trivial

theorem mem_setEntry {entry : String × Value} (member : entry ∈ setEntry entries key item) :
    entry ∈ entries ∨ entry.2 = item := by
  induction entries with
  | nil =>
    rw [mem_singleton.mp member]
    exact .inr rfl
  | cons first rest ih =>
    obtain ⟨other, old⟩ := first
    rw [setEntry] at member
    split at member
    · rcases mem_cons.mp member with rfl | later
      · exact .inr rfl
      · exact .inl (mem_cons_of_mem _ later)
    · rcases mem_cons.mp member with rfl | later
      · exact .inl mem_cons_self
      · exact (ih later).imp_left (mem_cons_of_mem _)

section

variable (holds : ∀ entry ∈ entries, Within std entry.2)

include holds

theorem setEntry_within (itemHolds : Within std item) :
    ∀ entry ∈ setEntry entries key item, Within std entry.2 := by
  intro entry member
  rcases mem_setEntry member with old | new
  · exact holds entry old
  · rw [new]
    exact itemHolds

omit holds in
theorem mergeEntries_within {entries others : List (String × Value)}
    (holds : ∀ entry ∈ entries, Within std entry.2)
    (othersHold : ∀ entry ∈ others, Within std entry.2) :
    ∀ entry ∈ mergeEntries entries others, Within std entry.2 := by
  unfold mergeEntries
  induction others generalizing entries with
  | nil => exact holds
  | cons other others ih =>
    obtain ⟨first, rest⟩ := forall_mem_cons.mp othersHold
    exact ih (setEntry_within holds first) rest

theorem addEntry_within {delta : Value}
    (deltaHolds : Within std delta) : ResultWithin std (addEntry outside entries key delta) := by
  unfold addEntry
  split
  · exact resultWithin_ok (within_map.mpr (setEntry_within holds deltaHolds))
  · split
    · split
      · rename_i fits
        exact resultWithin_ok (within_map.mpr (setEntry_within holds (std.inRange _ fits)))
      · exact resultWithin_ok trivial
    · rintro value done
      obtain ⟨total, -, rfl⟩ := map_eq_ok done
      have float : Within std (.float total) := trivial
      exact within_map.mpr (setEntry_within holds float)
    · exact resultWithin_ok trivial

theorem mapMethod_within (others : ∀ argument ∈ arguments, Within std argument)
    (run : mapMethod outside world entries name arguments = some result) :
    ResultWithin std result := by
  unfold mapMethod at run
  split at run
  · cases run
    refine withKey_within fun text => resultWithin_ok ?_
    unfold mapGet
    split
    · rename_i item found
      exact holds _ (mem_of_lookup found)
    · trivial
  · cases run
    exact withKey_within fun text => unlessCarrying_within (resultWithin_ok (within_map.mpr
      (setEntry_within holds (others _ (by simp)))))
  · cases run
    refine resultWithin_ok (within_list.mpr fun item member => ?_)
    obtain ⟨entry, -, rfl⟩ := mem_map.mp member
    trivial
  · cases run
    exact withKey_within fun text => resultWithin_ok trivial
  · cases run
    refine unlessCarrying_within (resultWithin_ok ?_)
    unfold keysSortedByValue
    split
    · refine within_list.mpr fun item member => ?_
      obtain ⟨entry, -, rfl⟩ := mem_map.mp member
      trivial
    · trivial
  · cases run
    exact resultWithin_ok trivial
  · cases run
    exact unlessCarrying_within (resultWithin_ok (within_map.mpr
      (mergeEntries_within holds (within_map.mp (others _ mem_cons_self)))))
  · cases run
    exact resultWithin_ok trivial
  · cases run
    refine unlessCarrying_within ?_
    unfold mapAdd
    split
    · split
      · exact addEntry_within holds (others _ (by simp))
      · exact resultWithin_ok trivial
    · exact resultWithin_ok trivial
  · cases run

end

end Koschei.Values
