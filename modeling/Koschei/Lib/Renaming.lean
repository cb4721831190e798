import Koschei.Lib.Names

/-!
# Renaming files

A store of files is a map from names to contents. A rename moves the contents of
a name to another name and replaces what is there.

When the files of some names have been moved to other names, the store is
settled by the pairs of the names. Moving one more file adds a pair, moving it
further changes the pair, and moving it back takes the pair away; moving back
works when no file that was moved before is in the way.
-/

namespace Koschei.Lib

section Renaming

variable {N C : Type} [DecidableEq N]

/-- The contents of a name are moved to another name, if there are any. -/
def rename (source target : N) (files : N → Option C) : Option (N → Option C) :=
  (files source).map fun contents name =>
    if name = target then some contents else if name = source then none else files name

/-- The files after the files of the first names of pairs have been moved to the second ones. -/
def relocated (files : N → Option C) (pairs : List (N × N)) : N → Option C := fun name =>
  match pairs.find? fun pair => decide (pair.2 = name) with
  | some pair => files pair.1
  | none => if name ∈ pairs.map fst then none else files name

variable {files after : N → Option C} {pairs : List (N × N)} {source target name : N}

section

variable (renamed : rename source target files = some after)

include renamed

theorem rename_eq_some : ∃ contents, files source = some contents ∧ after = fun name =>
      if name = target then some contents else if name = source then none else files name := by
  obtain ⟨contents, found, rfl⟩ := map_eq_some_iff.mp renamed
  exact ⟨contents, found, rfl⟩

omit renamed in
theorem rename_of_some {contents : C} (found : files source = some contents) :
    rename source target files = some fun name =>
      if name = target then some contents else if name = source then none else files name := by
  unfold rename
  rw [found]
  rfl

theorem rename_other (apart : name ≠ source)
    (apart' : name ≠ target) : after name = files name := by
  obtain ⟨contents, -, rfl⟩ := rename_eq_some renamed
  dsimp only
  rw [if_neg apart', if_neg apart]

/-- After a rename to another name, nothing is at the first one. -/
theorem rename_source (apart : source ≠ target) : after source = none := by
  obtain ⟨contents, -, rfl⟩ := rename_eq_some renamed
  dsimp only
  rw [if_neg apart, if_pos rfl]

end

theorem relocated_of_not_mem (absent : name ∉ pairs.map snd) :
    relocated files pairs name = if name ∈ pairs.map fst then none else files name := by
  have none : (pairs.find? fun pair => decide (pair.2 = name)) = none := by
    rw [find?_eq_none]
    intro pair member same
    exact absent (of_decide_eq_true same ▸ mem_map_of_mem member)
  unfold relocated
  rw [none]

theorem relocated_of_mem (distinct : (pairs.map snd).Nodup) {pair : N × N}
    (member : pair ∈ pairs) : relocated files pairs pair.2 = files pair.1 := by
  unfold relocated
  cases found : pairs.find? fun other => decide (other.2 = pair.2) with
  | none => exact absurd (decide_eq_true rfl) (find?_eq_none.mp found pair member)
  | some other =>
    have same : other.2 = pair.2 :=
      of_decide_eq_true (find?_some (p := fun other : N × N => decide (other.2 = pair.2)) found)
    have equal := inj_on_of_nodup_map distinct (mem_of_find?_eq_some found) member same
    rw [equal]

section

variable (distinct : ((pairs ++ [(source, target)]).map snd).Nodup)

include distinct

theorem relocated_snoc (name : N) :
    relocated files (pairs ++ [(source, target)]) name = if name = target then files source
      else if name = source ∧ name ∉ pairs.map snd then none
      else relocated files pairs name := by
  have before : (pairs.map snd).Nodup := by
    rw [map_append] at distinct
    exact distinct.of_append_left
  have last : (source, target) ∈ pairs ++ [(source, target)] :=
    mem_append_right _ (mem_singleton_self _)
  by_cases here : name = target
  · subst here
    rw [if_pos rfl]
    exact relocated_of_mem distinct last
  · rw [if_neg here]
    by_cases moved : name ∈ pairs.map snd
    · rw [if_neg fun both => both.2 moved]
      obtain ⟨pair, member, rfl⟩ := mem_map.mp moved
      rw [relocated_of_mem before member, relocated_of_mem distinct (mem_append_left _ member)]
    · have absent : name ∉ (pairs ++ [(source, target)]).map snd := by
        rw [map_append, mem_append]
        exact fun either => either.elim moved fun last => here (mem_singleton.mp last)
      rw [relocated_of_not_mem absent, relocated_of_not_mem moved]
      by_cases same : name = source
      · have member : source ∈ (pairs ++ [(source, target)]).map fst :=
          mem_map_of_mem last
        rw [if_pos (same ▸ member), if_pos ⟨same, moved⟩]
      · have iff : name ∈ (pairs ++ [(source, target)]).map fst ↔ name ∈ pairs.map fst := by
          rw [map_append, mem_append]
          exact or_iff_left fun last => same (mem_singleton.mp last)
        simp only [iff, same, false_and, if_false]

omit distinct in
/-- The order of the pairs does not matter. -/
theorem relocated_perm {others : List (N × N)} (perm : pairs.Perm others)
    (distinct : (pairs.map snd).Nodup) : relocated files pairs = relocated files others := by
  funext name
  by_cases moved : name ∈ pairs.map snd
  · obtain ⟨pair, member, rfl⟩ := mem_map.mp moved
    rw [relocated_of_mem distinct member,
      relocated_of_mem ((perm.map _).nodup_iff.mp distinct) (perm.mem_iff.mp member)]
  · have absent : name ∉ others.map snd := fun member => moved ((perm.map _).mem_iff.mpr member)
    rw [relocated_of_not_mem moved, relocated_of_not_mem absent]
    simp only [(perm.map fst).mem_iff]

variable {contents : C}

/-- One more file is moved. -/
theorem rename_relocated_snoc (found : files source = some contents)
    (stays : source ∉ pairs.map fst) (apart : source ∉ pairs.map snd) :
    rename source target (relocated files pairs) =
      some (relocated files (pairs ++ [(source, target)])) := by
  have here : relocated files pairs source = some contents := by
    rw [relocated_of_not_mem apart, if_neg stays, found]
  rw [rename_of_some here]
  refine congrArg some (funext fun name => ?_)
  rw [relocated_snoc distinct, found]
  by_cases same : name = source
  · subst same
    simp only [apart, not_false_eq_true, and_true]
  · simp only [same, false_and]

/-- The name a file was moved to is free, or the file of that name was moved too. -/
theorem relocated_target
    (free : target ∉ pairs.map fst → files target = none) : relocated files pairs target = none := by
  have absent : target ∉ pairs.map snd := by
    rw [map_append] at distinct
    exact fun member => List.disjoint_of_nodup_append distinct member (mem_singleton_self _)
  rw [relocated_of_not_mem absent]
  split
  · rfl
  · exact free ‹_›

theorem rename_relocated_further {further : N} (found : files source = some contents)
    (distinct' : ((pairs ++ [(source, further)]).map snd).Nodup)
    (free : target ∉ pairs.map fst → files target = none) :
    rename target further (relocated files (pairs ++ [(source, target)])) =
      some (relocated files (pairs ++ [(source, further)])) := by
  have here : relocated files (pairs ++ [(source, target)]) target = some contents := by
    rw [relocated_snoc distinct, if_pos rfl, found]
  rw [rename_of_some here]
  refine congrArg some (funext fun name => ?_)
  rw [relocated_snoc distinct, relocated_snoc distinct', found]
  by_cases last : name = further
  · rw [if_pos last, if_pos last]
  · rw [if_neg last, if_neg last]
    by_cases same : name = target
    · rw [if_pos same, same, relocated_target distinct free]
      split <;> rfl
    · rw [if_neg same, if_neg same]

/-- The file that was moved last is moved back, when no other file was moved to its name. -/
theorem rename_relocated_back (found : files source = some contents)
    (stays : source ∉ pairs.map fst) (apart : source ∉ pairs.map snd)
    (free : target ≠ source → target ∉ pairs.map fst → files target = none) :
    rename target source (relocated files (pairs ++ [(source, target)])) =
      some (relocated files pairs) := by
  have here : relocated files (pairs ++ [(source, target)]) target = some contents := by
    rw [relocated_snoc distinct, if_pos rfl, found]
  rw [rename_of_some here]
  refine congrArg some (funext fun name => ?_)
  by_cases same : name = source
  · rw [if_pos same, same, relocated_of_not_mem apart, if_neg stays, found]
  · rw [if_neg same, relocated_snoc distinct]
    by_cases last : name = target
    · rw [if_pos last, last, relocated_target distinct (free fun both => same (last.trans both))]
    · rw [if_neg last, if_neg last, if_neg fun both => same both.1]

end

end Renaming

end Koschei.Lib
