import Koschei.Kernel.Materialize

/-!
# Materialization is substitution

What a source with values for its slots means is its open graph with the values
filled in. A reusable object is materialized exactly when this graph resolves to a
value. A root is evaluated with the number 0 in the place of every slot first: a root
whose values stay in range is refused when these numbers do not.
-/

namespace Koschei.Kernel

open Lib

/-! ## Roots -/

section Roots

variable {host : Host} {source : String} {lines : List String} {opened : Graph (Nat ⊕ Int)}
  {values : List (Nat × Int)}

theorem kernelGrammar_placeholder : Placeholder (kernelGrammar host) 0 where
  uniform := kernelGrammar_uniform
  zero := fun _ => rfl
  named := kernelName_eq_ok
  symbols := @exists_not_word legacyDebtSymbols (by decide)
  part := fun _ _ => rfl

/-- The names that conduits of roots may have. -/
def rootFits (identity : String) : Prop := identity ≠ "conduit"

/-- A well-formed root: a canonical source whose lines are those of an open graph, with different
slots. -/
structure WellFormedRoot (host : Host) (source : String) (opened : Graph (Nat ⊕ Int)) : Prop where
  lines : ∃ lines, canonicalSource source = .ok lines ∧
    OpenGraph (kernelGrammar host) rootFits (kernelOrderTexts host) lines opened
  slots : (opened.conduits.map fst).Nodup

theorem WellFormedRoot.unique {other : Graph (Nat ⊕ Int)} (one : WellFormedRoot host source opened)
    (second : WellFormedRoot host source other) : opened = other := by
  obtain ⟨lines, canonical, isOpened⟩ := one.lines
  obtain ⟨lines', canonical', isOther⟩ := second.lines
  rw [canonical] at canonical'
  cases canonical'
  exact isOpened.unique kernelGrammar_uniform isOther

/-- What `_conduit_slots` admits. -/
def AdmitsRoot (host : Host) (tokens : List String) : Prop :=
  ¬ ["witness", "conduit"] <+: tokens ∧ ∀ identity raw, conduitOf tokens = some (identity, raw) →
    ∃ number name, kernelName host identity number = .ok name

theorem admitRoot_iff (tokens : List String) (number : Nat) :
    admitRoot host tokens number = .ok () ↔ AdmitsRoot host tokens := by
  unfold admitRoot AdmitsRoot
  constructor
  · intro ran
    obtain ⟨_, apart, ran⟩ := bind_eq_ok ran
    refine ⟨raiseIf_eq_ok apart, fun identity raw isConduit => ?_⟩
    rw [isConduit] at ran
    obtain ⟨name, named, -⟩ := bind_eq_ok ran
    exact ⟨number, name, named⟩
  · rintro ⟨apart, named⟩
    rw [bind_raiseIf apart]
    split
    · rename_i identity raw isConduit
      obtain ⟨_, name, isName⟩ := named identity raw isConduit
      exact bind_of_ok ((kernelName_lineless identity).same isName number)
    · rfl

section

variable (isOpened : OpenGraph (kernelGrammar host) rootFits (kernelOrderTexts host) lines opened)

include isOpened

theorem rootLines_ok : ∀ line ∈ lines, AdmitsRoot host (split ' ' line) ∧ ∀ identity raw,
      conduitOf (split ' ' line) = some (identity, raw) → ∃ slot, Spells raw slot := by
  obtain ⟨clauses, reads, -⟩ := isOpened.read
  intro line inside
  obtain ⟨clause, -, isRead⟩ := exists_right_of_forall₂ reads inside
  cases isRead with
  | conduit tokens named fit spelled =>
    have isConduit := conduitOf_eq_some.mpr tokens
    refine ⟨⟨?_, ?_⟩, ?_⟩
    · rw [tokens, List.cons_prefix_cons, List.cons_prefix_cons]
      exact fun same => fit same.2.1.symm
    · intro identity raw same
      rw [isConduit] at same
      cases same
      exact ⟨_, _, named⟩
    · intro identity raw same
      rw [isConduit] at same
      cases same
      exact ⟨_, spelled⟩
  | plain closed _ =>
    refine ⟨⟨fun initial => closed (initial.subset (mem_cons_of_mem _ mem_cons_self)), ?_⟩, ?_⟩
    · intro identity raw same
      rw [conduitOf_eq_none closed] at same
      cases same
    · intro identity raw same
      rw [conduitOf_eq_none closed] at same
      cases same

omit isOpened in
theorem spelled_of_admitsRoot (each : ∀ line ∈ lines, AdmitsRoot host (split ' ' line) ∧ ∀ identity raw,
    conduitOf (split ' ' line) = some (identity, raw) → ∃ slot, Spells raw slot) :
    SlotsSpelled rootFits lines ∧ ConduitsNamed lines := by
  refine ⟨fun line inside identity raw isConduit => ⟨?_, (each line inside).2 identity raw isConduit⟩,
    fun line inside identity raw isConduit => ?_⟩
  · rintro rfl
    refine (each line inside).1.1 ?_
    rw [conduitOf_eq_some.mp isConduit]
    exact ⟨["conduit", raw], rfl⟩
  · obtain ⟨_, name, named⟩ := (each line inside).1.2 identity raw isConduit
    exact (kernelName_eq_ok named).2

variable {literals : Nat → Int}

omit isOpened in
theorem dependencyOrder_map (distinct : (opened.witnesses.map Witness.name).Nodup)
    {order : List String} (ordered : orderOf (kernelOrderTexts host) opened = .ok order) :
    dependencyOrder host (opened.map (fill literals)) = .ok order := by
  refine dependencyOrder_eq_ok.mpr ⟨?_, ?_⟩
  · unfold Graph.map
    rw [names_map]
    exact distinct
  · rw [orderOf_map]
    exact ordered

theorem kernelTerms_map (bounded : ∀ slot, Int64 (literals slot)) :
    ∀ witness ∈ (opened.map (fill literals)).witnesses, KernelTerm witness.term := by
  intro witness inside
  obtain ⟨other, isOther, rfl⟩ := mem_map.mp inside
  obtain ⟨clauses, reads, isWitnesses, -⟩ := isOpened.read
  rcases witness_open (fun _ _ _ => kernelTerm_of_ok) reads (isWitnesses ▸ isOther) with
    ⟨slot, isSlot⟩ | ⟨term, isTerm, holds⟩
  · unfold Witness.map
    rw [isSlot]
    refine ⟨.atom _, (fun _ impossible => by cases impossible), fun value isValue => ?_⟩
    cases mem_singleton.mp isValue
    exact bounded slot
  · unfold Witness.map
    rw [isTerm, Term.map_inr_map_fill]
    exact holds

omit isOpened in
theorem assigned_int64 (bounded : ∀ entry ∈ values, Int64 entry.2) (slot : Nat) :
    Int64 (assigned 0 values slot) := by
  unfold assigned
  cases found : values.lookup slot with
  | none => exact ⟨by decide, by decide⟩
  | some value => exact bounded _ (mem_of_lookup_eq_some found)

theorem checkKernel_map_iff (bounded : ∀ slot, Int64 (literals slot)) {value : Int} :
    (∃ check, checkKernel host (opened.map (fill literals)) = .ok check ∧ check.value = value) ↔
      Resolves kernelMeaning (opened.map (fill literals)) value := by
  obtain ⟨order, ordered⟩ := isOpened.ordered
  exact checkKernel_iff (dependencyOrder_map isOpened.distinct ordered) (kernelTerms_map isOpened bounded)

theorem evaluate_map_iff (bounded : ∀ slot, Int64 (literals slot)) {value : Int} :
    evaluateNativeKernel host (opened.map (fill literals)) = .ok value ↔
      Resolves kernelMeaning (opened.map (fill literals)) value := by
  obtain ⟨order, ordered⟩ := isOpened.ordered
  exact evaluateNativeKernel_iff (dependencyOrder_map isOpened.distinct ordered)
    (kernelTerms_map isOpened bounded)

end

theorem orders_kernel (graph : Graph Int) (distinct : (graph.witnesses.map Witness.name).Nodup) :
    (∃ names, dependencyOrder host graph = .ok names) ↔
      ∃ names, orderOf (kernelOrderTexts host) graph = .ok names :=
  exists_congr fun _ => dependencyOrder_eq_ok.trans (and_iff_right distinct)

/-- What `_conduit_slots` finds on the lines of a root. -/
theorem conduitSlots_eq_ok (canonical : canonicalSource source = .ok lines) {conduits : List Conduit} :
    conduitSlots host source = .ok conduits ↔
      (∀ line ∈ lines, AdmitsRoot host (split ' ' line) ∧ ∀ identity raw,
        conduitOf (split ' ' line) = some (identity, raw) → ∃ slot, Spells raw slot) ∧
      conduits = slotsIn 1 lines ∧ (conduits.map fst).Nodup := by
  unfold conduitSlots
  rw [bind_of_ok canonical]
  exact readSlots_nil_eq_ok admitRoot_iff

/-- **What materializing a root does.** It succeeds when the root is well formed, when its graph with 0
in the place of every slot has a value, and when its graph with the values has one, which it finds. -/
theorem materializeRoot_eq_ok (once : (values.map fst).Nodup)
    (bounded : ∀ entry ∈ values, Int64 entry.2)
    (complete : ∀ conduits, conduitSlots host source = .ok conduits →
      SameSlots (conduits.map fst) (values.map fst)) {value : Int} :
    (∃ check, materializeRoot host source values = .ok check ∧ check.value = value) ↔
      ∃ opened, WellFormedRoot host source opened ∧
        (∃ other, Resolves kernelMeaning (opened.map (fill fun _ => 0)) other) ∧
        Resolves kernelMeaning (opened.map (fill (assigned 0 values))) value := by
  have small : ∀ _ : Nat, Int64 0 := fun _ => ⟨by decide, by decide⟩
  constructor
  · rintro ⟨check, ran, isValue⟩
    unfold materializeRoot at ran
    obtain ⟨lines, canonical, ran⟩ := bind_eq_ok ran
    obtain ⟨conduits, found, ran⟩ := bind_eq_ok ran
    obtain ⟨_, -, ran⟩ := bind_eq_ok ran
    obtain ⟨replaced, mapped, ran⟩ := bind_eq_ok ran
    obtain ⟨placeholder, read, ran⟩ := bind_eq_ok ran
    obtain ⟨replacement, isReplacement, last⟩ := bind_eq_ok ran
    obtain ⟨graph, parsed, checked⟩ := bind_eq_ok read
    obtain ⟨each, rfl, distinct⟩ := (conduitSlots_eq_ok canonical).mp found
    obtain ⟨spelled, named⟩ := spelled_of_admitsRoot each
    have isReplaced := mapM_forall₂ mapped
    unfold parseNativeKernel at parsed
    rw [bind_of_ok (canonicalSource_replaced isReplaced canonical named)] at parsed
    obtain ⟨opened, isOpened, rfl⟩ := (kernelGrammar_placeholder.parse_iff isReplaced spelled
      orders_kernel).mp parsed
    have isConduits := isOpened.conduits_eq kernelGrammar_placeholder
    have slots : (opened.conduits.map fst).Nodup := by rwa [isConduits, slots_map]
    have zeros := (checkKernel_map_iff isOpened small).mp ⟨placeholder, checked, rfl⟩
    have exactly := complete _ found
    obtain ⟨made, isMade, related⟩ := replacementByName_ok exactly.2
    rw [isReplacement] at isMade
    cases isMade
    rw [kernel_of_checkKernel checked, replaceTerm_eq isOpened slots once
      (isOpened.pairs kernelGrammar_placeholder)
      (isOpened.covered kernelGrammar_placeholder exactly.1) related] at last
    exact ⟨opened, ⟨⟨lines, canonical, isOpened⟩, slots⟩, ⟨_, zeros⟩,
      (checkKernel_map_iff isOpened (assigned_int64 bounded)).mp ⟨check, last, isValue⟩⟩
  · rintro ⟨opened, ⟨⟨lines, canonical, isOpened⟩, slots⟩, ⟨other, zeros⟩, resolves⟩
    have each := rootLines_ok isOpened
    obtain ⟨spelled, named⟩ := spelled_of_admitsRoot each
    have isConduits := isOpened.conduits_eq kernelGrammar_placeholder
    have distinct : ((slotsIn 1 lines).map fst).Nodup := by rwa [isConduits, slots_map] at slots
    have found := (@conduitSlots_eq_ok host _ _ canonical _).mpr ⟨each, rfl, distinct⟩
    have exactly := complete _ found
    obtain ⟨replaced, mapped⟩ := isOpened.replaces
      (relationshipFault "'conduit' is valid only as: witness <name> conduit <slot>")
    have isReplaced := mapM_forall₂ mapped
    have parsed := (kernelGrammar_placeholder.parse_iff isReplaced spelled orders_kernel).mpr
      ⟨opened, isOpened, rfl⟩
    obtain ⟨placeholder, checked, -⟩ := (checkKernel_map_iff isOpened small).mpr zeros
    obtain ⟨replacement, isReplacement, related⟩ := replacementByName_ok exactly.2
    obtain ⟨check, checked', isValue⟩ := (checkKernel_map_iff isOpened (assigned_int64 bounded)).mpr resolves
    have read : checkNativeKernel host (textOf replaced) = .ok placeholder :=
      (bind_of_ok ((bind_of_ok (canonicalSource_replaced isReplaced canonical named)).trans parsed)).trans
        checked
    refine ⟨check, ?_, isValue⟩
    unfold materializeRoot
    rw [bind_of_ok canonical, bind_of_ok found, bind_raiseIf (not_not.mpr exactly), bind_of_ok mapped,
      bind_of_ok read, bind_of_ok isReplacement,
      kernel_of_checkKernel checked, replaceTerm_eq isOpened slots once
      (isOpened.pairs kernelGrammar_placeholder)
      (isOpened.covered kernelGrammar_placeholder exactly.1) related]
    exact checked'

end Roots

/-! ## Reusable objects -/

section Reusables

variable {host : Host} {source : String} {lines : List String} {opened : Graph (Nat ⊕ NativeValue)}
  {values : List (Nat × NativeValue)}

theorem valueGrammar_placeholder : Placeholder (valueGrammar host) (.whole 0) where
  uniform := valueGrammar_uniform
  zero := fun _ => rfl
  named := valueName_eq_ok
  symbols := @exists_not_word legacySymbols (by decide)
  part := fun _ _ => rfl

/-- Conduits of reusable objects may have every name. -/
def reusableFits (_ : String) : Prop := True

/-- A well-formed reusable object: a canonical source whose lines are those of an open graph, with some
slots, not too many, that are numbered from 0. -/
structure WellFormedReusable (host : Host) (source : String) (opened : Graph (Nat ⊕ NativeValue)) : Prop where
  lines : ∃ lines, canonicalLines host source = .ok lines ∧
    OpenGraph (valueGrammar host) reusableFits (valueOrderTexts host) lines opened
  slots : (opened.conduits.map fst).Perm (range opened.conduits.length)
  some : opened.conduits ≠ []
  few : opened.conduits.length ≤ maxRealizationInputs

theorem admitReusable_iff (tokens : List String) (number : Nat) :
    admitReusable tokens number = .ok () ↔ ¬ ("conduit" ∈ tokens ∧ conduitOf tokens = none) :=
  ⟨raiseIf_eq_ok, raiseIf_of_not⟩

section

variable (isOpened : OpenGraph (valueGrammar host) reusableFits (valueOrderTexts host) lines opened)

include isOpened

theorem reusableLines_ok : ∀ line ∈ lines, ¬ ("conduit" ∈ split ' ' line ∧ conduitOf (split ' ' line) = none) ∧
      ∀ identity raw, conduitOf (split ' ' line) = some (identity, raw) → ∃ slot, Spells raw slot := by
  obtain ⟨clauses, reads, -⟩ := isOpened.read
  intro line inside
  obtain ⟨clause, -, isRead⟩ := exists_right_of_forall₂ reads inside
  cases isRead with
  | conduit tokens _ _ spelled =>
    rw [conduitOf_eq_some.mpr tokens]
    refine ⟨(fun both => by cases both.2), fun identity raw same => ?_⟩
    cases same
    exact ⟨_, spelled⟩
  | plain closed _ =>
    refine ⟨fun both => closed both.1, fun identity raw same => ?_⟩
    rw [conduitOf_eq_none closed] at same
    cases same

theorem named_of_openGraph : ConduitsNamed lines := by
  obtain ⟨clauses, reads, -⟩ := isOpened.read
  intro line inside identity raw isConduit
  obtain ⟨clause, -, isRead⟩ := exists_right_of_forall₂ reads inside
  cases isRead with
  | conduit tokens named _ _ =>
    rw [conduitOf_eq_some.mpr tokens] at isConduit
    cases isConduit
    exact (valueName_eq_ok named).2
  | plain closed _ =>
    rw [conduitOf_eq_none closed] at isConduit
    cases isConduit

omit isOpened in
/-- What `_conduit_contract` finds on the lines of a reusable object. -/
theorem conduitContract_eq_ok (canonical : canonicalLines host source = .ok lines)
    {conduits : List Conduit} :
    conduitContract host source = .ok conduits ↔
      (∀ line ∈ lines, ¬ ("conduit" ∈ split ' ' line ∧ conduitOf (split ' ' line) = none) ∧
        ∀ identity raw, conduitOf (split ' ' line) = some (identity, raw) → ∃ slot, Spells raw slot) ∧
      conduits = sortByKey fst (slotsIn 1 lines) ∧
      ((slotsIn 1 lines).map fst).Perm (range (slotsIn 1 lines).length) ∧
      slotsIn 1 lines ≠ [] ∧ (slotsIn 1 lines).length ≤ maxRealizationInputs := by
  have sorted : (sortByKey fst (slotsIn 1 lines)).Perm (slotsIn 1 lines) := sortByKey_perm _ _
  have ranged : (sortByKey fst (slotsIn 1 lines)).map fst =
      range (sortByKey fst (slotsIn 1 lines)).length ↔
        ((slotsIn 1 lines).map fst).Perm (range (slotsIn 1 lines).length) := by
    rw [sorted.length_eq]
    constructor
    · intro same
      rw [← same]
      exact (sorted.map fst).symm
    · intro permuted
      refine ((sorted.map fst).trans permuted).eq_of_pairwise (fun _ _ _ _ => Nat.le_antisymm)
        (List.pairwise_map.mpr (sortByKey_pairwise fst _)) ?_
      exact List.pairwise_le_range
  have empty : sortByKey fst (slotsIn 1 lines) = [] ↔ slotsIn 1 lines = [] := by
    rw [← length_eq_zero_iff, sorted.length_eq, length_eq_zero_iff]
  unfold conduitContract
  rw [bind_of_ok canonical]
  constructor
  · intro ran
    obtain ⟨read, isRead, ran⟩ := bind_eq_ok ran
    obtain ⟨each, rfl, -⟩ := (readSlots_nil_eq_ok admitReusable_iff).mp isRead
    obtain ⟨_, some, ran⟩ := bind_eq_ok ran
    obtain ⟨_, few, ran⟩ := bind_eq_ok ran
    obtain ⟨_, exact, ran⟩ := bind_eq_ok ran
    cases ran
    have few := Nat.not_lt.mp (raiseIf_eq_ok few)
    rw [sorted.length_eq] at few
    exact ⟨each, rfl, ranged.mp (not_not.mp (raiseIf_eq_ok exact)),
      fun none => raiseIf_eq_ok some (empty.mpr none), few⟩
  · rintro ⟨each, rfl, permuted, some, few⟩
    have read : readSlots mixedReuseSlots admitReusable [] 1 lines = .ok (slotsIn 1 lines) :=
      (readSlots_nil_eq_ok admitReusable_iff).mpr
        ⟨each, rfl, permuted.nodup_iff.mpr List.nodup_range⟩
    rw [bind_of_ok read]
    dsimp only
    rw [bind_raiseIf (fun none => some (empty.mp none)), bind_raiseIf,
      bind_raiseIf (not_not.mpr (ranged.mpr permuted))]
    rw [sorted.length_eq]
    exact Nat.not_lt.mpr few

omit isOpened in
theorem orders_value (graph : Graph NativeValue) (_ : (graph.witnesses.map Witness.name).Nodup) :
    (∃ names, dependencyOrderValueGraph host graph = .ok names) ↔
      ∃ names, orderOf (valueOrderTexts host) graph = .ok names := Iff.rfl

omit isOpened in
theorem mixedReuseError_eq_ok {α : Type} {check : Checked α} {value : α} :
    mixedReuseError check = .ok value ↔ check = .ok value := by
  unfold mixedReuseError
  cases check with
  | error fault =>
    constructor
    · intro impossible
      cases impossible
    · intro impossible
      cases impossible
  | ok other => rfl

omit isOpened in
theorem assigned_bounded (bounded : ∀ entry ∈ values, entry.2.Bounded) (slot : Nat) :
    (assigned (.whole 0) values slot).Bounded := by
  unfold assigned
  cases found : values.lookup slot with
  | none => exact ⟨by decide, by decide⟩
  | some value => exact bounded _ (mem_of_lookup_eq_some found)

theorem checkValueGraph_map_iff {literals : Nat → NativeValue}
    (bounded : ∀ slot, (literals slot).Bounded) {value : NativeValue} :
    (∃ check, checkValueGraph host (opened.map (fill literals)) = .ok check ∧ check.value = value) ↔
      Resolves (valueMeaning host.merged) (opened.map (fill literals)) value := by
  obtain ⟨order, ordered⟩ := isOpened.ordered
  refine @checkValueGraph_iff host _ order ?_ ?_ ?_ value
  · intro witness inside
    obtain ⟨other, isOther, rfl⟩ := mem_map.mp inside
    obtain ⟨clauses, reads, isWitnesses, -⟩ := isOpened.read
    rcases witness_open (fun _ _ _ => valueTerm_of_ok) reads (isWitnesses ▸ isOther) with
      ⟨slot, isSlot⟩ | ⟨term, isTerm, holds⟩
    · unfold Witness.map
      rw [isSlot]
      exact valueTerm_literal (bounded slot)
    · unfold Witness.map
      rw [isTerm, Term.map_inr_map_fill]
      exact holds
  · unfold dependencyOrderValueGraph
    rw [orderOf_map]
    exact ordered
  · unfold Graph.map
    rw [names_map]
    exact isOpened.distinct

end

/-- **What materializing a reusable object does.** It succeeds exactly when the object is well formed
and its graph with the values has a value, which it finds. -/
theorem materializeTyped_eq_ok (normalizes : host.Normalizes) (once : (values.map fst).Nodup)
    (bounded : ∀ entry ∈ values, entry.2.Bounded)
    (complete : ∀ conduits, conduitContract host source = .ok conduits →
      SameSlots (conduits.map fst) (values.map fst)) {value : NativeValue} :
    (∃ check, materializeTyped host source values = .ok check ∧ check.value = value) ↔
      ∃ opened, WellFormedReusable host source opened ∧
        Resolves (valueMeaning host.merged) (opened.map (fill (assigned (.whole 0) values))) value := by
  have pairs : ∀ {lines : List String} {opened : Graph (Nat ⊕ NativeValue)},
      OpenGraph (valueGrammar host) reusableFits (valueOrderTexts host) lines opened → ∀ slot name,
        (∃ line, (slot, name, line) ∈ sortByKey fst (slotsIn 1 lines)) ↔
          (slot, name) ∈ opened.conduits := by
    intro lines opened isOpened slot name
    rw [← isOpened.pairs valueGrammar_placeholder]
    exact exists_congr fun line => (sortByKey_perm _ _).mem_iff
  have covered : ∀ {lines : List String} {slots : List Nat},
      (sortByKey fst (slotsIn 1 lines)).map fst ⊆ slots → (slotsIn 1 lines).map fst ⊆ slots :=
    fun subset _ inside => subset (((sortByKey_perm _ _).map fst).mem_iff.mpr inside)
  constructor
  · rintro ⟨check, ran, isValue⟩
    unfold materializeTyped at ran
    obtain ⟨lines, canonical, ran⟩ := bind_eq_ok ran
    obtain ⟨conduits, found, ran⟩ := bind_eq_ok ran
    obtain ⟨_, -, ran⟩ := bind_eq_ok ran
    obtain ⟨replaced, mapped, ran⟩ := bind_eq_ok ran
    obtain ⟨graph, read, ran⟩ := bind_eq_ok ran
    obtain ⟨replacement, isReplacement, last⟩ := bind_eq_ok ran
    obtain ⟨each, rfl, permuted, some, few⟩ := (conduitContract_eq_ok canonical).mp found
    have isReplaced := mapM_forall₂ mapped
    obtain ⟨others, canonical', parsed⟩ := bind_eq_ok (mixedReuseError_eq_ok.mp read)
    obtain ⟨-, -, lineEach, -⟩ := (canonicalLines_eq_ok normalizes).mp canonical
    have same : others = replaced := by
      obtain ⟨isText, nonempty, eachOther, -⟩ := (canonicalLines_eq_ok normalizes).mp canonical'
      have whole := replaced_whole isReplaced fun line isLine inside =>
        ((lineEach line isLine).plain _ inside).2.2.2 rfl
      rw [← sourceLines_textOf nonempty fun line isLine inside =>
        ((eachOther line isLine).plain _ inside).2.2.2 rfl, ← isText, sourceLines_textOf _ whole]
      exact replaced_ne_nil isReplaced ((canonicalLines_eq_ok normalizes).mp canonical).2.1
    subst same
    have spelled : SlotsSpelled reusableFits lines := fun line inside identity raw isConduit =>
      ⟨trivial, (each line inside).2 identity raw isConduit⟩
    obtain ⟨opened, isOpened, rfl⟩ := (valueGrammar_placeholder.parse_iff isReplaced spelled
      orders_value).mp parsed
    have isConduits := isOpened.conduits_eq valueGrammar_placeholder
    have slots : (opened.conduits.map fst).Perm (range opened.conduits.length) := by
      rwa [isConduits, slots_map, length_map]
    have exactly := complete _ found
    obtain ⟨made, isMade, related⟩ := replacementByName_ok exactly.2
    rw [isReplacement] at isMade
    cases isMade
    have last := mixedReuseError_eq_ok.mp last
    rw [replaceTerm_eq isOpened (slots.nodup_iff.mpr List.nodup_range) once (pairs isOpened)
      (isOpened.covered valueGrammar_placeholder (covered exactly.1)) related] at last
    refine ⟨opened, ⟨⟨lines, canonical, isOpened⟩, slots, ?_, ?_⟩,
      (checkValueGraph_map_iff isOpened (assigned_bounded bounded)).mp ⟨check, last, isValue⟩⟩
    · rw [isConduits]
      exact fun none => some (map_eq_nil_iff.mp none)
    · rw [isConduits, length_map]
      exact few
  · rintro ⟨opened, ⟨⟨lines, canonical, isOpened⟩, slots, some, few⟩, resolves⟩
    have each := reusableLines_ok isOpened
    have isConduits := isOpened.conduits_eq valueGrammar_placeholder
    have found : conduitContract host source = .ok (sortByKey fst (slotsIn 1 lines)) := by
      refine (conduitContract_eq_ok canonical).mpr ⟨each, rfl, ?_, ?_, ?_⟩
      · rwa [isConduits, slots_map, length_map] at slots
      · intro none
        rw [isConduits, none] at some
        exact some rfl
      · rwa [isConduits, length_map] at few
    have exactly := complete _ found
    obtain ⟨replaced, mapped⟩ := isOpened.replaces
      (mixedReuseFault "'conduit' is valid only as a witness input aperture")
    have isReplaced := mapM_forall₂ mapped
    have spelled : SlotsSpelled reusableFits lines := fun line inside identity raw isConduit =>
      ⟨trivial, (each line inside).2 identity raw isConduit⟩
    have parsed := (valueGrammar_placeholder.parse_iff isReplaced spelled orders_value).mpr
      ⟨opened, isOpened, rfl⟩
    have read : parseNativeValueGraph host (textOf replaced) = .ok _ :=
      (bind_of_ok (canonicalLines_replaced isReplaced normalizes canonical
        (named_of_openGraph isOpened))).trans parsed
    obtain ⟨replacement, isReplacement, related⟩ := replacementByName_ok exactly.2
    obtain ⟨check, checked, isValue⟩ :=
      (checkValueGraph_map_iff isOpened (assigned_bounded bounded)).mpr resolves
    refine ⟨check, ?_, isValue⟩
    unfold materializeTyped
    rw [bind_of_ok canonical, bind_of_ok found, bind_raiseIf (not_not.mpr exactly), bind_of_ok mapped,
      bind_of_ok (mixedReuseError_eq_ok.mpr read), bind_of_ok isReplacement,
      replaceTerm_eq isOpened (slots.nodup_iff.mpr List.nodup_range) once (pairs isOpened)
      (isOpened.covered valueGrammar_placeholder (covered exactly.1)) related]
    exact mixedReuseError_eq_ok.mpr checked

end Reusables

/-! ## Substitution -/

section Substitution

variable {host : Host}

/-- Signed 64-bit numbers for the slots of a root, one for each. -/
structure RootAssignment (host : Host) (source : String) (values : List (Nat × Int)) : Prop where
  once : (values.map fst).Nodup
  bounded : ∀ entry ∈ values, Int64 entry.2
  complete : ∀ conduits, conduitSlots host source = .ok conduits →
    SameSlots (conduits.map fst) (values.map fst)

/-- Values for the slots of a reusable object, one for each. -/
structure TypedAssignment (host : Host) (source : String) (values : List (Nat × NativeValue)) : Prop where
  once : (values.map fst).Nodup
  bounded : ∀ entry ∈ values, entry.2.Bounded
  complete : ∀ conduits, conduitContract host source = .ok conduits →
    SameSlots (conduits.map fst) (values.map fst)

/-- A root is materialized exactly when it is well formed and its graph with the values in the place of
the slots has a value. -/
def RootSubstitutes (host : Host) (source : String) (values : List (Nat × Int)) : Prop :=
  ∀ value, (∃ check, materializeRoot host source values = .ok check ∧ check.value = value) ↔
    ∃ opened, WellFormedRoot host source opened ∧
      Resolves kernelMeaning (opened.map (fill (assigned 0 values))) value

/-- The same for a reusable object. -/
def TypedSubstitutes (host : Host) (source : String) (values : List (Nat × NativeValue)) : Prop :=
  ∀ value, (∃ check, materializeTyped host source values = .ok check ∧ check.value = value) ↔
    ∃ opened, WellFormedReusable host source opened ∧
      Resolves (valueMeaning host.merged) (opened.map (fill (assigned (.whole 0) values))) value

/-- **Materialization is substitution where the numbers 0 do no harm.** Reusable objects are always
materialized by substitution. A root is when its graph has a value with 0 in the place of every slot,
if it has one with the values. -/
theorem materialization_substitutes_iff (normalizes : host.Normalizes) {root reusable : String}
    {values : List (Nat × Int)} {typed : List (Nat × NativeValue)}
    (assignment : RootAssignment host root values) (typedAssignment : TypedAssignment host reusable typed) :
    RootSubstitutes host root values ∧ TypedSubstitutes host reusable typed ↔
      ∀ opened, WellFormedRoot host root opened →
        (∃ value, Resolves kernelMeaning (opened.map (fill (assigned 0 values))) value) →
        ∃ value, Resolves kernelMeaning (opened.map (fill fun _ => 0)) value := by
  have typedLaw : TypedSubstitutes host reusable typed := fun _ =>
    materializeTyped_eq_ok normalizes typedAssignment.once typedAssignment.bounded typedAssignment.complete
  have made := fun {value} => @materializeRoot_eq_ok host root values assignment.once assignment.bounded
    assignment.complete value
  constructor
  · rintro ⟨law, -⟩ opened wellFormed ⟨value, resolves⟩
    obtain ⟨other, isOther, zeros, -⟩ := made.mp ((law value).mpr ⟨opened, wellFormed, resolves⟩)
    rwa [wellFormed.unique isOther]
  · intro harmless
    refine ⟨fun value => ⟨fun ran => ?_, ?_⟩, typedLaw⟩
    · obtain ⟨opened, wellFormed, -, resolves⟩ := made.mp ran
      exact ⟨opened, wellFormed, resolves⟩
    · rintro ⟨opened, wellFormed, resolves⟩
      exact made.mpr ⟨opened, wellFormed, harmless opened wellFormed ⟨value, resolves⟩, resolves⟩

end Substitution

/-! ### Sources in ASCII -/

def asciiHost : Host := ⟨fun text => "'" ++ text ++ "'", id⟩

theorem asciiHost_normalizes : asciiHost.Normalizes where
  ascii := fun _ _ => rfl
  newline := fun _ _ => ⟨fun _ => ⟨rfl, rfl⟩, fun _ => rfl⟩

/-- A source that passes its input on. -/
def passing : String := "witness a conduit 0\nresolve a\n"

theorem rootAssignment_passing : RootAssignment asciiHost passing [(0, -5)] where
  once := nodup_singleton 0
  bounded := by decide
  complete := by
    intro conduits found
    have known : conduitSlots asciiHost passing = .ok [(0, "a", 1)] := rfl
    rw [known] at found
    cases found
    decide

theorem typedAssignment_passing : TypedAssignment asciiHost passing [(0, .glyphs "text")] where
  once := nodup_singleton 0
  bounded := by
    intro entry inside
    rw [mem_singleton.mp inside]
    trivial
  complete := by
    intro conduits found
    have canonical : canonicalLines asciiHost passing = .ok ["witness a conduit 0", "resolve a"] := rfl
    obtain ⟨-, isConduits, -⟩ := (conduitContract_eq_ok canonical).mp found
    have slots : slotsIn 1 ["witness a conduit 0", "resolve a"] = [(0, "a", 1)] := rfl
    rw [isConduits, slots, sortByKey_singleton]
    decide

theorem materialization_substitutes_passing :
    RootSubstitutes asciiHost passing [(0, -5)] ∧ TypedSubstitutes asciiHost passing [(0, .glyphs "text")] ↔
      ∀ opened, WellFormedRoot asciiHost passing opened →
        (∃ value, Resolves kernelMeaning (opened.map (fill (assigned 0 [(0, -5)]))) value) →
        ∃ value, Resolves kernelMeaning (opened.map (fill fun _ => 0)) value :=
  materialization_substitutes_iff asciiHost_normalizes rootAssignment_passing typedAssignment_passing

/-- The lines of a root that overflows when its slot is 0. -/
def overflowingLines : List String :=
  ["witness a conduit 0", "witness b difference a 9223372036854775807", "witness c difference b 2",
    "resolve c"]

/-- The open graph of the root. -/
def overflowingGraph : Graph (Nat ⊕ Int) where
  witnesses := [⟨"a", ⟨none, [.literal (.inl 0)]⟩, 1⟩,
    ⟨"b", ⟨some "difference", [.witness "a", .literal (.inr 9223372036854775807)]⟩, 2⟩,
    ⟨"c", ⟨some "difference", [.witness "b", .literal (.inr 2)]⟩, 3⟩]
  resolve := "c"
  resolveLine := 4

theorem plain_of_words {line : String} (words : line.toList.all isWord = true) (visible : line ≠ "")
    (tight : line = stripped line) (single : ¬ Inside "  " line) : Plain line :=
  ⟨all_eq_true.mp words, visible, tight, single⟩

theorem canonical_overflowing : canonicalSource (textOf overflowingLines) = .ok overflowingLines := by
  refine canonicalSource_eq_ok.mpr ⟨rfl, cons_ne_nil _ _, fun line inside => Plain.kernelLine ?_,
    by decide⟩
  rcases mem_cons.mp inside with rfl | inside
  · exact plain_of_words (by decide) (by decide) (by decide) (by decide)
  · rcases mem_cons.mp inside with rfl | inside
    · exact plain_of_words (by decide) (by decide) (by decide) (by decide)
    · rcases mem_cons.mp inside with rfl | inside
      · exact plain_of_words (by decide) (by decide) (by decide) (by decide)
      · rw [mem_singleton.mp inside]
        exact plain_of_words (by decide) (by decide) (by decide) (by decide)

theorem no_symbol {line : String} (words : line.toList.all isWord = true) :
    (legacyDebtSymbols.find? fun symbol => Inside symbol line) = none :=
  (@kernelGrammar_placeholder asciiHost).no_symbol (all_eq_true.mp words)

theorem openGraph_overflowing : OpenGraph (kernelGrammar asciiHost) rootFits (kernelOrderTexts asciiHost)
    overflowingLines overflowingGraph where
  read := by
    refine ⟨[.witness "a" ⟨none, [.literal (.inl 0)]⟩,
      .witness "b" ⟨some "difference", [.witness "a", .literal (.inr 9223372036854775807)]⟩,
      .witness "c" ⟨some "difference", [.witness "b", .literal (.inr 2)]⟩, .resolve "c"], ?_, rfl, rfl⟩
    refine .cons (@OpenReads.conduit _ _ _ _ "a" "0" "a" 0 1 rfl rfl (show "a" ≠ "conduit" by decide)
      ⟨rfl, by decide, by decide, by decide, rfl⟩) ?_
    refine .cons (@OpenReads.plain _ _ _ _
      (.witness "b" ⟨some "difference", [.witness "a", .literal 9223372036854775807]⟩) (by decide)
      (@Grammar.Reads.witness _ _ _ "b" "difference" "b" _ _ 1 (no_symbol (by decide)) rfl rfl rfl)) ?_
    refine .cons (@OpenReads.plain _ _ _ _
      (.witness "c" ⟨some "difference", [.witness "b", .literal 2]⟩) (by decide)
      (@Grammar.Reads.witness _ _ _ "c" "difference" "c" _ _ 1 (no_symbol (by decide)) rfl rfl rfl)) ?_
    exact .cons (@OpenReads.plain _ _ _ _ (.resolve "c") (by decide)
      (@Grammar.Reads.resolve _ _ _ "c" "c" 1 (no_symbol (by decide)) rfl rfl)) .nil
  distinct := by decide
  few := by decide
  some := cons_ne_nil _ _
  ordered := ⟨_, rfl⟩

theorem wellFormed_overflowing : WellFormedRoot asciiHost (textOf overflowingLines) overflowingGraph where
  lines := ⟨_, canonical_overflowing, openGraph_overflowing⟩
  slots := nodup_singleton 0

theorem rootAssignment_overflowing : RootAssignment asciiHost (textOf overflowingLines) [(0, 1)] where
  once := nodup_singleton 0
  bounded := by decide
  complete := by
    intro conduits found
    obtain ⟨-, rfl, -⟩ := (conduitSlots_eq_ok canonical_overflowing).mp found
    decide

/-- With 1 in its slot the root has a value; it is refused nevertheless. -/
theorem rootSubstitutes_overflowing : RootAssignment asciiHost (textOf overflowingLines) [(0, 1)] ∧
    ¬ RootSubstitutes asciiHost (textOf overflowingLines) [(0, 1)] := by
  refine ⟨rootAssignment_overflowing, fun law => ?_⟩
  obtain ⟨once, bounded, complete⟩ := rootAssignment_overflowing
  have one : Resolves kernelMeaning (overflowingGraph.map (fill (assigned 0 [(0, 1)])))
      (-9223372036854775808) :=
    (evaluate_map_iff openGraph_overflowing (assigned_int64 bounded)).mp rfl
  have small : ∀ _ : Nat, Int64 0 := fun _ => ⟨by decide, by decide⟩
  obtain ⟨check, ran, -⟩ := (law _).mpr ⟨overflowingGraph, wellFormed_overflowing, one⟩
  obtain ⟨opened, wellFormed, ⟨zero, zeros⟩, -⟩ := (materializeRoot_eq_ok once bounded complete).mp
    ⟨check, ran, rfl⟩
  rw [wellFormed.unique wellFormed_overflowing] at zeros
  have evaluated := (evaluate_map_iff openGraph_overflowing small).mpr zeros
  have refused : evaluateNativeKernel asciiHost (overflowingGraph.map (fill fun _ => 0)) =
      .error (kernelFault "KN1202" "difference exceeds signed Int64 reality" 3 1) := rfl
  rw [refused] at evaluated
  cases evaluated

end Koschei.Kernel
