import Koschei.Kernel.OpenGraphs

/-!
# Values for slots

The conduits that the frontends find on the lines of a source are those of its open
graph, and replacing the terms of their witnesses by values fills the values of
their slots into the graph.
-/

namespace Koschei.Kernel

open Lib

variable {V : Type}

/-! ## Slots -/

/-- The conduits on numbered lines. -/
def slotsIn : Nat → List String → List Conduit
  | _, [] => []
  | number, line :: lines =>
    match conduitOf (split ' ' line) with
    | some (identity, raw) => (decimal raw, identity, number) :: slotsIn (number + 1) lines
    | none => slotsIn (number + 1) lines

section Slots

variable {texts : SlotTexts} {require : List String → Nat → Checked Unit} {admits : List String → Prop}

section

variable (isAdmit : ∀ tokens number, require tokens number = .ok () ↔ admits tokens)

include isAdmit

theorem readSlot_eq_ok {found after : List Conduit} {number : Nat} {line : String} :
    readSlot texts require found number line = .ok after ↔ admits (split ' ' line) ∧
      match conduitOf (split ' ' line) with
      | none => after = found
      | some (identity, raw) => (∃ slot, Spells raw slot) ∧ decimal raw ∉ found.map fst ∧
          after = found ++ [(decimal raw, identity, number)] := by
  simp only [readSlot, bind_eq_ok_iff, isAdmit, exists_and_left, exists_const]
  refine and_congr_right fun _ => ?_
  cases conduitOf (split ' ' line) with
  | none => simp only [ok.injEq, eq_comm]
  | some conduit =>
    obtain ⟨identity, raw⟩ := conduit
    simp only [bind_unit_iff, raiseIf_iff, not_or, not_eq_false, Nat.not_lt, ok.injEq]
    constructor
    · rintro ⟨⟨number, canonical⟩, short, range, fresh, rfl⟩
      exact ⟨⟨_, number, canonical, short, range, rfl⟩, fresh, rfl⟩
    · rintro ⟨⟨slot, spells⟩, fresh, rfl⟩
      exact ⟨⟨spells.number, spells.canonical⟩, spells.short, spells.range, fresh, rfl⟩

theorem readSlots_eq_ok {found after : List Conduit} {number : Nat} {lines : List String}
    (distinct : (found.map fst).Nodup) :
    readSlots texts require found number lines = .ok after ↔
      (∀ line ∈ lines, admits (split ' ' line) ∧ ∀ identity raw,
        conduitOf (split ' ' line) = some (identity, raw) → ∃ slot, Spells raw slot) ∧
      after = found ++ slotsIn number lines ∧ (after.map fst).Nodup := by
  induction lines generalizing found number with
  | nil =>
    rw [readSlots, slotsIn, append_nil]
    constructor
    · intro same
      cases same
      exact ⟨(fun _ inside => by cases inside), rfl, distinct⟩
    · rintro ⟨-, rfl, -⟩
      rfl
  | cons line lines ih =>
    rw [readSlots, slotsIn, forall_mem_cons]
    cases isConduit : conduitOf (split ' ' line) with
    | none =>
      dsimp only
      constructor
      · intro ran
        obtain ⟨between, first, others⟩ := bind_eq_ok ran
        rw [readSlot_eq_ok isAdmit, isConduit] at first
        obtain ⟨admitted, same⟩ := first
        have rest := (ih distinct).mp (same ▸ others)
        exact ⟨⟨⟨admitted, (fun _ _ impossible => by cases impossible)⟩, rest.1⟩, rest.2⟩
      · rintro ⟨⟨⟨admitted, -⟩, each⟩, rest⟩
        have first : readSlot texts require found number line = .ok found := by
          rw [readSlot_eq_ok isAdmit, isConduit]
          exact ⟨admitted, rfl⟩
        exact (bind_of_ok first).trans ((ih distinct).mpr ⟨each, rest⟩)
    | some conduit =>
      obtain ⟨identity, raw⟩ := conduit
      dsimp only
      have longer : found ++ (decimal raw, identity, number) :: slotsIn (number + 1) lines =
          found ++ [(decimal raw, identity, number)] ++ slotsIn (number + 1) lines := by
        rw [append_assoc]
        rfl
      have nodup : decimal raw ∉ found.map fst →
          ((found ++ [(decimal raw, identity, number)]).map fst).Nodup := by
        intro fresh
        rw [map_append]
        refine nodup_append.mpr ⟨distinct, nodup_singleton _, fun slot inside other isOther same => ?_⟩
        have isSlot : slot = decimal raw := same.trans (mem_singleton.mp isOther)
        exact fresh (isSlot ▸ inside)
      constructor
      · intro ran
        obtain ⟨between, first, ran⟩ := bind_eq_ok ran
        rw [readSlot_eq_ok isAdmit, isConduit] at first
        obtain ⟨admitted, spelled, fresh, rfl⟩ := first
        obtain ⟨each, rfl, whole⟩ := (ih (nodup fresh)).mp ran
        refine ⟨⟨⟨admitted, fun _ _ same => ?_⟩, each⟩, longer.symm, whole⟩
        cases same
        exact spelled
      · rintro ⟨⟨⟨admitted, spelled⟩, each⟩, rfl, whole⟩
        have fresh : decimal raw ∉ found.map fst := by
          intro inside
          rw [map_append] at whole
          exact (nodup_append.mp whole).2.2 _ inside _ mem_cons_self rfl
        have first : readSlot texts require found number line =
            .ok (found ++ [(decimal raw, identity, number)]) := by
          rw [readSlot_eq_ok isAdmit, isConduit]
          exact ⟨admitted, spelled identity raw rfl, fresh, rfl⟩
        exact (bind_of_ok first).trans ((ih (nodup fresh)).mpr ⟨each, longer, whole⟩)

theorem readSlots_nil_eq_ok {after : List Conduit} {number : Nat} {lines : List String} :
    readSlots texts require [] number lines = .ok after ↔
      (∀ line ∈ lines, admits (split ' ' line) ∧ ∀ identity raw,
        conduitOf (split ' ' line) = some (identity, raw) → ∃ slot, Spells raw slot) ∧
      after = slotsIn number lines ∧ (after.map fst).Nodup := by
  rw [@readSlots_eq_ok texts require admits isAdmit [] after number lines nodup_nil, nil_append]

end

end Slots

/-! ## The conduits of an open graph -/

section Conduits

variable {grammar : Grammar V} {zero : V} {fits : String → Prop} {lines : List String}

theorem slotOf_inr (name : String) (term : Term V) (line : Nat) :
    slotOf (⟨name, term.map Sum.inr, line⟩ : Witness (Nat ⊕ V)) = none := by
  obtain ⟨operation, atoms⟩ := term
  unfold slotOf Term.map
  cases operation with
  | some operation => rfl
  | none =>
    cases atoms with
    | nil => rfl
    | cons atom others =>
      cases atom with
      | witness name => cases others <;> rfl
      | literal value => cases others <;> rfl

theorem conduitOf_eq_none {tokens : List String} (closed : "conduit" ∉ tokens) :
    conduitOf tokens = none := by
  cases isConduit : conduitOf tokens with
  | none => rfl
  | some conduit =>
    rw [conduitOf_eq_some.mp isConduit] at closed
    exact absurd (mem_cons_of_mem _ (mem_cons_of_mem _ mem_cons_self)) closed

theorem conduits_eq (placeholder : Placeholder grammar zero) {clauses : List (Grammar.Clause (Nat ⊕ V))}
    (reads : Forall₂ (OpenReads grammar fits) lines clauses) (number : Nat) :
    (Grammar.witnessesOf number clauses).filterMap slotOf =
      (slotsIn number lines).map fun conduit => (conduit.1, conduit.2.1) := by
  induction reads generalizing number with
  | nil => rfl
  | cons first _ ih =>
    cases first with
    | conduit tokens named _ spelled =>
      rw [slotsIn, conduitOf_eq_some.mpr tokens, Grammar.witnessesOf, filterMap_cons, ih]
      dsimp only [slotOf]
      rw [map_cons, spelled.isSlot, (placeholder.named named).1]
    | @plain clause closed isRead =>
      rw [slotsIn, conduitOf_eq_none closed]
      cases clause with
      | witness name term =>
        unfold Grammar.Clause.map
        rw [Grammar.witnessesOf, filterMap_cons, slotOf_inr]
        exact ih (number + 1)
      | resolve name => exact ih (number + 1)

/-- A witness of an open graph is a conduit, or it has a term that the grammar reads. -/
theorem witness_open {holds : Term V → Prop}
    (holding : ∀ tokens number term, grammar.term tokens number = .ok term → holds term)
    {clauses : List (Grammar.Clause (Nat ⊕ V))}
    (reads : Forall₂ (OpenReads grammar fits) lines clauses) {number : Nat}
    {witness : Witness (Nat ⊕ V)} (inside : witness ∈ Grammar.witnessesOf number clauses) :
    (∃ slot, witness.term = ⟨none, [.literal (.inl slot)]⟩) ∨
      ∃ term : Term V, witness.term = term.map Sum.inr ∧ holds term := by
  obtain ⟨line, -, isRead⟩ := exists_left_of_forall₂ reads (Grammar.mem_witnessesOf inside)
  generalize isClause : Grammar.Clause.witness witness.name witness.term = clause at isRead
  cases isRead with
  | conduit _ _ _ _ =>
    exact .inl ⟨_, (Grammar.Clause.witness.inj isClause).2⟩
  | @plain plain _ isPlain =>
    cases isPlain with
    | witness _ _ _ means =>
      exact .inr ⟨_, (Grammar.Clause.witness.inj isClause).2, holding _ _ _ means⟩
    | resolve _ _ _ => cases isClause

/-- A line says one thing. -/
theorem reads_unique (uniform : grammar.Uniform) {line : String} {first second : Grammar.Clause V}
    (one : grammar.Reads line first) (other : grammar.Reads line second) : first = second := by
  cases one with
  | witness _ tokens named means =>
    cases other with
    | witness _ tokens' named' means' =>
      rw [tokens] at tokens'
      cases tokens'
      have sameName := (uniform.name _).same named _ |>.symm.trans named'
      have sameTerm := (uniform.term _).same means _ |>.symm.trans means'
      cases sameName
      cases sameTerm
      rfl
    | resolve _ tokens' _ =>
      rw [tokens] at tokens'
      exact absurd (cons.inj tokens').1 (by decide)
  | resolve _ tokens named =>
    cases other with
    | witness _ tokens' _ _ =>
      rw [tokens] at tokens'
      exact absurd (cons.inj tokens').1 (by decide)
    | resolve _ tokens' named' =>
      rw [tokens] at tokens'
      cases tokens'
      have sameName := (uniform.name _).same named _ |>.symm.trans named'
      cases sameName
      rfl

theorem openReads_unique (uniform : grammar.Uniform) {line : String}
    {first second : Grammar.Clause (Nat ⊕ V)} (one : OpenReads grammar fits line first)
    (other : OpenReads grammar fits line second) : first = second := by
  cases one with
  | conduit tokens named _ spelled =>
    cases other with
    | conduit tokens' named' _ spelled' =>
      rw [tokens] at tokens'
      cases tokens'
      have sameName := (uniform.name _).same named _ |>.symm.trans named'
      have sameSlot := spelled.isSlot.symm.trans spelled'.isSlot
      cases sameName
      cases sameSlot
      rfl
    | plain closed _ =>
      rw [tokens] at closed
      exact absurd (mem_cons_of_mem _ (mem_cons_of_mem _ mem_cons_self)) closed
  | plain closed reads =>
    cases other with
    | conduit tokens _ _ _ =>
      rw [tokens] at closed
      exact absurd (mem_cons_of_mem _ (mem_cons_of_mem _ mem_cons_self)) closed
    | plain _ reads' => rw [reads_unique uniform reads reads']

theorem OpenGraph.unique (uniform : grammar.Uniform) {texts : OrderTexts}
    {first second : Graph (Nat ⊕ V)} (one : OpenGraph grammar fits texts lines first)
    (other : OpenGraph grammar fits texts lines second) : first = second := by
  obtain ⟨clauses, reads, isWitnesses, resolves⟩ := one.read
  obtain ⟨clauses', reads', isWitnesses', resolves'⟩ := other.read
  have unique : Relator.RightUnique (OpenReads grammar fits) := fun _ _ _ => openReads_unique uniform
  have same : clauses = clauses' := List.right_unique_forall₂' unique reads reads'
  subst same
  obtain ⟨witnesses, resolve, line⟩ := first
  obtain ⟨witnesses', resolve', line'⟩ := second
  rw [resolves] at resolves'
  cases resolves'
  dsimp only at isWitnesses isWitnesses'
  rw [isWitnesses, isWitnesses']

end Conduits

/-! ## Values for the slots -/

def assigned (default : V) (values : List (Nat × V)) (slot : Nat) : V := (values.lookup slot).getD default

theorem OpenGraph.replaces {grammar : Grammar V} {fits : String → Prop} {texts : OrderTexts}
    {lines : List String} {opened : Graph (Nat ⊕ V)} (isOpened : OpenGraph grammar fits texts lines opened)
    (misplaced : Fault) : ∃ replaced, lines.mapM (replaceLine misplaced) = .ok replaced := by
  obtain ⟨clauses, reads, -⟩ := isOpened.read
  refine exists_mapM_eq_ok fun line inside => ?_
  obtain ⟨clause, -, isRead⟩ := exists_right_of_forall₂ reads inside
  unfold replaceLine
  cases isRead with
  | conduit tokens _ _ _ =>
    rw [conduitOf_eq_some.mpr tokens]
    exact ⟨_, rfl⟩
  | plain closed _ =>
    rw [conduitOf_eq_none closed]
    exact ⟨line, bind_raiseIf closed⟩

section OpenConduits

variable {grammar : Grammar V} {zero : V} {fits : String → Prop} {texts : OrderTexts}
  {lines : List String} {opened : Graph (Nat ⊕ V)}
  (isOpened : OpenGraph grammar fits texts lines opened) (placeholder : Placeholder grammar zero)

include isOpened placeholder

theorem OpenGraph.conduits_eq :
    opened.conduits = (slotsIn 1 lines).map fun conduit => (conduit.1, conduit.2.1) := by
  obtain ⟨clauses, reads, isWitnesses, -⟩ := isOpened.read
  unfold Graph.conduits
  rw [isWitnesses]
  exact Koschei.Kernel.conduits_eq placeholder reads 1

omit isOpened placeholder in
theorem slots_map (conduits : List Conduit) :
    (conduits.map fun conduit => (conduit.1, conduit.2.1)).map fst = conduits.map fst := by
  rw [map_map]
  rfl

theorem OpenGraph.pairs (slot : Nat) (name : String) :
    (∃ line, (slot, name, line) ∈ slotsIn 1 lines) ↔ (slot, name) ∈ opened.conduits := by
  rw [isOpened.conduits_eq placeholder, mem_map]
  constructor
  · rintro ⟨line, inside⟩
    exact ⟨_, inside, rfl⟩
  · rintro ⟨⟨slot', name', line⟩, inside, same⟩
    cases same
    exact ⟨line, inside⟩

theorem OpenGraph.covered {slots : List Nat} (subset : (slotsIn 1 lines).map fst ⊆ slots) (slot : Nat)
    (name : String) (inside : (slot, name) ∈ opened.conduits) : slot ∈ slots := by
  obtain ⟨line, member⟩ := (isOpened.pairs placeholder slot name).mpr inside
  exact subset (mem_map_of_mem member)

end OpenConduits

section Replacing

variable {conduits : List Conduit} {values : List (Nat × V)}

theorem replacementByName_ok (covered : values.map fst ⊆ conduits.map fst) :
    ∃ replacement, replacementByName conduits values = .ok replacement ∧
      Forall₂ (fun entry made => (∃ line, (entry.1, made.1, line) ∈ conduits) ∧ made.2 = entry.2)
        values replacement := by
  obtain ⟨replacement, mapped⟩ : ∃ replacement, replacementByName conduits values = .ok replacement := by
    unfold replacementByName
    refine exists_mapM_eq_ok fun ⟨slot, value⟩ inside => ?_
    dsimp only
    split
    · exact ⟨_, rfl⟩
    · rename_i found
      obtain ⟨conduit, isConduit, same⟩ := mem_map.mp (covered (mem_map_of_mem inside))
      exact absurd same.symm (bne_iff_ne.mp (lookup_eq_none_iff.mp found conduit isConduit))
  refine ⟨replacement, mapped, (mapM_forall₂ mapped).imp fun ⟨slot, value⟩ made isMade => ?_⟩
  dsimp only at isMade
  split at isMade
  · rename_i name line found
    cases isMade
    exact ⟨⟨line, mem_of_lookup_eq_some found⟩, rfl⟩
  · cases isMade

variable {opened : Graph (Nat ⊕ V)} {replacement : List (String × V)}

theorem slotOf_of_mem_conduits (distinct : (opened.witnesses.map Witness.name).Nodup)
    {witness : Witness (Nat ⊕ V)} (inside : witness ∈ opened.witnesses) {slot : Nat}
    (isConduit : (slot, witness.name) ∈ opened.conduits) : slotOf witness = some (slot, witness.name) := by
  obtain ⟨other, isOther, isSlot⟩ := mem_filterMap.mp isConduit
  have same : other.name = witness.name := by
    unfold slotOf at isSlot
    split at isSlot
    · exact congrArg snd (some.inj isSlot)
    · cases isSlot
  rw [← inj_on_of_nodup_map distinct isOther inside same]
  rwa [same]

/-- The replacement gives each conduit the value of its slot, and nothing to the other witnesses. -/
theorem lookup_replacement (distinct : (opened.witnesses.map Witness.name).Nodup)
    (slots : (opened.conduits.map fst).Nodup) (once : (values.map fst).Nodup)
    (pairs : ∀ slot name, (∃ line, (slot, name, line) ∈ conduits) ↔ (slot, name) ∈ opened.conduits)
    (made : Forall₂ (fun entry made => (∃ line, (entry.1, made.1, line) ∈ conduits) ∧ made.2 = entry.2)
      values replacement)
    {witness : Witness (Nat ⊕ V)} (inside : witness ∈ opened.witnesses) {value : V} :
    replacement.reverse.lookup witness.name = some value ↔
      ∃ slot, slotOf witness = some (slot, witness.name) ∧ values.lookup slot = some value := by
  have among : ∀ value, (witness.name, value) ∈ replacement ↔
      ∃ slot, slotOf witness = some (slot, witness.name) ∧ values.lookup slot = some value := by
    intro value
    constructor
    · intro isMade
      obtain ⟨⟨slot, other⟩, isEntry, isConduit, same⟩ := exists_left_of_forall₂ made isMade
      cases same
      exact ⟨slot, slotOf_of_mem_conduits distinct inside ((pairs slot _).mp isConduit),
        (lookup_eq_some_iff_mem once).mpr isEntry⟩
    · rintro ⟨slot, isSlot, found⟩
      obtain ⟨⟨name, other⟩, isMade, isConduit, same⟩ :=
        exists_right_of_forall₂ made (mem_of_lookup_eq_some found)
      cases same
      have isPair : (slot, witness.name) ∈ opened.conduits := mem_filterMap.mpr ⟨witness, inside, isSlot⟩
      have equal := inj_on_of_nodup_map slots ((pairs slot name).mp isConduit) isPair rfl
      cases equal
      exact isMade
  constructor
  · exact fun found => (among value).mp (mem_reverse.mp (mem_of_lookup_eq_some found))
  · rintro ⟨slot, isSlot, found⟩
    have member := (among value).mpr ⟨slot, isSlot, found⟩
    cases isFound : replacement.reverse.lookup witness.name with
    | none =>
      exact absurd rfl (bne_iff_ne.mp (lookup_eq_none_iff.mp isFound _ (mem_reverse.mpr member)))
    | some other =>
      obtain ⟨slot', isSlot', found'⟩ :=
        (among other).mp (mem_reverse.mp (mem_of_lookup_eq_some isFound))
      rw [isSlot] at isSlot'
      cases isSlot'
      rw [← found, ← found']

theorem replaceTerm_eq {grammar : Grammar V} {zero : V} {fits : String → Prop} {texts : OrderTexts}
    {lines : List String} (isOpened : OpenGraph grammar fits texts lines opened)
    (slots : (opened.conduits.map fst).Nodup) (once : (values.map fst).Nodup)
    (pairs : ∀ slot name, (∃ line, (slot, name, line) ∈ conduits) ↔ (slot, name) ∈ opened.conduits)
    (covered : ∀ slot name, (slot, name) ∈ opened.conduits → slot ∈ values.map fst)
    (made : Forall₂ (fun entry made => (∃ line, (entry.1, made.1, line) ∈ conduits) ∧ made.2 = entry.2)
      values replacement) :
    (opened.map (fill fun _ => zero)).replaced replacement = opened.map (fill (assigned zero values)) := by
  unfold Graph.replaced Graph.map
  dsimp only
  congr 1
  rw [map_map]
  refine map_congr_left fun witness inside => ?_
  have found := @lookup_replacement _ _ _ _ _ isOpened.distinct slots once pairs made witness inside
  obtain ⟨clauses, reads, isWitnesses, -⟩ := isOpened.read
  obtain ⟨name, term, line⟩ := witness
  unfold replaceTerm Witness.map
  dsimp only [Function.comp] at found ⊢
  rcases @witness_open _ _ _ _ (fun _ => True) (fun _ _ _ _ => trivial) _ reads _ _ (isWitnesses ▸ inside) with
    ⟨slot, isSlot⟩ | ⟨plain, isPlain, -⟩
  · dsimp only at isSlot
    subst isSlot
    have isConduit : (slot, name) ∈ opened.conduits := mem_filterMap.mpr ⟨_, inside, rfl⟩
    have known : ∃ value, values.lookup slot = some value := by
      cases looked : values.lookup slot with
      | some value => exact ⟨value, rfl⟩
      | none =>
        obtain ⟨entry, isEntry, same⟩ := mem_map.mp (covered slot name isConduit)
        exact absurd same.symm (bne_iff_ne.mp (lookup_eq_none_iff.mp looked entry isEntry))
    obtain ⟨value, known⟩ := known
    rw [found.mpr ⟨slot, rfl, known⟩]
    unfold Term.map
    simp [Atom.map, fill, assigned, known]
  · dsimp only at isPlain
    subst isPlain
    have none : replacement.reverse.lookup name = none := by
      cases looked : replacement.reverse.lookup name with
      | none => rfl
      | some value =>
        obtain ⟨slot, isSlot, -⟩ := found.mp looked
        rw [slotOf_inr] at isSlot
        cases isSlot
    rw [none]
    dsimp only
    rw [Term.map_inr_map_fill, Term.map_inr_map_fill]

end Replacing

end Koschei.Kernel
