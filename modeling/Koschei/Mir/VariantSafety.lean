import Koschei.Core.Plain
import Koschei.Mir.Executor

/-!
# Payload extraction in accepted blocks

The validator propagates facts without ever removing one, although the
instruction that defines a source may run again on the next turn of a loop. The
argument that this is sound combines three things. A test reads its source, so a
source that is tested before its definition has run ends the run. Every id has
one definition, so a source whose definition would run after its test in the
same block, or inside a block that already has a fact about it, was read before
it was defined. And the facts kept at a block are contained in what each of its
predecessors sends.

The invariant of a run (`Sound`) therefore records, for every id that has a
value, that no fact about it is known at its definition and that no test stands
before its definition there.
-/

namespace Koschei.Mir

open Lib Lib.Dataflow

variable {σ : Type}

/-! ## Runs -/

/-- Where a run from block 0 stands after `n` steps. -/
def trace (machine : Machine σ) (call : Caller σ) (moduleKey : String)
    (blocks : List BasicBlock) (frame : Frame) (store : Store σ) : Nat → Progress σ
  | 0 => enterBlock blocks 0 frame store
  | n + 1 =>
    match trace machine call moduleKey blocks frame store n with
    | .running config => step machine call moduleKey blocks config
    | ended => ended

/-! ## What one instruction does to the values -/

variable {target id source : ValueId} {frame' : Frame} {store' : Store σ}

theorem Frame.assign_ok {frame : Frame} {result : Exec σ Value}
    {store : Store σ} (done : frame.assign target result store = .ok frame' store') :
    ∃ value, result store = .ok value store' ∧ frame' = frame.set target value := by
  obtain ⟨value, middle, computed, rest⟩ := andThen_eq_ok.mp done
  cases rest
  exact ⟨value, computed, rfl⟩

variable {value : Value}

theorem Frame.read_ok {frame : Frame} {store : Store σ}
    (done : frame.read id store = .ok value store') :
    frame.values id = some value ∧ store' = store := by
  cases known : frame.values id with
  | none => simp [Frame.read, known] at done
  | some found =>
    simp only [Frame.read, known, pure_apply, Outcome.ok.injEq] at done
    exact ⟨congrArg some done.1, done.2.symm⟩

theorem executeInstruction_values {machine : Machine σ} {call : Caller σ} {moduleKey : String}
    {frame : Frame} {instruction : Instruction} {store : Store σ}
    (done : executeInstruction machine call moduleKey frame instruction store = .ok frame' store') :
    ∀ id, instruction.target ≠ some id → frame'.values id = frame.values id := by
  intro id other
  have assigned : ∀ {target : ValueId} {result : Exec σ Value},
      target ≠ id → frame.assign target result store = .ok frame' store' →
        frame'.values id = frame.values id := by
    intro target result different computed
    obtain ⟨value, _, rfl⟩ := Frame.assign_ok computed
    exact update_of_ne (Ne.symm different) _ _
  cases instruction with
  | bind name source isMutable type =>
    obtain ⟨value, middle, _, rest⟩ := andThen_eq_ok.mp done
    cases rest
    rfl
  | store name source type =>
    cases known : frame.bindings name with
    | none => simp [executeInstruction, storeName, known] at done
    | some cell =>
      by_cases assignable : cell.isMutable
      · simp only [executeInstruction, storeName, known, assignable, if_true] at done
        obtain ⟨value, middle, _, rest⟩ := andThen_eq_ok.mp done
        cases rest
        rfl
      · simp [executeInstruction, storeName, known, assignable] at done
  | mapInsert object key value type =>
    obtain ⟨_, _, _, rest⟩ := andThen_eq_ok.mp done
    obtain ⟨_, _, _, rest⟩ := andThen_eq_ok.mp rest
    obtain ⟨_, _, _, rest⟩ := andThen_eq_ok.mp rest
    obtain ⟨_, _, _, rest⟩ := andThen_eq_ok.mp rest
    cases rest
    rfl
  | structSet object field source type =>
    obtain ⟨_, _, _, rest⟩ := andThen_eq_ok.mp done
    obtain ⟨_, _, _, rest⟩ := andThen_eq_ok.mp rest
    obtain ⟨_, _, _, rest⟩ := andThen_eq_ok.mp rest
    cases rest
    rfl
  | astFallback target nodeKind type => cases done
  | _ => exact assigned (fun same => other (congrArg some same)) done

variable {variant : String} {type : TypeNode}

theorem executeInstruction_variantIs {machine : Machine σ} {call : Caller σ}
    {moduleKey : String} {frame : Frame} {store : Store σ}
    (done : executeInstruction machine call moduleKey frame
      (.variantIs target source variant type) store = .ok frame' store') :
    ∃ value answer, frame.values source = some value ∧
      variantIs value variant = .ok answer ∧ frame' = frame.set target (.bool answer) := by
  obtain ⟨result, computed, rfl⟩ := Frame.assign_ok done
  obtain ⟨value, middle, read, rest⟩ := andThen_eq_ok.mp computed
  obtain ⟨answer, middle', compared, rest⟩ := andThen_eq_ok.mp rest
  cases rest
  refine ⟨value, answer, (Frame.read_ok read).1, ?_, rfl⟩
  cases same : variantIs value variant with
  | error message => simp [failClosed, same] at compared
  | ok answer' =>
    simp only [failClosed, same, pure_apply, Outcome.ok.injEq] at compared
    rw [compared.1]

/-! ## Definitions in the blocks -/

/-- In a list whose results are distinct, one result has one position. -/
theorem position_unique {α β : Type} {f : α → Option β} {b : β} :
    ∀ {items : List α}, (items.filterMap f).Nodup → ∀ {i j : Nat} {x y : α},
      items[i]? = some x → items[j]? = some y → f x = some b → f y = some b → i = j
  | [], _, _, _, _, _, first, _, _, _ => by simp at first
  | item :: items, distinct, i, j, x, y, first, second, one, two => by
    have tail : (items.filterMap f).Nodup := by
      cases result : f item with
      | none => simpa [filterMap_cons, result] using distinct
      | some c =>
        simp only [filterMap_cons, result] at distinct
        exact (nodup_cons.mp distinct).2
    have later : ∀ {k : Nat} {z : α}, f item = some b → items[k]? = some z →
        f z = some b → False := by
      intro k z here there same
      simp only [filterMap_cons, here] at distinct
      exact (nodup_cons.mp distinct).1 (mem_filterMap.mpr ⟨z, mem_of_getElem? there, same⟩)
    cases i with
    | zero =>
      cases j with
      | zero => rfl
      | succ j =>
        rw [List.getElem?_cons_zero, some.injEq] at first
        rw [List.getElem?_cons_succ] at second
        exact (later (first ▸ one) second two).elim
    | succ i =>
      cases j with
      | zero =>
        rw [List.getElem?_cons_zero, some.injEq] at second
        rw [List.getElem?_cons_succ] at first
        exact (later (second ▸ two) first one).elim
      | succ j =>
        rw [List.getElem?_cons_succ] at first second
        rw [position_unique tail first second one two]

/-- The instruction at a position of a block defines an id. -/
def DefinedAt (blocks : List BasicBlock) (id : ValueId) (block : BasicBlock) (position : Nat) :
    Prop :=
  block ∈ blocks ∧ ∃ instruction, block.instructions[position]? = some instruction ∧
    instruction.target = some id

variable {block block' : BasicBlock}

theorem DefinedAt.unique {blocks : List BasicBlock} (wellFormed : WellFormed blocks)
    {position position' : Nat}
    (one : DefinedAt blocks id block position) (two : DefinedAt blocks id block' position') :
    block = block' ∧ position = position' := by
  obtain ⟨member, first, here, target⟩ := one
  obtain ⟨member', second, there, target'⟩ := two
  have distinct := List.nodup_flatMap.mp wellFormed.singleDefinition
  have same : block = block' := by
    by_contra different
    have symmetric : Std.Symm (Function.onFun List.Disjoint fun block : BasicBlock =>
        block.instructions.filterMap Instruction.target) :=
      ⟨fun _ _ disjoint => List.Disjoint.symm disjoint⟩
    exact distinct.2.forall member member' different
      (mem_filterMap.mpr ⟨first, mem_of_getElem? here, target⟩)
      (mem_filterMap.mpr ⟨second, mem_of_getElem? there, target'⟩)
  subst same
  exact ⟨rfl, position_unique (distinct.1 block member) here there target target'⟩

theorem findBlock_some {blocks : List BasicBlock} {id : BlockId}
    (found : findBlock blocks id = some block) : block ∈ blocks ∧ block.id = id := by
  have member := mem_of_find?_eq_some found
  have same := find?_some found
  exact ⟨mem_reverse.mp member, by simpa using same⟩

theorem WellFormed.block_unique {blocks : List BasicBlock} (wellFormed : WellFormed blocks)
    (member : block ∈ blocks) (member' : block' ∈ blocks)
    (same : block.id = block'.id) : block = block' :=
  inj_on_of_nodup_map wellFormed.uniqueIds member member' same

/-! ## The invariant of a run -/

section Invariant

variable {machine : Machine σ} {call : Caller σ} {moduleKey : String}
variable {blocks : List BasicBlock} {frame : Frame} {store : Store σ}
variable {tests : ValueId → Option VariantTest} {incoming : Incoming BlockId VariantProof}

/-- Before step `n` of the run, a test of `source` for `variant` was executed while
`source` held `value`, and the answer was yes. -/
def ObservedTrue (machine : Machine σ) (call : Caller σ) (moduleKey : String)
    (blocks : List BasicBlock) (frame : Frame) (store : Store σ) (n : Nat)
    (source : ValueId) (variant : String) (value : Value) : Prop :=
  ∃ m config target type, m < n ∧
    trace machine call moduleKey blocks frame store m = .running config ∧
    config.block.instructions[config.position]? = some (.variantIs target source variant type) ∧
    config.frame.values source = some value ∧
    ∃ after, trace machine call moduleKey blocks frame store (m + 1) = .running after ∧
      after.frame.values target = some (.bool true)

/-- What is known of the definition of an id that has a value: no fact about the id
holds at its block, and no test of the id stands at or before it there. -/
def Undisturbed (blocks : List BasicBlock) (incoming : Incoming BlockId VariantProof)
    (id : ValueId) : Prop :=
  ∃ block position, DefinedAt blocks id block position ∧
    (∀ facts, incoming block.id = some facts → ∀ variant, (id, variant) ∉ facts) ∧
    ∀ earlier ≤ position, ∀ target variant type,
      block.instructions[earlier]? ≠ some (.variantIs target id variant type)

/-- The invariant at one point of a run that may use `observed` as its history. -/
structure Sound (blocks : List BasicBlock) (incoming : Incoming BlockId VariantProof)
    (observed : ValueId → String → Value → Prop) (config : Config σ) : Prop where
  inside : config.block ∈ blocks
  known : ∃ facts, incoming config.block.id = some facts
  proven : ∀ facts, incoming config.block.id = some facts → ∀ source variant,
    (source, variant) ∈ facts → ∃ value, config.frame.values source = some value ∧
      variantIs value variant = .ok true ∧ observed source variant value
  undisturbed : ∀ id value, config.frame.values id = some value → Undisturbed blocks incoming id
  answered : ∀ earlier < config.position, ∀ target source variant type,
    config.block.instructions[earlier]? = some (.variantIs target source variant type) →
      ∃ value answer, config.frame.values source = some value ∧
        variantIs value variant = .ok answer ∧
        config.frame.values target = some (.bool answer) ∧
        (answer = true → observed source variant value)

variable {observed observed' : ValueId → String → Value → Prop} {config config' : Config σ}

/-- A value that is not redefined by the next instruction: the id is mentioned by a
fact of the block or by a test at or before the instruction. -/
theorem Sound.not_redefined
    (wellFormed : WellFormed blocks) (sound : Sound blocks incoming observed config)
    {instruction : Instruction}
    (here : config.block.instructions[config.position]? = some instruction)
    {id : ValueId} (bound : config.frame.values id = some value)
    (mentioned : (∃ facts variant, incoming config.block.id = some facts ∧ (id, variant) ∈ facts) ∨
      ∃ earlier ≤ config.position, ∃ target variant type,
        config.block.instructions[earlier]? = some (.variantIs target id variant type)) :
    instruction.target ≠ some id := by
  intro redefines
  obtain ⟨block, position, defined, noFact, noTest⟩ := sound.undisturbed id value bound
  obtain ⟨rfl, rfl⟩ := defined.unique wellFormed ⟨sound.inside, instruction, here, redefines⟩
  rcases mentioned with ⟨facts, variant, atBlock, member⟩ |
    ⟨earlier, before, target, variant, type, test⟩
  · exact noFact facts atBlock variant member
  · exact noTest earlier before target variant type test

/-- **One instruction keeps the invariant.** -/
theorem Sound.instruction {observed observed' : ValueId → String → Value → Prop}
    {config : Config σ} {instruction : Instruction}
    (wellFormed : WellFormed blocks) (sound : Sound blocks incoming observed config)
    (here : config.block.instructions[config.position]? = some instruction)
    (done : executeInstruction machine call moduleKey config.frame instruction config.store =
      .ok frame' store')
    (kept : ∀ source variant value, observed source variant value → observed' source variant value)
    (noted : ∀ target source variant type value,
      instruction = .variantIs target source variant type →
      config.frame.values source = some value → frame'.values target = some (.bool true) →
        observed' source variant value) :
    Sound blocks incoming observed'
      { config with position := config.position + 1, frame := frame', store := store' } := by
  have unchanged := executeInstruction_values done
  have testBound : ∀ earlier ≤ config.position, ∀ target source variant type,
      config.block.instructions[earlier]? = some (.variantIs target source variant type) →
        ∃ value, config.frame.values source = some value := by
    intro earlier before target source variant type test
    rcases Nat.lt_or_eq_of_le before with strictly | rfl
    · obtain ⟨value, _, bound, _⟩ := sound.answered earlier strictly _ _ _ _ test
      exact ⟨value, bound⟩
    · obtain rfl := some.inj (here.symm.trans test)
      obtain ⟨value, _, bound, _⟩ := executeInstruction_variantIs done
      exact ⟨value, bound⟩
  constructor
  · exact sound.inside
  · exact sound.known
  · intro facts atBlock source variant member
    obtain ⟨value, bound, holds, seen⟩ := sound.proven facts atBlock source variant member
    have survives := sound.not_redefined wellFormed here bound
      (.inl ⟨facts, variant, atBlock, member⟩)
    exact ⟨value, (unchanged source survives).trans bound, holds, kept _ _ _ seen⟩
  · intro id value bound
    cases before : config.frame.values id with
    | some old => exact sound.undisturbed id old before
    | none =>
      -- The id was just defined, and nothing could have read it before.
      have defines : instruction.target = some id := by
        by_contra other
        rw [unchanged id other, before] at bound
        cases bound
      refine ⟨config.block, config.position, ⟨sound.inside, instruction, here, defines⟩, ?_, ?_⟩
      · intro facts atBlock variant member
        obtain ⟨old, boundBefore, _⟩ := sound.proven facts atBlock id variant member
        rw [before] at boundBefore
        cases boundBefore
      · intro earlier notAfter target variant type test
        obtain ⟨old, boundBefore⟩ := testBound earlier notAfter _ _ _ _ test
        rw [before] at boundBefore
        cases boundBefore
  · intro earlier notAfter target source variant type test
    have beforeOrHere : earlier ≤ config.position := Nat.lt_succ_iff.mp notAfter
    obtain ⟨value, bound⟩ := testBound earlier beforeOrHere _ _ _ _ test
    have sourceSurvives := sound.not_redefined wellFormed here bound
      (.inr ⟨earlier, beforeOrHere, target, variant, type, test⟩)
    have boundAfter := (unchanged source sourceSurvives).trans bound
    rcases Nat.lt_or_eq_of_le beforeOrHere with strictly | rfl
    · obtain ⟨value', answer, bound', holds, result, seen⟩ :=
        sound.answered earlier strictly _ _ _ _ test
      obtain rfl := some.inj (bound.symm.trans bound')
      have targetSurvives : instruction.target ≠ some target := by
        intro redefines
        have same := DefinedAt.unique wellFormed
          ⟨sound.inside, instruction, here, redefines⟩ ⟨sound.inside, _, test, rfl⟩
        exact absurd same.2 (Nat.ne_of_gt strictly)
      exact ⟨value, answer, boundAfter, holds, (unchanged target targetSurvives).trans result,
        fun yes => kept _ _ _ (seen yes)⟩
    · obtain rfl := some.inj (here.symm.trans test)
      obtain ⟨value', answer, bound', holds, rfl⟩ := executeInstruction_variantIs done
      obtain rfl := some.inj (bound.symm.trans bound')
      refine ⟨value, answer, boundAfter, holds, update_self .., ?_⟩
      rintro rfl
      exact noted _ _ _ _ _ rfl bound (update_self ..)

theorem Sound.enter (proven : ProvenVariants blocks tests incoming)
    (sound : Sound blocks incoming observed config)
    {facts candidate : Finset VariantProof} {target : BlockId}
    (atBlock : incoming config.block.id = some facts)
    (edge : (target, candidate) ∈ edgeFacts tests config.block facts)
    (justified : ∀ source variant, (source, variant) ∈ candidate →
      ∃ value, config.frame.values source = some value ∧
        variantIs value variant = .ok true ∧ observed source variant value)
    (kept : ∀ source variant value, observed source variant value → observed' source variant value)
    (entered : enterBlock blocks target config.frame config.store = .running config') :
    Sound blocks incoming observed' config' := by
  unfold enterBlock at entered
  split at entered
  · rename_i block found
    cases entered
    obtain ⟨member, rfl⟩ := findBlock_some found
    obtain ⟨keptFacts, atTarget, fewer⟩ :=
      proven.respected config.block sound.inside facts atBlock _ edge
    constructor
    · exact member
    · exact ⟨keptFacts, atTarget⟩
    · intro facts' atTarget' source variant inFacts
      obtain rfl := some.inj (atTarget.symm.trans atTarget')
      obtain ⟨value, bound, holds, seen⟩ := justified source variant (fewer inFacts)
      exact ⟨value, bound, holds, kept _ _ _ seen⟩
    · exact sound.undisturbed
    · intro earlier before
      exact absurd before (Nat.not_lt_zero _)
  · cases entered

theorem Sound.branch_justified (machine : Machine σ) (wellFormed : WellFormed blocks)
    (proven : ProvenVariants blocks tests incoming) (sound : Sound blocks incoming observed config)
    (finished : config.block.instructions.length ≤ config.position)
    {facts : Finset VariantProof} (atBlock : incoming config.block.id = some facts)
    {condition : ValueId} {thenBlock elseBlock : BlockId}
    (ends : config.block.terminator = .branch condition thenBlock elseBlock)
    (bound : config.frame.values condition = some value) {taken : BlockId}
    (direction : taken = if machine.runtime.host.truthy value then thenBlock else elseBlock) :
    ∃ candidate, (taken, candidate) ∈ edgeFacts tests config.block facts ∧
      ∀ source variant, (source, variant) ∈ candidate →
        ∃ value, config.frame.values source = some value ∧
          variantIs value variant = .ok true ∧ observed source variant value := by
  have unchanged := sound.proven facts atBlock
  have plain : ∀ test, tests condition = some test → test.block ≠ config.block.id →
      (taken, facts) ∈ edgeFacts tests config.block facts := by
    intro test found elsewhere
    rw [direction]
    simp only [edgeFacts, ends, found, if_neg elsewhere]
    split <;> simp
  cases found : tests condition with
  | none =>
    refine ⟨facts, ?_, unchanged⟩
    rw [direction]
    simp only [edgeFacts, ends, found]
    split <;> simp
  | some test =>
    by_cases here : test.block = config.block.id
    · by_cases yes : machine.runtime.host.truthy value
      · rw [if_pos yes] at direction
        subst direction
        refine ⟨insert (test.source, test.variant) facts, ?_, ?_⟩
        · simp [edgeFacts, ends, found, here]
        · intro source variant member
          rcases Finset.mem_insert.mp member with same | old
          · cases same
            obtain ⟨block, inside, sameId, type, stands⟩ := variantTests_stands proven.tested found
            obtain rfl := wellFormed.block_unique inside sound.inside (sameId.trans here)
            obtain ⟨position, test⟩ := List.mem_iff_getElem?.mp stands
            have within : position < config.position :=
              Nat.lt_of_lt_of_le (List.getElem?_eq_some_iff.mp test).1 finished
            obtain ⟨tested, answer, sourceBound, holds, result, seen⟩ :=
              sound.answered position within _ _ _ _ test
            obtain rfl := some.inj (bound.symm.trans result)
            have positive : answer = true := by simpa [Host.truthy] using yes
            subst positive
            exact ⟨tested, sourceBound, holds, seen rfl⟩
          · exact unchanged source variant old
      · rw [if_neg yes] at direction
        subst direction
        exact ⟨facts, by simp [edgeFacts, ends, found, here], unchanged⟩
    · exact ⟨facts, plain test found here, unchanged⟩

/-- **One terminator keeps the invariant.** -/
theorem Sound.terminator (wellFormed : WellFormed blocks)
    (proven : ProvenVariants blocks tests incoming) (sound : Sound blocks incoming observed config)
    (finished : config.block.instructions.length ≤ config.position)
    (kept : ∀ source variant value, observed source variant value → observed' source variant value)
    (followed : followTerminator machine blocks config.frame config.store
      config.block.terminator = .running config') :
    Sound blocks incoming observed' config' := by
  obtain ⟨facts, atBlock⟩ := sound.known
  cases ends : config.block.terminator with
  | ret value =>
    rw [ends] at followed
    cases value with
    | none => cases followed
    | some id =>
      cases bound : config.frame.values id <;> simp [followTerminator, bound] at followed
  | jump target =>
    rw [ends] at followed
    have edge : (target, facts) ∈ edgeFacts tests config.block facts := by
      simp [edgeFacts, ends]
    exact sound.enter proven atBlock edge (sound.proven facts atBlock) kept followed
  | branch condition thenBlock elseBlock =>
    rw [ends] at followed
    cases bound : config.frame.values condition with
    | none => simp [followTerminator, bound] at followed
    | some value =>
      obtain ⟨candidate, edge, justified⟩ :=
        sound.branch_justified machine wellFormed proven finished atBlock ends bound rfl
      refine sound.enter proven atBlock edge justified kept ?_
      cases value <;> simp_all [followTerminator]
  | unreachable reason =>
    rw [ends] at followed
    cases followed

/-- The invariant holds at every point of a run from block 0 with no values. -/
theorem sound_of_trace (wellFormed : WellFormed blocks)
    (proven : ProvenVariants blocks tests incoming) (empty : ∀ id, frame.values id = none) :
    ∀ (n : Nat) (config : Config σ),
      trace machine call moduleKey blocks frame store n = .running config → Sound blocks incoming
          (ObservedTrue machine call moduleKey blocks frame store n) config := by
  intro n
  induction n with
  | zero =>
    intro config reached
    simp only [trace, enterBlock] at reached
    split at reached
    · rename_i block found
      cases reached
      obtain ⟨member, zero⟩ := findBlock_some found
      have atEntry : incoming block.id = some ∅ := zero ▸ proven.entry
      refine ⟨member, ⟨∅, atEntry⟩, ?_, ?_, ?_⟩
      · intro facts atBlock source variant inFacts
        obtain rfl := some.inj (atEntry.symm.trans atBlock)
        exact absurd inFacts (Finset.notMem_empty _)
      · intro id value bound
        rw [show frame.values id = none from empty id] at bound
        cases bound
      · intro earlier before
        exact absurd before (Nat.not_lt_zero _)
    · cases reached
  | succ n inductionHypothesis =>
    intro config' reached
    have whole := reached
    simp only [trace] at reached
    split at reached
    · rename_i config before
      have sound := inductionHypothesis config before
      have kept : ∀ source variant value,
          ObservedTrue machine call moduleKey blocks frame store n source variant value →
          ObservedTrue machine call moduleKey blocks frame store (n + 1) source variant
            value := by
        rintro source variant value ⟨m, earlier, target, type, within, rest⟩
        exact ⟨m, earlier, target, type, Nat.lt_succ_of_lt within, rest⟩
      unfold step at reached
      split at reached
      · rename_i instruction here
        split at reached
        · rename_i frame' store' done
          cases reached
          refine sound.instruction wellFormed here done kept ?_
          rintro target source variant type value rfl bound yes
          exact ⟨n, config, target, type, Nat.lt_succ_self n, before, here, bound, _, whole, yes⟩
        · cases reached
        · cases reached
      · rename_i ended
        exact sound.terminator wellFormed proven (List.getElem?_eq_none_iff.mp ended) kept reached
    · rename_i notRunning
      exact absurd reached (notRunning config')

end Invariant

/-! ## The result -/

theorem variantIs_true (holds : variantIs value variant = .ok true) :
    ∃ owner name payload arguments, splitCanonicalVariant variant = .ok (owner, name) ∧
      value = .enum owner name payload arguments := by
  unfold variantIs at holds
  split at holds
  · cases holds
  · rename_i owner name split
    cases value with
    | enum enumName variantName payload arguments =>
      simp only [ok.injEq, and_eq_true, beq_iff_eq] at holds
      obtain ⟨rfl, rfl⟩ := holds
      exact ⟨enumName, variantName, payload, arguments, split, rfl⟩
    | _ => cases holds

/-- What extraction does to a frame when the variant matches: it hands out the payload,
or fails because the variant carries none. -/
def extracted (frame : Frame) (target : ValueId) (store : Store σ) :
    Option Value → Outcome Fault (Store σ) Frame
  | some item => .ok (frame.set target item) store
  | none => .raise ⟨"KS5002", "Canonical MIR variant payload failed closed: " ++
      "canonical variant carries no payload"⟩ store

theorem executeInstruction_variantPayload {machine : Machine σ} {call : Caller σ}
    {moduleKey : String} {frame : Frame}
    {store : Store σ} {owner name : String} {payload : Option Value} {arguments : List String}
    (bound : frame.values source = some (.enum owner name payload arguments))
    (split : splitCanonicalVariant variant = .ok (owner, name)) :
    executeInstruction machine call moduleKey frame (.variantPayload target source variant type)
        store = extracted frame target store payload := by
  cases payload <;>
    simp [executeInstruction, Frame.assign, Frame.read, bound, variantPayload, variantIs, split,
      failClosed, extracted, andThen]

/-- **Payload safety of accepted blocks.** In every run from block 0 over accepted
blocks, a payload extraction that is reached finds at its source an enum value of exactly
the owner and variant it names, a test of that value was executed before with the answer
yes, and the extraction does not fail for a mismatch. -/
theorem variantPayload_safe (machine : Machine σ) (call : Caller σ) (moduleKey : String)
    (blocks : List BasicBlock) (accepted : validateBlocks blocks = .ok ())
    (parameters : List (String × TypeNode)) (arguments : List Value) (store : Store σ)
    (n : Nat) (config : Config σ)
    (reached : trace machine call moduleKey blocks (initialFrame parameters arguments) store n =
      .running config)
    (target source : ValueId) (variant : String) (type : TypeNode)
    (here : config.block.instructions[config.position]? =
      some (.variantPayload target source variant type)) :
    ∃ owner name payload typeArguments, splitCanonicalVariant variant = .ok (owner, name) ∧
      config.frame.values source = some (.enum owner name payload typeArguments) ∧
      ObservedTrue machine call moduleKey blocks (initialFrame parameters arguments) store n
        source variant (.enum owner name payload typeArguments) ∧
      executeInstruction machine call moduleKey config.frame
          (.variantPayload target source variant type) config.store =
        extracted config.frame target config.store payload := by
  obtain ⟨wellFormed, tests, incoming, proven⟩ := validateBlocks_accepts accepted
  have sound := sound_of_trace wellFormed proven (fun _ => rfl) n config reached
  obtain ⟨facts, atBlock⟩ := sound.known
  have covered := proven.covered config.block sound.inside target source variant type
    (mem_of_getElem? here)
  rw [atBlock, getD_some] at covered
  obtain ⟨value, bound, holds, seen⟩ := sound.proven facts atBlock source variant covered
  obtain ⟨owner, name, payload, typeArguments, split, rfl⟩ := variantIs_true holds
  exact ⟨owner, name, payload, typeArguments, split, bound, seen,
    executeInstruction_variantPayload bound split⟩

/-- Three blocks that build `Some(unit)`, test it and extract its payload. -/
def someBlocks : List BasicBlock :=
  [⟨0, [.unit 0 .void, .variantConstruct 1 "Option::Some" (some 0) (.generic "Option" [.void]),
      .variantIs 2 1 "Option::Some" .bool], .branch 2 1 2⟩,
    ⟨1, [.variantPayload 3 1 "Option::Some" .void], .ret (some 3)⟩,
    ⟨2, [], .ret none⟩]

theorem variantPayload_safe_some :
    ∃ config, trace ⟨plainRuntime, ⟨"", []⟩⟩ (fun _ _ _ => Comp.timeout) "" someBlocks
        (initialFrame [] []) ⟨[], [], 0⟩ 4 = .running config ∧
      ∃ owner name payload typeArguments, splitCanonicalVariant "Option::Some" = .ok (owner, name) ∧
        config.frame.values 1 = some (.enum owner name payload typeArguments) ∧
        ObservedTrue ⟨plainRuntime, ⟨"", []⟩⟩ (fun _ _ _ => Comp.timeout) "" someBlocks
          (initialFrame [] []) ⟨[], [], 0⟩ 4 1 "Option::Some"
          (.enum owner name payload typeArguments) ∧
        executeInstruction ⟨plainRuntime, ⟨"", []⟩⟩ (fun _ _ _ => Comp.timeout) "" config.frame
            (.variantPayload 3 1 "Option::Some" .void) config.store =
          extracted config.frame 3 config.store payload :=
  ⟨_, rfl, variantPayload_safe _ _ _ someBlocks (by decide +kernel) [] [] _ 4 _ rfl 3 1
    "Option::Some" .void rfl⟩

end Koschei.Mir
