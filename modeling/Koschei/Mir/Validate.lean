import Koschei.Lib.Dataflow
import Koschei.Mir.Instruction
import Mathlib.Data.Finset.Sort

/-!
# Validation of MIR blocks

`validateBlocks` is the acceptance check of a lowered function: block 0 comes
first, block ids are unique, every SSA id has one definition, every operand the
validator sees is defined somewhere in the function, every jump has a target,
and every payload extraction is proven on the paths that reach it.

The last part is `validateVariantProofs`. A fact `(source, Owner::Variant)` is
created on the true edge of a branch whose condition is a test of the same
block, is propagated along edges and intersected at joins. The iteration of the
source runs until nothing changes; here it is given a number of sweeps that is
proved to be enough (`solveProofs_ne_outOfFuel`).
-/

namespace Koschei.Mir

open Lib Lib.Dataflow

/-! ## Variant identities -/

/-- The texts before and after the first `::`. -/
def partitionColons : List Char → Option (List Char × List Char)
  | ':' :: ':' :: rest => some ([], rest)
  | c :: rest => (partitionColons rest).map fun parts => (c :: parts.1, parts.2)
  | [] => none

/-- The number of non-overlapping occurrences of `::`. -/
def countColons : List Char → Nat
  | ':' :: ':' :: rest => countColons rest + 1
  | _ :: rest => countColons rest
  | [] => 0

/-- `_canonical_variant_identity`: the text has the form `Owner::Variant`. -/
def canonicalVariantIdentity (value : String) : Bool := match partitionColons value.toList with
  | some (owner, variant) =>
    !owner.isEmpty && !variant.isEmpty && (partitionColons variant).isNone
  | none => false

/-- `split_canonical_variant_v1`. -/
def splitCanonicalVariant (canonicalVariant : String) : Except String (String × String) :=
  if canonicalVariant = "" then
    .error "canonical variant identity must be non-empty"
  else if countColons canonicalVariant.toList ≠ 1 then
    .error "canonical variant identity must be Owner::Variant"
  else
    match partitionColons canonicalVariant.toList with
    | some (owner, variant) =>
      if owner.isEmpty || variant.isEmpty then
        .error "canonical variant owner and name must be non-empty"
      else .ok (ofList owner, ofList variant)
    | none => .error "canonical variant identity must be Owner::Variant"

/-! ## Variant proofs -/

/-- A proven fact: the SSA value holds the variant. -/
abbrev VariantProof := ValueId × String

/-- Where a test stands, what it tests and for which variant. -/
structure VariantTest where
  block : BlockId
  source : ValueId
  variant : String
  deriving DecidableEq

/-- The variant identity an instruction carries. -/
def variantOf : Instruction → Option String
  | .variantConstruct _ variant _ _ | .variantIs _ _ variant _ | .variantPayload _ _ variant _ =>
    some variant
  | _ => none

/-- Record the test an instruction makes, if it makes one. -/
def recordTest (block : BlockId) (tests : ValueId → Option VariantTest) :
    Instruction → ValueId → Option VariantTest
  | .variantIs target source variant _ =>
    Function.update tests target (some ⟨block, source, variant⟩)
  | _ => tests

/-- `_variant_tests`: the tests of a function, by the SSA id of their result. -/
def variantTests (blocks : List BasicBlock) : Except String (ValueId → Option VariantTest) :=
  if blocks.all fun block => block.instructions.all fun instruction =>
      (variantOf instruction).all canonicalVariantIdentity then
    .ok (blocks.foldl (fun tests block =>
      block.instructions.foldl (recordTest block.id) tests) fun _ => none)
  else .error "MIR variant identity must be canonical Owner::Variant"

/-- The facts sent along the edges of a block that has `facts`. -/
def edgeFacts (tests : ValueId → Option VariantTest) (block : BasicBlock)
    (facts : Finset VariantProof) : List (BlockId × Finset VariantProof) :=
  match block.terminator with
  | .branch condition thenBlock elseBlock =>
    match tests condition with
    | some test =>
      if test.block = block.id then
        [(thenBlock, insert (test.source, test.variant) facts), (elseBlock, facts)]
      else [(thenBlock, facts), (elseBlock, facts)]
    | none => [(thenBlock, facts), (elseBlock, facts)]
  | .jump target => [(target, facts)]
  | .ret _ | .unreachable _ => []

/-- The graph the proofs are propagated over. -/
def proofGraph (tests : ValueId → Option VariantTest) (blocks : List BasicBlock) :
    Graph BasicBlock BlockId VariantProof where
  blocks := blocks
  node := BasicBlock.id
  transfer := edgeFacts tests

/-- Every fact a test of these blocks can establish. -/
def provableFacts (blocks : List BasicBlock) : Finset VariantProof :=
  (blocks.flatMap fun block => block.instructions.filterMap fun instruction =>
    match instruction with
    | .variantIs _ source variant _ => some (source, variant)
    | _ => none).toFinset

/-- The propagation starts with no facts at block 0 and nothing elsewhere. -/
def initialProofs : Incoming BlockId VariantProof := fun id => if id = 0 then some ∅ else none

/-- The fixed point of the propagation. -/
def solveProofs (tests : ValueId → Option VariantTest) (blocks : List BasicBlock) :
    Except (Failure BlockId) (Incoming BlockId VariantProof) :=
  solve (proofGraph tests blocks)
    (blocks.length * ((provableFacts blocks).card + 1) + 1) initialProofs

/-- The payload extractions whose fact is not known at the entry of their block. -/
def unprovenPayloads (incoming : Incoming BlockId VariantProof) (blocks : List BasicBlock) :
    List VariantProof :=
  blocks.flatMap fun block => block.instructions.filterMap fun instruction =>
    match instruction with
    | .variantPayload _ source variant _ =>
      if (source, variant) ∈ (incoming block.id).getD ∅ then none else some (source, variant)
    | _ => none

/-- `validate_variant_proofs_v1`. Membership in the instruction registry holds by
the type of instructions. -/
def validateVariantProofs (blocks : List BasicBlock) : Except String Unit :=
  if blocks.isEmpty || !blocks.any (fun block => block.id == 0) then
    .error "MIR variant proof validation requires block 0"
  else
    match variantTests blocks with
    | .error message => .error message
    | .ok tests =>
      match solveProofs tests blocks with
      | .error (.unknownTarget target) =>
        .error ("MIR variant proof edge targets unknown block " ++ toString target)
      | .error .outOfFuel => .error "MIR variant proof propagation did not settle"
      | .ok incoming =>
        match unprovenPayloads incoming blocks with
        | [] => .ok ()
        | (source, variant) :: _ =>
          .error ("MIR variant payload lacks exact proven predecessor path: %" ++
            toString source ++ " " ++ variant)

/-! ## The blocks themselves -/

/-- The single fields `validate_blocks` looks into. -/
def operandFieldNames : List String :=
  ["source", "operand", "left", "right", "object", "callee", "iterable", "iterator"]

/-- The tuple fields `validate_blocks` looks into. -/
def operandTupleNames : List String := ["arguments", "items"]

/-- The operands `validate_blocks` sees. -/
def seenOperands (instruction : Instruction) : List ValueId :=
  (instruction.ssaFields.filter fun field => operandFieldNames.contains field.1).map snd ++
    ((instruction.tupleFields.filter fun field =>
      operandTupleNames.contains field.1).map snd).flatten

/-- What the scan has collected so far. -/
structure Scan where
  definitions : Finset ValueId
  uses : Finset ValueId

/-- Collect the definition and the uses of one instruction. -/
def scanInstruction (scan : Scan) (instruction : Instruction) : Except String Scan :=
  match instruction.target with
  | some target =>
    if target ∈ scan.definitions then
      .error ("MIR value %" ++ toString target ++ " is defined more than once")
    else
      .ok ⟨insert target scan.definitions, scan.uses ∪ (seenOperands instruction).toFinset⟩
  | none => .ok ⟨scan.definitions, scan.uses ∪ (seenOperands instruction).toFinset⟩

/-- Collect the uses of a terminator and check where it goes. -/
def scanTerminator (ids : List BlockId) (scan : Scan) (terminator : Terminator) :
    Except String Scan :=
  match terminator with
  | .jump target =>
    if target ∈ ids then .ok scan
    else .error ("MIR jump targets unknown block " ++ toString target)
  | .branch condition thenBlock elseBlock =>
    if thenBlock ∈ ids ∧ elseBlock ∈ ids then
      .ok ⟨scan.definitions, insert condition scan.uses⟩
    else .error "MIR branch targets an unknown block"
  | .ret (some value) => .ok ⟨scan.definitions, insert value scan.uses⟩
  | .ret none | .unreachable _ => .ok scan

def scanBlock (ids : List BlockId) (scan : Scan) (block : BasicBlock) : Except String Scan :=
  match block.instructions.foldlM scanInstruction scan with
  | .error message => .error message
  | .ok scan' => scanTerminator ids scan' block.terminator

/-- `validate_blocks`. -/
def validateBlocks (blocks : List BasicBlock) : Except String Unit := match blocks with
  | [] => .error "MIR function must start with basic block 0"
  | first :: _ =>
    if first.id ≠ 0 then .error "MIR function must start with basic block 0"
    else if ¬ (blocks.map BasicBlock.id).Nodup then .error "MIR basic block ids must be unique"
    else
      match blocks.foldlM (scanBlock (blocks.map BasicBlock.id)) ⟨∅, ∅⟩ with
      | .error message => .error message
      | .ok scan =>
        if scan.uses ⊆ scan.definitions then validateVariantProofs blocks
        else
          .error ("MIR uses undefined values: [" ++ ", ".intercalate
            (((scan.uses \ scan.definitions).sort (· ≤ ·)).map toString) ++ "]")

/-! ## What acceptance says -/

/-- The facts acceptance gives about variant proofs: an assignment of facts to
blocks that every edge respects, starts from nothing, and covers every payload
extraction. -/
structure ProvenVariants (blocks : List BasicBlock) (tests : ValueId → Option VariantTest)
    (incoming : Incoming BlockId VariantProof) : Prop where
  tested : variantTests blocks = .ok tests
  respected : Inductive (proofGraph tests blocks) incoming
  entry : incoming 0 = some ∅
  covered : ∀ block ∈ blocks, ∀ target source variant type,
    .variantPayload target source variant type ∈ block.instructions →
      (source, variant) ∈ (incoming block.id).getD ∅

/-- The facts acceptance gives about blocks and SSA ids. -/
structure WellFormed (blocks : List BasicBlock) : Prop where
  entry : ∃ first rest, blocks = first :: rest ∧ first.id = 0
  uniqueIds : (blocks.map BasicBlock.id).Nodup
  singleDefinition : (targets blocks).Nodup
  seenDefined : ∀ block ∈ blocks, ∀ instruction ∈ block.instructions,
    ∀ id ∈ seenOperands instruction, id ∈ targets blocks
  terminatorDefined : ∀ block ∈ blocks, ∀ id ∈ block.terminator.operands, id ∈ targets blocks

/-! ### The scan -/

/-- What a scan of some instructions adds to what was collected before. -/
structure Scanned (before after : Scan) (instructions : List Instruction) : Prop where
  fresh : ∀ id ∈ instructions.filterMap Instruction.target, id ∉ before.definitions
  nodup : (instructions.filterMap Instruction.target).Nodup
  definitions : ∀ id, id ∈ after.definitions ↔
    id ∈ before.definitions ∨ id ∈ instructions.filterMap Instruction.target
  uses : ∀ id, (id ∈ before.uses ∨ ∃ i ∈ instructions, id ∈ seenOperands i) → id ∈ after.uses

variable {before after : Scan}

theorem scanInstruction_scanned {instruction : Instruction}
    (done : scanInstruction before instruction = .ok after) :
    Scanned before after [instruction] := by
  unfold scanInstruction at done
  split at done
  · rename_i target known
    split at done
    · cases done
    · rename_i fresh
      cases done
      constructor
      · simpa [known] using fresh
      · simp [known]
      · intro id
        simp [known, or_comm]
      · intro id member
        simpa using member
  · rename_i none
    cases done
    constructor
    · simp [none]
    · simp [none]
    · simp [none]
    · intro id member
      simpa using member

theorem Scanned.append {middle : Scan} {first second : List Instruction}
    (one : Scanned before middle first) (two : Scanned middle after second) :
    Scanned before after (first ++ second) := by
  constructor
  · intro id member
    rw [List.filterMap_append, mem_append] at member
    rcases member with inFirst | inSecond
    · exact one.fresh id inFirst
    · intro old
      exact two.fresh id inSecond ((one.definitions id).mpr (.inl old))
  · rw [List.filterMap_append]
    refine List.Nodup.append one.nodup two.nodup ?_
    intro id inFirst inSecond
    exact two.fresh id inSecond ((one.definitions id).mpr (.inr inFirst))
  · intro id
    rw [two.definitions, one.definitions, List.filterMap_append, mem_append, or_assoc]
  · rintro id (old | ⟨i, member, operand⟩)
    · exact two.uses id (.inl (one.uses id (.inl old)))
    · rcases mem_append.mp member with inFirst | inSecond
      · exact two.uses id (.inl (one.uses id (.inr ⟨i, inFirst, operand⟩)))
      · exact two.uses id (.inr ⟨i, inSecond, operand⟩)

theorem scanned_nil (scan : Scan) : Scanned scan scan [] := by
  constructor <;> simp

theorem scanInstructions_scanned : ∀ (instructions : List Instruction) (before after : Scan),
    instructions.foldlM scanInstruction before = .ok after → Scanned before after instructions
  | [], before, after, done => by
    simp only [foldlM_nil, pure, Except.pure, ok.injEq] at done
    exact done ▸ scanned_nil before
  | instruction :: rest, before, after, done => by
    rw [foldlM_cons] at done
    obtain ⟨middle, one, done⟩ := bind_eq_ok done
    exact (scanInstruction_scanned one).append (scanInstructions_scanned rest middle after done)

variable {ids : List BlockId}

theorem scanTerminator_spec {terminator : Terminator}
    (done : scanTerminator ids before terminator = .ok after) :
    after.definitions = before.definitions ∧ before.uses ⊆ after.uses ∧
      ∀ id ∈ terminator.operands, id ∈ after.uses := by
  unfold scanTerminator at done
  split at done
  · split at done
    · cases done
      exact ⟨rfl, subset_rfl, by simp [Terminator.operands]⟩
    · cases done
  · split at done
    · cases done
      exact ⟨rfl, Finset.subset_insert _ _, by simp [Terminator.operands]⟩
    · cases done
  · cases done
    exact ⟨rfl, Finset.subset_insert _ _, by simp [Terminator.operands]⟩
  · cases done
    exact ⟨rfl, subset_rfl, by simp [Terminator.operands]⟩
  · cases done
    exact ⟨rfl, subset_rfl, by simp [Terminator.operands]⟩

/-- The instructions of some blocks, one block after the other. -/
def allInstructions (blocks : List BasicBlock) : List Instruction :=
  blocks.flatMap BasicBlock.instructions

theorem targets_eq (blocks : List BasicBlock) :
    targets blocks = (allInstructions blocks).filterMap Instruction.target := by
  simp [targets, allInstructions, List.filterMap_flatMap]

theorem scanBlocks_scanned :
    ∀ (blocks : List BasicBlock) (before after : Scan),
      blocks.foldlM (scanBlock ids) before = .ok after →
        Scanned before after (allInstructions blocks) ∧
          ∀ block ∈ blocks, ∀ id ∈ block.terminator.operands, id ∈ after.uses
  | [], before, after, done => by
    simp only [foldlM_nil, pure, Except.pure, ok.injEq] at done
    exact ⟨done ▸ scanned_nil before, by simp⟩
  | block :: rest, before, after, done => by
    rw [foldlM_cons] at done
    obtain ⟨middle, one, done⟩ := bind_eq_ok done
    obtain ⟨scannedRest, usedRest⟩ := scanBlocks_scanned rest middle after done
    unfold scanBlock at one
    split at one
    · cases one
    · rename_i inner scannedInner
      obtain ⟨sameDefinitions, moreUses, used⟩ := scanTerminator_spec one
      have here := scanInstructions_scanned _ _ _ scannedInner
      have whole : Scanned before middle block.instructions :=
        { fresh := here.fresh
          nodup := here.nodup
          definitions := fun id => by rw [sameDefinitions, here.definitions]
          uses := fun id member => moreUses (here.uses id member) }
      refine ⟨by simpa [allInstructions] using whole.append scannedRest, ?_⟩
      exact forall_mem_cons.mpr
        ⟨fun id operand => scannedRest.uses id (.inl (used id operand)), usedRest⟩

/-! ### The variant proofs -/

variable {id : ValueId} {test : VariantTest}

theorem recordTest_fold {block : BlockId} :
    ∀ (instructions : List Instruction) (tests : ValueId → Option VariantTest),
      instructions.foldl (recordTest block) tests id = some test →
        tests id = some test ∨ test.block = block ∧
          ∃ type, .variantIs id test.source test.variant type ∈ instructions
  | [], _, found => .inl found
  | instruction :: rest, tests, found => by
    rcases recordTest_fold rest _ found with before | ⟨same, type, member⟩
    · cases instruction with
      | variantIs target source variant type =>
        simp only [recordTest] at before
        by_cases here : id = target
        · subst here
          rw [update_self, some.injEq] at before
          subst before
          exact .inr ⟨rfl, type, mem_cons_self ..⟩
        · rw [update_of_ne here] at before
          exact .inl before
      | _ => exact .inl before
    · exact .inr ⟨same, type, mem_cons_of_mem _ member⟩

variable {blocks : List BasicBlock} {tests : ValueId → Option VariantTest}

section

variable (tested : variantTests blocks = .ok tests)

include tested

theorem variantTests_stands (found : tests id = some test) :
    ∃ block ∈ blocks, block.id = test.block ∧
      ∃ type, .variantIs id test.source test.variant type ∈ block.instructions := by
  have fold : ∀ (blocks : List BasicBlock) (tests : ValueId → Option VariantTest),
      blocks.foldl (fun tests block => block.instructions.foldl (recordTest block.id) tests)
        tests id = some test →
        tests id = some test ∨ ∃ block ∈ blocks, block.id = test.block ∧
          ∃ type, .variantIs id test.source test.variant type ∈ block.instructions := by
    intro blocks
    induction blocks with
    | nil => exact fun _ found => .inl found
    | cons block rest inductionHypothesis =>
      intro tests found
      rcases inductionHypothesis _ found with before | ⟨other, member, stands⟩
      · rcases recordTest_fold _ _ before with before | ⟨same, stands⟩
        · exact .inl before
        · exact .inr ⟨block, mem_cons_self .., same.symm, stands⟩
      · exact .inr ⟨other, mem_cons_of_mem _ member, stands⟩
  unfold variantTests at tested
  split at tested
  · cases tested
    rcases fold blocks _ found with before | stands
    · cases before
    · exact stands
  · cases tested

theorem edgeFacts_provable : Closed (proofGraph tests blocks) (provableFacts blocks) := by
  intro block facts within edge sent
  simp only [proofGraph, edgeFacts] at sent
  split at sent
  · rename_i condition thenBlock elseBlock _
    split at sent
    · rename_i test found
      have provable : (test.source, test.variant) ∈ provableFacts blocks := by
        obtain ⟨block, member, _, type, stands⟩ := variantTests_stands tested found
        exact List.mem_toFinset.mpr (mem_flatMap.mpr
          ⟨block, member, mem_filterMap.mpr ⟨_, stands, rfl⟩⟩)
      split at sent
      · rcases List.mem_pair.mp sent with rfl | rfl
        · exact Finset.insert_subset provable within
        · exact within
      · rcases List.mem_pair.mp sent with rfl | rfl <;> exact within
    · rcases List.mem_pair.mp sent with rfl | rfl <;> exact within
  · rw [mem_singleton.mp sent]
    exact within
  · cases sent
  · cases sent

/-- The sweeps given to the propagation are enough. -/
theorem solveProofs_ne_outOfFuel : solveProofs tests blocks ≠ .error .outOfFuel := by
  have within : Within (provableFacts blocks) initialProofs := by
    intro node facts known
    simp only [initialProofs] at known
    split at known
    · cases known
      exact Finset.empty_subset _
    · cases known
  refine solve_ne_outOfFuel (edgeFacts_provable tested) _ _ within ?_
  have bound : potential (proofGraph tests blocks).nodes (provableFacts blocks).card
      initialProofs ≤ _ := potential_le within
  simpa [Graph.nodes, proofGraph, Nat.lt_succ_iff] using bound

end

theorem solveProofs_entry
    {incoming : Incoming BlockId VariantProof} (solved : solveProofs tests blocks = .ok incoming) :
    incoming 0 = some ∅ := by
  refine solve_preserves (P := fun incoming => incoming 0 = some ∅) ?_ solved rfl
  intro current node candidate _ holds
  by_cases same : (0 : BlockId) = node
  · subst same
    simp [holds, merge]
  · rw [update_of_ne same]
    exact holds

theorem unprovenPayloads_eq_nil_iff {incoming : Incoming BlockId VariantProof} :
    unprovenPayloads incoming blocks = [] ↔
      ∀ block ∈ blocks, ∀ target source variant type,
        .variantPayload target source variant type ∈ block.instructions →
          (source, variant) ∈ (incoming block.id).getD ∅ := by
  simp only [unprovenPayloads, List.flatMap_eq_nil_iff, List.filterMap_eq_nil_iff]
  constructor
  · intro none block member target source variant type inside
    simpa using none block member _ inside
  · intro covered block member instruction inside
    cases instruction with
    | variantPayload target source variant type =>
      simpa using covered block member target source variant type inside
    | _ => rfl

theorem validateVariantProofs_ok : validateVariantProofs blocks = .ok () ↔
    0 ∈ blocks.map BasicBlock.id ∧ ∃ tests incoming, variantTests blocks = .ok tests ∧
      solveProofs tests blocks = .ok incoming ∧ unprovenPayloads incoming blocks = [] := by
  have first : (blocks.isEmpty || !blocks.any fun block => block.id == 0) = false ↔
      0 ∈ blocks.map BasicBlock.id := by
    cases blocks <;> simp [eq_comm (a := (0 : BlockId)), or_iff_not_imp_left]
  rw [← first]
  unfold validateVariantProofs
  cases blocks.isEmpty || !blocks.any fun block => block.id == 0 with
  | true => simp
  | false =>
    cases tested : variantTests blocks with
    | error message => simp
    | ok tests =>
      cases solved : solveProofs tests blocks with
      | error failure => cases failure <;> simp [solved]
      | ok incoming => cases none : unprovenPayloads incoming blocks <;> simp [solved, none]

theorem validateVariantProofs_proven (accepted : validateVariantProofs blocks = .ok ()) :
    ∃ tests incoming, ProvenVariants blocks tests incoming := by
  obtain ⟨-, tests, incoming, tested, solved, none⟩ := validateVariantProofs_ok.mp accepted
  exact ⟨tests, incoming, tested, solve_inductive _ _ _ solved, solveProofs_entry solved,
    unprovenPayloads_eq_nil_iff.mp none⟩

/-! ### Acceptance is exact -/

/-- The edges of a block, with the fact that is new on each. -/
def proofEdges (tests : ValueId → Option VariantTest) (block : BasicBlock) :
    List (BlockId × Finset VariantProof) :=
  match block.terminator with
  | .branch condition thenBlock elseBlock =>
    match tests condition with
    | some test =>
      [(thenBlock, if test.block = block.id then {(test.source, test.variant)} else ∅),
        (elseBlock, ∅)]
    | none => [(thenBlock, ∅), (elseBlock, ∅)]
  | .jump target => [(target, ∅)]
  | .ret _ | .unreachable _ => []

theorem edgeFacts_adds : Adds (proofGraph tests blocks) (proofEdges tests) := by
  intro block facts
  simp only [proofGraph, edgeFacts, proofEdges]
  cases block.terminator with
  | branch condition thenBlock elseBlock =>
    cases tested : tests condition with
    | none => simp [tested]
    | some test => by_cases here : test.block = block.id <;> simp [tested, here]
  | _ => simp

/-- A path from block 0 to a block, and the true edges of tests it takes. -/
abbrev PathProves (tests : ValueId → Option VariantTest) (blocks : List BasicBlock) :
    BlockId → Finset VariantProof → Prop :=
  Brings (proofGraph tests blocks) (proofEdges tests) initialProofs

/-- **What the validation accepts.** Blocks whose variant identities are canonical, whose paths
stay inside the function, and where each extraction stands in a block that is reached, by paths
each of which takes the true edge of a test of the same value for the same variant. -/
theorem validateVariantProofs_exact : validateVariantProofs blocks = .ok () ↔
    ∃ tests, variantTests blocks = .ok tests ∧
      (∀ id facts, PathProves tests blocks id facts → id ∈ blocks.map BasicBlock.id) ∧
      ∀ block ∈ blocks, ∀ target source variant type,
        .variantPayload target source variant type ∈ block.instructions →
          (∃ facts, PathProves tests blocks block.id facts) ∧
            ∀ facts, PathProves tests blocks block.id facts → (source, variant) ∈ facts := by
  have covered : ∀ {tests incoming}, solveProofs tests blocks = .ok incoming → ∀ id fact,
      fact ∈ (incoming id).getD ∅ ↔ (∃ facts, PathProves tests blocks id facts) ∧
        ∀ facts, PathProves tests blocks id facts → fact ∈ facts := by
    intro tests incoming solved id fact
    rw [← solve_exact edgeFacts_adds solved]
    cases incoming id <;> simp
  have settles : ∀ {tests}, variantTests blocks = .ok tests → 0 ∈ blocks.map BasicBlock.id →
      ((∃ incoming, solveProofs tests blocks = .ok incoming) ↔
        ∀ id facts, PathProves tests blocks id facts → id ∈ blocks.map BasicBlock.id) := by
    intro tests tested first
    refine solve_ok_iff edgeFacts_adds (fun id facts known => ?_) (solveProofs_ne_outOfFuel tested)
    simp only [initialProofs] at known
    split at known
    · rename_i zero
      exact zero ▸ first
    · cases known
  rw [validateVariantProofs_ok]
  constructor
  · rintro ⟨first, tests, incoming, tested, solved, none⟩
    refine ⟨tests, tested, (settles tested first).mp ⟨incoming, solved⟩, ?_⟩
    intro block member target source variant type inside
    rw [← covered solved]
    exact unprovenPayloads_eq_nil_iff.mp none block member target source variant type inside
  · rintro ⟨tests, tested, stays, proven⟩
    have first : 0 ∈ blocks.map BasicBlock.id := stays 0 ∅ (.start rfl)
    obtain ⟨incoming, solved⟩ := (settles tested first).mpr stays
    refine ⟨first, tests, incoming, tested, solved, unprovenPayloads_eq_nil_iff.mpr ?_⟩
    intro block member target source variant type inside
    rw [covered solved]
    exact proven block member target source variant type inside

/-- **What `validateBlocks` accepts.** -/
theorem validateBlocks_accepts (accepted : validateBlocks blocks = .ok ()) :
    WellFormed blocks ∧ ∃ tests incoming, ProvenVariants blocks tests incoming := by
  unfold validateBlocks at accepted
  split at accepted
  · cases accepted
  · rename_i first rest
    split at accepted
    · cases accepted
    · rename_i zero
      split at accepted
      · cases accepted
      · rename_i nodup
        split at accepted
        · cases accepted
        · rename_i scan scanned
          split at accepted
          · rename_i defined
            obtain ⟨collected, used⟩ := scanBlocks_scanned _ _ _ scanned
            have isTarget : ∀ id, id ∈ scan.uses → id ∈ targets (first :: rest) := by
              intro id member
              have := (collected.definitions id).mp (defined member)
              simpa [targets_eq] using this
            refine ⟨⟨⟨first, rest, rfl, not_not.mp zero⟩, not_not.mp nodup, ?_, ?_, ?_⟩,
              validateVariantProofs_proven accepted⟩
            · rw [targets_eq]
              exact collected.nodup
            · intro block member instruction inside id operand
              exact isTarget id (collected.uses id (.inr
                ⟨instruction, mem_flatMap.mpr ⟨block, member, inside⟩, operand⟩))
            · intro block member id operand
              exact isTarget id (used block member id operand)
          · cases accepted

/-! ## Operands the validator does not look at -/

/-- Every SSA id that an instruction or a terminator mentions is defined. -/
def OperandsDefined (blocks : List BasicBlock) : Prop :=
  (∀ block ∈ blocks, ∀ instruction ∈ block.instructions, ∀ id ∈ instruction.operands,
    id ∈ targets blocks) ∧
  ∀ block ∈ blocks, ∀ id ∈ block.terminator.operands, id ∈ targets blocks

/-- The operands in fields whose names the validator does not know: the key of a Map
read, write or membership test, and the item of a Map write. -/
def mapOperands : Instruction → List ValueId
  | .mapGet _ _ key _ | .mapContains _ _ key _ => [key]
  | .mapSet _ _ key value _ => [key, value]
  | _ => []

/-- The validator sees every operand but these. -/
theorem mem_operands_iff (instruction : Instruction) (id : ValueId) :
    id ∈ instruction.operands ↔ id ∈ seenOperands instruction ∨ id ∈ mapOperands instruction := by
  cases instruction with
  | variantConstruct target variant source type =>
    cases source <;> simp [Instruction.operands, seenOperands, mapOperands,
      Instruction.ssaFields, Instruction.tupleFields, operandFieldNames]
  | _ =>
    simp [Instruction.operands, seenOperands, mapOperands, Instruction.ssaFields,
      Instruction.tupleFields, operandFieldNames, operandTupleNames]

/-- **When accepted blocks define every operand.** Exactly when the Map operands the
validator does not look at are defined. -/
theorem operandsDefined_iff_mapOperands {blocks : List BasicBlock}
    (accepted : validateBlocks blocks = .ok ()) :
    OperandsDefined blocks ↔ ∀ block ∈ blocks, ∀ instruction ∈ block.instructions,
        ∀ id ∈ mapOperands instruction, id ∈ targets blocks := by
  obtain ⟨wellFormed, _⟩ := validateBlocks_accepts accepted
  constructor
  · rintro ⟨defined, _⟩ block member instruction inside id operand
    exact defined block member instruction inside id
      ((mem_operands_iff instruction id).mpr (.inr operand))
  · intro defined
    refine ⟨?_, wellFormed.terminatorDefined⟩
    intro block member instruction inside id operand
    rcases (mem_operands_iff instruction id).mp operand with seen | unseen
    · exact wellFormed.seenDefined block member instruction inside id seen
    · exact defined block member instruction inside id unseen

def mapReadBlock (key : ValueId) : List BasicBlock :=
  [⟨0, [.const 0 (.str "k") .string, .mapNew 1 .unknown, .mapFinish 2 1 .unknown,
      .mapGet 3 2 key .unknown], .ret (some 3)⟩]

theorem operandsDefined_mapRead : validateBlocks (mapReadBlock 0) = .ok () ∧
      (OperandsDefined (mapReadBlock 0) ↔
        ∀ block ∈ mapReadBlock 0, ∀ instruction ∈ block.instructions,
          ∀ id ∈ mapOperands instruction, id ∈ targets (mapReadBlock 0)) :=
  ⟨by decide +kernel, operandsDefined_iff_mapOperands (by decide +kernel)⟩

/-- A key operand that nothing defines is accepted. -/
theorem mapRead_undefined_key :
    validateBlocks (mapReadBlock 7) = .ok () ∧ ¬ OperandsDefined (mapReadBlock 7) := by
  refine ⟨by decide +kernel, ?_⟩
  rintro ⟨defined, _⟩
  have found := defined _ (mem_singleton.mpr rfl) (.mapGet 3 2 7 .unknown) (by simp) 7
    (by simp [Instruction.operands, Instruction.ssaFields, Instruction.tupleFields])
  simp [targets, mapReadBlock, Instruction.target] at found

end Koschei.Mir
