import Koschei.Lowering.Layout

/-!
# Edges between lowered blocks

Where control can come from. An action of the lowerer leads only to the blocks it
makes itself, and to the targets of the loop around it. A block that was reserved
before the action, and one that is made after it, is therefore entered from the
same blocks as before: the action spares it. `Spares` says so of an action, given a
condition on the blocks it is handed; the rules follow the lowering monad, and every
form of the language is an instance.
-/

namespace Koschei.Lowering

open Lib Ast Mir

variable {α β : Type}

/-- The blocks a terminator may go to. -/
def successors : Terminator → List BlockId
  | .ret _ => []
  | .jump target => [target]
  | .branch _ thenBlock elseBlock => [thenBlock, elseBlock]
  | .unreachable _ => []

/-- A block leads to another by its terminator. -/
def Draft.LeadsTo (draft : Draft) (block : Nat) : Prop :=
  ∃ t, draft.terminator = some t ∧ (block : Int) ∈ successors t

variable {block : Nat}

theorem not_leadsTo_of_open {draft : Draft} (isOpen : draft.terminator = none) :
    ¬draft.LeadsTo block := by
  rintro ⟨t, closed, -⟩
  rw [isOpen] at closed
  cases closed

variable {t : Terminator}

@[simp] theorem leadsTo_closed {instructions : List Instruction} :
    (⟨instructions, some t⟩ : Draft).LeadsTo block ↔ (block : Int) ∈ successors t := by
  simp [Draft.LeadsTo]

variable {L M N : Lowerer}

theorem Lowerer.open_of_free (free : L.terminated = false) :
    (L.blocks L.current).terminator = none := by
  simpa [Lowerer.terminated] using free

/-! ## Spared blocks -/

/-- What every action keeps: blocks are not taken back, and the loops around it stay. -/
structure Grown (L L' : Lowerer) : Prop where
  blocks : L.nextBlock ≤ L'.nextBlock
  loops : L'.loopTargets = L.loopTargets

/-- A block that an action has nothing to do with: it is made before or after, and is no
target of a loop around the action. -/
structure Apart (j : Nat) (L L' : Lowerer) : Prop where
  made : j < L.nextBlock ∨ L'.nextBlock ≤ j
  loops : ∀ target ∈ L.loopTargets, target.1 ≠ j ∧ target.2 ≠ j

/-- The block is entered from where it was entered before, and is not written to unless the
action starts in it. -/
structure Spared (j : Nat) (L L' : Lowerer) : Prop where
  enters : ∀ b, (L'.blocks b).LeadsTo j → L'.blocks b = L.blocks b
  block : L.current ≠ j → L'.blocks j = L.blocks j
  current : L.current ≠ j → L'.current ≠ j

/-- The action spares the block, if a condition on what it is handed holds. -/
def Spares (j : Nat) (held : Prop) (action : Lower α) : Prop :=
  ∀ L a L', action L = .ok a L' → Grown L L' ∧ (held → Apart j L L' → Spared j L L')

theorem Grown.refl (L : Lowerer) : Grown L L := ⟨le_rfl, rfl⟩

theorem Grown.trans (first : Grown L M) (second : Grown M N) : Grown L N :=
  ⟨first.blocks.trans second.blocks, second.loops.trans first.loops⟩

theorem Spared.refl (j : Nat) (L : Lowerer) : Spared j L L :=
  ⟨fun _ _ => rfl, fun _ => rfl, fun other => other⟩

variable {j : Nat}

theorem Spared.trans (first : Spared j L M) (second : Spared j M N) : Spared j L N where
  enters b leads := by
    have same := second.enters b leads
    rw [same] at leads ⊢
    exact first.enters b leads
  block other := (second.block (first.current other)).trans (first.block other)
  current other := second.current (first.current other)

theorem Apart.first (apart : Apart j L N) (second : Grown M N) : Apart j L M :=
  ⟨apart.made.imp_right second.blocks.trans, apart.loops⟩

theorem Apart.second (apart : Apart j L N) (first : Grown L M) : Apart j M N :=
  ⟨apart.made.imp_left fun made => made.trans_le first.blocks, first.loops ▸ apart.loops⟩

theorem Spared.congr (blocks : M.blocks = L.blocks)
    (current : L.current ≠ j → M.current ≠ j) : Spared j L M where
  enters _ _ := by rw [blocks]
  block _ := by rw [blocks]
  current := current

theorem Spared.push (free : L.terminated = false) (i : Instruction) : Spared j L (L.push i) where
  enters b leads := by
    refine L.push_blocks_of_ne i ?_
    rintro rfl
    refine not_leadsTo_of_open ?_ leads
    rw [Lowerer.push_blocks_self]
    exact Lowerer.open_of_free free
  block other := L.push_blocks_of_ne i other.symm
  current other := other

theorem Spared.close (leaves : (j : Int) ∉ successors t) : Spared j L (L.close t) where
  enters b leads := by
    refine L.close_blocks_of_ne t ?_
    rintro rfl
    obtain ⟨t', closed, inside⟩ := leads
    rw [Lowerer.close_blocks_self] at closed
    cases closed
    exact leaves inside
  block other := L.close_blocks_of_ne t other.symm
  current other := other

theorem Spared.grow (other : L.nextBlock ≠ j) : Spared j L L.grow where
  enters b leads := by
    refine L.grow_blocks_of_ne ?_
    rintro rfl
    refine not_leadsTo_of_open ?_ leads
    rw [Lowerer.grow_blocks_self]
  block _ := L.grow_blocks_of_ne other.symm
  current other := other

/-! ## Rules for the lowering monad -/

namespace Spares

variable {j : Nat} {held : Prop}

theorem weaken {held' : Prop} {action : Lower α} (spares : Spares j held' action)
    (implied : held → held') : Spares j held action := by
  intro L a L' done
  obtain ⟨grown, spared⟩ := spares L a L' done
  exact ⟨grown, fun holds apart => spared (implied holds) apart⟩

theorem under {action : Lower α} (spares : Spares j True action) : Spares j held action :=
  spares.weaken fun _ => trivial

theorem pure (a : α) : Spares j held (pure a : Lower α) := by
  intro L b L' done
  obtain ⟨-, rfl⟩ := pure_ok.mp done
  exact ⟨.refl _, fun _ _ => .refl _ _⟩

theorem reject (message : String) : Spares j held (Lowering.reject message : Lower α) := by
  intro L b L' done
  cases done

theorem bind {x : Lower α} {f : α → Lower β} (first : Spares j held x)
    (rest : ∀ a, Spares j held (f a)) : Spares j held (x >>= f) := by
  intro L b N done
  obtain ⟨a, M, begun, done⟩ := bind_ok.mp done
  obtain ⟨grown, spared⟩ := first L a M begun
  obtain ⟨grown', spared'⟩ := rest a M b N done
  exact ⟨grown.trans grown', fun holds apart =>
    (spared holds (apart.first grown')).trans (spared' holds (apart.second grown))⟩

/-- A new block is none that is made before or after the action. -/
theorem newBlock {f : Nat → Lower β} (rest : ∀ block, Spares j (held ∧ block ≠ j) (f block)) :
    Spares j held (newBlock >>= f) := by
  intro L b N done
  obtain ⟨_, _, made, done⟩ := bind_ok.mp done
  obtain ⟨rfl, rfl⟩ := newBlock_ok.mp made
  obtain ⟨grown, spared⟩ := rest _ _ b N done
  have grew : Grown L L.grow := ⟨by simp, rfl⟩
  refine ⟨grew.trans grown, fun holds apart => ?_⟩
  have other : L.nextBlock ≠ j := by
    have := grown.blocks
    have := apart.made
    rw [Lowerer.grow_nextBlock] at *
    omega
  exact (Spared.grow other).trans (spared ⟨holds, other⟩ (apart.second grew))

theorem withState {f : Lowerer → Lower α} (each : ∀ L, Spares j held (f L)) :
    Spares j held (withState f) := fun L a L' done => each L L a L' done

/-- A change of the state that concerns neither blocks nor loops. -/
theorem modify {f : Lowerer → Lowerer} (blocks : ∀ L, (f L).blocks = L.blocks)
    (nextBlock : ∀ L, (f L).nextBlock = L.nextBlock) (current : ∀ L, (f L).current = L.current)
    (loops : ∀ L, (f L).loopTargets = L.loopTargets) :
    Spares j held (Comp.modify f : Lower Unit) := by
  intro L u L' done
  obtain rfl := modify_ok.mp done
  exact ⟨⟨(nextBlock L).ge, loops L⟩, fun _ _ => .congr (blocks L) (by rw [current L]; exact id)⟩

theorem newValue : Spares j held newValue := by
  intro L id L' done
  obtain ⟨-, rfl⟩ := newValue_ok.mp done
  exact ⟨⟨le_rfl, rfl⟩, fun _ _ => .congr rfl fun other => other⟩

theorem setCurrent (other : held → block ≠ j) : Spares j held (setCurrent block) := by
  intro L u L' done
  obtain rfl := setCurrent_ok.mp done
  exact ⟨⟨le_rfl, rfl⟩, fun holds _ => .congr rfl fun _ => other holds⟩

theorem emit (i : Instruction) : Spares j held (emit i) := by
  intro L u L' done
  obtain ⟨free, rfl⟩ := emit_ok.mp done
  exact ⟨⟨le_rfl, rfl⟩, fun _ _ => .push free i⟩

theorem emitValue (i : ValueId → Instruction) : Spares j held (emitValue i) :=
  .bind .newValue fun _ => .bind (.emit _) fun _ => .pure _

theorem terminate (leaves : held → (j : Int) ∉ successors t) : Spares j held (terminate t) := by
  intro L u L' done
  obtain ⟨-, rfl⟩ := terminate_ok.mp done
  exact ⟨⟨le_rfl, rfl⟩, fun holds _ => .close (leaves holds)⟩

theorem jumpTo (other : held → block ≠ j) : Spares j held (jumpTo block) :=
  .terminate fun holds inside => other holds (by
    simp only [successors, mem_singleton] at inside
    omega)

theorem branchTo {id : ValueId} {thenBlock elseBlock : Nat}
    (others : held → thenBlock ≠ j ∧ elseBlock ≠ j) :
    Spares j held (branchTo id thenBlock elseBlock) := by
  refine .terminate fun holds inside => ?_
  obtain ⟨other, other'⟩ := others holds
  simp only [successors, mem_cons, not_mem_nil, or_false] at inside
  omega

theorem takeName (candidate : Nat → String) : Spares j held (takeName candidate) := by
  intro L name L' done
  obtain ⟨-, -, number, rfl⟩ := takeName_ok done
  exact ⟨⟨le_rfl, rfl⟩, fun _ _ => .congr rfl id⟩

theorem newInternalName (purpose : String) : Spares j held (newInternalName purpose) := .takeName _

theorem newBindingName (name : String) : Spares j held (newBindingName name) := by
  intro L internal L' done
  obtain ⟨-, -, number, rfl⟩ := newBindingName_ok done
  exact ⟨⟨le_rfl, rfl⟩, fun _ _ => .congr rfl id⟩

variable {action : Lower Unit}

theorem unlessTerminated (spares : Spares j held action) :
    Spares j held (unlessTerminated action) := by
  refine .withState fun L => ?_
  split
  · exact .pure _
  · exact spares

theorem tailUnlessTerminated {action : Lower (Option ValueId)} (spares : Spares j held action) :
    Spares j held (tailUnlessTerminated action) := by
  refine .withState fun L => ?_
  split
  · exact .pure _
  · exact spares

theorem inScope {body : Lower α} (spares : Spares j held body) : Spares j held (inScope body) :=
  .bind (.modify (fun _ => rfl) (fun _ => rfl) (fun _ => rfl) fun _ => rfl) fun _ =>
    .bind spares fun _ =>
      .bind (.modify (fun _ => rfl) (fun _ => rfl) (fun _ => rfl) fun _ => rfl) fun _ => .pure _

theorem inLoop {breakTarget continueTarget : Nat} {body : Lower α}
    (others : held → breakTarget ≠ j ∧ continueTarget ≠ j) (spares : Spares j held body) :
    Spares j held (inLoop breakTarget continueTarget body) := by
  intro L a L' done
  obtain ⟨N, ran, rfl⟩ := inLoop_ok.mp done
  obtain ⟨grown, spared⟩ := spares _ _ _ ran
  refine ⟨⟨grown.blocks, by simp [grown.loops]⟩, fun holds apart => ?_⟩
  obtain ⟨enters, block, current⟩ := spared holds ⟨apart.made, by
    intro target inside
    rcases mem_cons.mp inside with rfl | inside
    · exact others holds
    · exact apart.loops target inside⟩
  exact ⟨enters, block, current⟩

/-! ## The forms -/

variable {value condition left right object callee : Lower ValueId}
  {arguments : Lower (List ValueId)} {body other : Lower (Option ValueId)}

theorem ident (host : Host) (name : String) (type : TypeNode) :
    Spares j held (lowerIdent host name type) := by
  unfold lowerIdent
  split
  · exact .emitValue _
  · exact .withState fun _ => .emitValue _

variable {join : Nat}

theorem storeErrorOrContinue (id : ValueId) (resultName : String) (type : TypeNode)
    (joins : held → join ≠ j) : Spares j held (storeErrorOrContinue id resultName type join) := by
  refine .bind (.emitValue _) fun isError => .newBlock fun errorBlock => .newBlock fun next => ?_
  refine .bind (.branchTo (by tauto)) fun _ => .bind (.setCurrent (by tauto)) fun _ => ?_
  exact .bind (.emit _) fun _ => .bind (.jumpTo (by tauto)) fun _ => .setCurrent (by tauto)

theorem bindAndJoin (resultName : String) (result : Option ValueId) (type : TypeNode)
    (joins : held → join ≠ j) : Spares j held (bindAndJoin resultName result type join) := by
  cases result with
  | none => exact .pure _
  | some id => exact .unlessTerminated (.bind (.emit _) fun _ => .jumpTo joins)

theorem shortCircuit (conjunction : Bool) (first : Spares j True left)
    (second : Spares j True right) (type : TypeNode) :
    Spares j held (lowerShortCircuit conjunction left right type) := by
  refine .bind first.under fun leftValue => .bind (.newInternalName _) fun name => ?_
  refine .bind (.emit _) fun _ => .bind (.emitValue _) fun isError => ?_
  refine .newBlock fun decision => .newBlock fun rhs => .newBlock fun skip => ?_
  refine .newBlock fun join => .bind (.branchTo (by tauto)) fun _ => ?_
  refine .bind (.setCurrent (by tauto)) fun _ => .bind (.branchTo ?_) fun _ => ?_
  · cases conjunction <;> tauto
  refine .bind (.setCurrent (by tauto)) fun _ => .bind second.under fun rightValue => ?_
  refine .bind (.emit _) fun _ => .bind (.jumpTo (by tauto)) fun _ => ?_
  refine .bind (.setCurrent (by tauto)) fun _ => .bind (.jumpTo (by tauto)) fun _ => ?_
  exact .bind (.setCurrent (by tauto)) fun _ => .emitValue _

theorem builder (purpose : String) (start : ValueId → Instruction)
    (finish : ValueId → ValueId → Instruction) {parts : ValueId → String → Nat → Lower Unit}
    (each : ∀ id name join, Spares j (join ≠ j) (parts id name join)) (type : TypeNode) :
    Spares j held (lowerBuilder purpose start finish parts type) := by
  refine .bind (.emitValue _) fun id => .bind (.newInternalName _) fun name => ?_
  refine .bind (.emit _) fun _ => .newBlock fun join => ?_
  refine .bind ((each id name join).weaken (by tauto)) fun _ => .bind (.emitValue _) fun _ => ?_
  refine .bind (.emit _) fun _ => .bind (.jumpTo (by tauto)) fun _ => ?_
  exact .bind (.setCurrent (by tauto)) fun _ => .emitValue _

theorem apply (first : Spares j True callee) (second : Spares j True arguments)
    (instruction : ValueId → List ValueId → ValueId → Instruction) :
    Spares j held (do
      let function ← callee
      let values ← arguments
      Lowering.emitValue (instruction function values)) :=
  .bind first.under fun _ => .bind second.under fun _ => .emitValue _

theorem constructorArity (name : String) (count : Nat) :
    Spares j held (constructorArity name count) := by
  unfold Lowering.constructorArity
  split <;> split
  all_goals first | exact .pure _ | exact .reject _

theorem construct (host : Host) (name : String) (calleeType : TypeNode) (count : Nat)
    (spares : Spares j True arguments) (type : TypeNode) :
    Spares j held (lowerConstruct host name calleeType count arguments type) := by
  refine .bind (.constructorArity name count) fun _ => .bind spares.under fun sources => ?_
  split
  · exact .emitValue _
  · exact .apply (.ident host name calleeType) spares _

theorem mapMethod (first : Spares j True object) (second : Spares j True arguments)
    (method : String) (type : TypeNode) :
    Spares j held (lowerMapMethod object arguments method type) := by
  refine .bind first.under fun receiver => .bind second.under fun values => ?_
  refine .bind .newValue fun target => ?_
  split
  · exact .bind (.emit _) fun _ => .pure _
  · exact .reject _

theorem assign (name : String) (spares : Spares j True value) (type : TypeNode) :
    Spares j held (lowerAssign name value type) :=
  .bind spares.under fun _ => .withState fun _ => .bind (.emit _) fun _ => .pure _

theorem assignField (host : Host) (object : String) (objectType : TypeNode) (field : String)
    (spares : Spares j True value) (type : TypeNode) :
    Spares j held (lowerAssignField host object objectType field value type) :=
  .bind (.ident host object objectType) fun _ => .bind spares.under fun _ => .emitValue _

/-- The three blocks of a fallible value are new. -/
theorem fallible (spares : Spares j True value) {f : ValueId × Nat × Nat × Nat → Lower β}
    (rest : ∀ id success failure join, Spares j (((held ∧ success ≠ j) ∧ failure ≠ j) ∧ join ≠ j)
        (f (id, success, failure, join))) :
    Spares j held (lowerFallible value >>= f) := by
  simp only [lowerFallible, Comp.bind_assoc, Comp.pure_bind]
  refine .bind spares.under fun id => .bind (.emitValue _) fun test => ?_
  refine .newBlock fun success => .newBlock fun failure => .newBlock fun join => ?_
  exact .bind (.branchTo (by tauto)) fun _ => rest id success failure join

theorem orReturn {error : Option (Lower ValueId)} (first : Spares j True value)
    (second : ∀ action ∈ error, Spares j True action) (type : TypeNode) :
    Spares j held (lowerOrReturn value error type) := by
  refine .fallible first fun id success failure join => ?_
  refine .bind (.setCurrent (by tauto)) fun _ => .bind ?_ fun failed => ?_
  · cases error with
    | none => exact .pure _
    | some action => exact (second action rfl).under
  refine .bind (.terminate fun _ => by simp [successors]) fun _ => ?_
  refine .bind (.setCurrent (by tauto)) fun _ => .bind (.emitValue _) fun payload => ?_
  exact .bind (.jumpTo (by tauto)) fun _ => .bind (.setCurrent (by tauto)) fun _ => .pure _

theorem orElse (purpose : String) (first : Spares j True value) (second : Spares j True other)
    (type : TypeNode) : Spares j held (lowerOrElse purpose value other type) := by
  refine .fallible first fun id success failure join => ?_
  refine .bind (.newInternalName _) fun name => .bind (.setCurrent (by tauto)) fun _ => ?_
  refine .bind (.emitValue _) fun payload => .bind (.emit _) fun _ => ?_
  refine .bind (.jumpTo (by tauto)) fun _ => .bind (.setCurrent (by tauto)) fun _ => ?_
  refine .bind second.under fun replacement => .bind (.bindAndJoin _ _ _ (by tauto)) fun _ => ?_
  exact .bind (.setCurrent (by tauto)) fun _ => .emitValue _

theorem payload (scrutinee : ValueId) (canonical : String) (binding : Option (String × TypeNode)) :
    Spares j held (lowerPayload scrutinee canonical binding) := by
  cases binding with
  | none => exact .pure _
  | some entry =>
    exact .bind (.emitValue _) fun _ => .bind (.newBindingName _) fun _ => .emit _

theorem arm (scrutinee : ValueId) (resultName : String) (type : TypeNode)
    (joins : held → join ≠ j) (canonical : String) (binding : Option (String × TypeNode))
    (spares : Spares j True body) :
    Spares j held (lowerArm scrutinee resultName type join canonical binding body) := by
  refine .bind (.emitValue _) fun test => .newBlock fun armBlock => .newBlock fun miss => ?_
  refine .bind (.branchTo (by tauto)) fun _ => .bind (.setCurrent (by tauto)) fun _ => ?_
  refine .bind (.inScope ?_) fun _ => .setCurrent (by tauto)
  refine .bind (.payload scrutinee canonical binding) fun _ => .bind spares.under fun result => ?_
  refine .withState fun L => ?_
  split
  · exact .reject _
  · exact .bindAndJoin _ _ _ (by tauto)

theorem matchOn {arms : ValueId → String → Nat → Lower Unit} (first : Spares j True value)
    (each : ∀ id name join, Spares j (join ≠ j) (arms id name join)) (type : TypeNode) :
    Spares j held (lowerMatch value arms type) := by
  refine .bind first.under fun scrutinee => .bind (.newInternalName _) fun name => ?_
  refine .newBlock fun join => .bind ((each _ name join).weaken (by tauto)) fun _ => ?_
  refine .bind (.terminate fun _ => by simp [successors]) fun _ => ?_
  exact .bind (.setCurrent (by tauto)) fun _ => .emitValue _

theorem letIn (name : String) (isMutable : Bool) (spares : Spares j True value)
    (type : TypeNode) : Spares j held (lowerLet name isMutable value type) :=
  .bind spares.under fun _ => .bind (.newBindingName _) fun _ => .emit _

theorem ret {result : Option (Lower ValueId)} (each : ∀ action ∈ result, Spares j True action) :
    Spares j held (lowerReturn result) := by
  cases result with
  | none => exact .terminate fun _ => by simp [successors]
  | some action =>
    exact .bind (each action rfl).under fun _ => .terminate fun _ => by simp [successors]

/-- A `break` or a `continue` leads to a target of the loop around it. -/
theorem leaveLoop (kind : String) {target : Nat × Nat → Nat}
    (isTarget : ∀ pair, target pair ≠ pair.1 → target pair = pair.2) :
    Spares j held (Lowering.leaveLoop kind target) := by
  intro L u L' done
  simp only [Lowering.leaveLoop, withState_apply] at done
  cases known : L.loopTargets with
  | nil =>
    rw [known] at done
    exact Spares.emit _ L u L' done
  | cons pair rest =>
    rw [known] at done
    obtain ⟨-, rfl⟩ := terminate_ok.mp done
    refine ⟨⟨le_rfl, rfl⟩, fun _ apart => .close fun inside => ?_⟩
    obtain ⟨first, second⟩ := apart.loops pair (by simp [known])
    simp only [successors, mem_singleton] at inside
    have := isTarget pair
    omega

theorem breakLoop : Spares j held lowerBreak :=
  lowerBreak_eq ▸ .leaveLoop _ fun _ other => absurd rfl other

theorem continueLoop : Spares j held lowerContinue := lowerContinue_eq ▸ .leaveLoop _ fun _ _ => rfl

theorem ifThen {thenBlock elseBranch : Lower Unit} (first : Spares j True condition)
    (second : Spares j True thenBlock) (third : Spares j True elseBranch) :
    Spares j held (lowerIf condition thenBlock elseBranch) := by
  refine .bind first.under fun id => .bind (.emitValue _) fun isError => ?_
  refine .newBlock fun errorBlock => .newBlock fun decision => .newBlock fun thenTarget => ?_
  refine .newBlock fun elseTarget => .newBlock fun join => ?_
  refine .bind (.branchTo (by tauto)) fun _ => .bind (.setCurrent (by tauto)) fun _ => ?_
  refine .bind (.jumpTo (by tauto)) fun _ => .bind (.setCurrent (by tauto)) fun _ => ?_
  refine .bind (.branchTo (by tauto)) fun _ => .bind (.setCurrent (by tauto)) fun _ => ?_
  refine .bind second.under fun _ => .bind (.unlessTerminated (.jumpTo (by tauto))) fun _ => ?_
  refine .bind (.setCurrent (by tauto)) fun _ => .bind third.under fun _ => ?_
  exact .bind (.unlessTerminated (.jumpTo (by tauto))) fun _ => .setCurrent (by tauto)

theorem valueIf {thenBlock elseBranch : Lower (Option ValueId)} (first : Spares j True condition)
    (second : Spares j True thenBlock) (third : Spares j True elseBranch) (type : TypeNode) :
    Spares j held (lowerValueIf condition thenBlock elseBranch type) := by
  refine .bind first.under fun id => .bind (.emitValue _) fun isError => ?_
  refine .newBlock fun errorBlock => .newBlock fun decision => .newBlock fun thenTarget => ?_
  refine .newBlock fun elseTarget => .newBlock fun join => .bind (.newInternalName _) fun _ => ?_
  refine .bind (.branchTo (by tauto)) fun _ => .bind (.setCurrent (by tauto)) fun _ => ?_
  refine .bind (.emit _) fun _ => .bind (.jumpTo (by tauto)) fun _ => ?_
  refine .bind (.setCurrent (by tauto)) fun _ => .bind (.branchTo (by tauto)) fun _ => ?_
  refine .bind (.setCurrent (by tauto)) fun _ => .bind second.under fun thenValue => ?_
  refine .bind (.bindAndJoin _ _ _ (by tauto)) fun _ => .bind (.setCurrent (by tauto)) fun _ => ?_
  refine .bind third.under fun elseValue => .bind (.bindAndJoin _ _ _ (by tauto)) fun _ => ?_
  exact .bind (.setCurrent (by tauto)) fun _ => .emitValue _

section

variable (result : Option (String × TypeNode))

theorem keepResult (id : ValueId) : Spares j held (keepResult result id) := by
  cases result with
  | none => exact .pure _
  | some entry => exact .emit _

theorem turn (bodyValue : Option ValueId)
    {exit again : Nat} (others : held → exit ≠ j ∧ again ≠ j) :
    Spares j held (lowerTurn result bodyValue exit again) := by
  cases bodyValue with
  | none => exact .pure _
  | some id =>
    refine .unlessTerminated (.bind (.keepResult _ _) fun _ => ?_)
    refine .bind (.emitValue _) fun isError => .newBlock fun errorBlock => ?_
    refine .newBlock fun next => .bind (.branchTo (by tauto)) fun _ => ?_
    refine .bind (.setCurrent (by tauto)) fun _ => .bind (.jumpTo (by tauto)) fun _ => ?_
    exact .bind (.setCurrent (by tauto)) fun _ => .jumpTo (by tauto)

theorem whileDo (first : Spares j True condition)
    (second : Spares j True body) : Spares j held (lowerWhile result condition body) := by
  refine .newBlock fun again => .newBlock fun errorBlock => .newBlock fun decision => ?_
  refine .newBlock fun bodyBlock => .newBlock fun exit => .bind (.jumpTo (by tauto)) fun _ => ?_
  refine .bind (.setCurrent (by tauto)) fun _ => .bind first.under fun id => ?_
  refine .bind (.emitValue _) fun isError => .bind (.branchTo (by tauto)) fun _ => ?_
  refine .bind (.setCurrent (by tauto)) fun _ => .bind (.keepResult _ _) fun _ => ?_
  refine .bind (.jumpTo (by tauto)) fun _ => .bind (.setCurrent (by tauto)) fun _ => ?_
  refine .bind (.branchTo (by tauto)) fun _ => .bind (.setCurrent (by tauto)) fun _ => ?_
  refine .bind (.inLoop (by tauto) second.under) fun bodyValue => ?_
  exact .bind (.turn _ _ (by tauto)) fun _ => .setCurrent (by tauto)

theorem forIn (name : String) (itemType : TypeNode)
    (first : Spares j True value) (second : Spares j True body) :
    Spares j held (lowerFor result name itemType value body) := by
  refine .bind first.under fun id => .bind (.emitValue _) fun isError => ?_
  refine .newBlock fun errorBlock => .newBlock fun start => .newBlock fun again => ?_
  refine .newBlock fun bodyBlock => .newBlock fun exit => .bind (.branchTo (by tauto)) fun _ => ?_
  refine .bind (.setCurrent (by tauto)) fun _ => .bind (.keepResult _ _) fun _ => ?_
  refine .bind (.jumpTo (by tauto)) fun _ => .bind (.setCurrent (by tauto)) fun _ => ?_
  refine .bind (.emitValue _) fun iterator => .bind (.jumpTo (by tauto)) fun _ => ?_
  refine .bind (.setCurrent (by tauto)) fun _ => .bind (.emitValue _) fun hasNext => ?_
  refine .bind (.branchTo (by tauto)) fun _ => .bind (.setCurrent (by tauto)) fun _ => ?_
  refine .bind (.inScope (.inLoop (by tauto) ?_)) fun bodyValue => ?_
  · exact .bind (.emitValue _) fun item => .bind (.newBindingName _) fun _ =>
      .bind (.emit _) fun _ => second.under
  · exact .bind (.turn _ _ (by tauto)) fun _ => .setCurrent (by tauto)

end

theorem valueLoop (purpose : String) (type : TypeNode)
    {loop : Option (String × TypeNode) → Lower Unit} (each : ∀ result, Spares j True (loop result)) :
    Spares j held (lowerValueLoop purpose type loop) := by
  refine .bind (.emitValue _) fun initial => .bind (.newInternalName _) fun name => ?_
  exact .bind (.emit _) fun _ => .bind (each _).under fun _ => .emitValue _

theorem present (spares : Spares j True value) : Spares j held (present value) :=
  .bind spares.under fun _ => .pure _

theorem absent (spares : Spares j True action) : Spares j held (absent action) :=
  .bind spares.under fun _ => .pure _

end Spares

/-! ## Along the syntax -/

section Syntax

variable (host : Host) (j : Nat)

mutual
theorem sparesExpr : (e : Expr) → Spares j True (lowerExpr host e)
  | .literal _ _ => by
    simp only [lowerExpr]
    exact .emitValue _
  | .ident name type => by
    simp only [lowerExpr]
    exact .ident host name type
  | .interpolated parts _ => by
    simp only [lowerExpr]
    exact .bind (sparesAll parts) fun _ => .emitValue _
  | .list items type => by
    simp only [lowerExpr]
    cases type.listItem with
    | none => exact .emitValue _
    | some _ => exact .bind (sparesAll items) fun _ => .emitValue _
  | .map entries type => by
    simp only [lowerExpr]
    exact .builder _ _ _ (fun id name join => sparesEntries id name type join entries) type
  | .struct typeName fields required type => by
    simp only [lowerExpr]
    exact .builder _ _ _ (fun id name join => sparesFields id name type join fields) type
  | .member object name type => by
    simp only [lowerExpr]
    exact .bind (sparesExpr object) fun _ => .emitValue _
  | .call callee arguments resolution type => by
    have values := sparesAll arguments
    have plain := sparesExpr callee
    cases callee with
    | ident name calleeType =>
      simp only [lowerExpr]
      split
      · exact .construct host name calleeType arguments.length values type
      · exact .apply (.ident host name calleeType) values _
    | member object name memberType =>
      have receiver := sparesExpr object
      simp only [lowerExpr]
      cases resolution with
      | plain => exact .apply (.bind receiver fun _ => .emitValue _) values _
      | capability capabilityType method canonicalEffect powerDomain =>
        exact .apply receiver values _
      | mapMethod method => exact .mapMethod receiver values method type
    | _ =>
      rw [lowerExpr]
      · exact .apply plain values _
      all_goals nofun
  | .assign name value type => by
    simp only [lowerExpr]
    exact .assign name (sparesExpr value) type
  | .assignField object objectType field value type => by
    simp only [lowerExpr]
    exact .assignField host object objectType field (sparesExpr value) type
  | .binary left operator right type => by
    have first := sparesExpr left
    have second := sparesExpr right
    simp only [lowerExpr]
    cases operator with
    | and => exact .shortCircuit true first second type
    | or => exact .shortCircuit false first second type
    | _ => exact .bind first fun _ => .bind second fun _ => .emitValue _
  | .unary operator operand type => by
    simp only [lowerExpr]
    exact .bind (sparesExpr operand) fun _ => .emitValue _
  | .orReturn value none type => by
    simp only [lowerExpr]
    exact .orReturn (sparesExpr value) (by simp) type
  | .orReturn value (some error) type => by
    have second := sparesExpr error
    simp only [lowerExpr]
    refine .orReturn (sparesExpr value) ?_ type
    rintro _ ⟨rfl⟩
    exact second
  | .orElse value other type => by
    simp only [lowerExpr]
    exact .orElse _ (sparesExpr value) (.present (sparesExpr other)) type
  | .orBlock value handler type => by
    simp only [lowerExpr]
    exact .orElse _ (sparesExpr value) (.inScope (sparesTail handler (some type))) type
  | .matchOn value arms exhaustive type => by
    have first := sparesExpr value
    have each (id : ValueId) (name : String) (join : Nat) := sparesArms id name type join arms
    simp only [lowerExpr]
    split
    · exact .reject _
    · split
      · exact .reject _
      · exact .matchOn first each type

theorem sparesAll : (es : List Expr) → Spares j True (lowerAll host es)
  | [] => by
    simp only [lowerAll]
    exact .pure _
  | e :: rest => by
    simp only [lowerAll]
    exact .bind (sparesExpr e) fun _ => .bind (sparesAll rest) fun _ => .pure _

theorem sparesEntries (builder : ValueId) (resultName : String) (type : TypeNode)
    (join : Nat) : (entries : List (Expr × Expr)) →
    Spares j (join ≠ j) (lowerEntries host builder resultName type join entries)
  | [] => by
    simp only [lowerEntries]
    exact .pure _
  | (key, value) :: rest => by
    have first := sparesExpr key
    have second := sparesExpr value
    simp only [lowerEntries]
    refine .bind ?_ fun _ => sparesEntries builder resultName type join rest
    refine .bind first.under fun _ => .bind (.storeErrorOrContinue _ _ _ id) fun _ => ?_
    exact .bind second.under fun _ => .bind (.storeErrorOrContinue _ _ _ id) fun _ => .emit _

theorem sparesFields (builder : ValueId) (resultName : String) (type : TypeNode)
    (join : Nat) : (fields : List (String × Expr)) →
    Spares j (join ≠ j) (lowerFields host builder resultName type join fields)
  | [] => by
    simp only [lowerFields]
    exact .pure _
  | (field, value) :: rest => by
    have first := sparesExpr value
    simp only [lowerFields]
    refine .bind ?_ fun _ => sparesFields builder resultName type join rest
    exact .bind first.under fun _ => .bind (.storeErrorOrContinue _ _ _ id) fun _ => .emit _

theorem sparesArms (scrutinee : ValueId) (resultName : String) (type : TypeNode)
    (join : Nat) : (arms : List Arm) →
    Spares j (join ≠ j) (lowerArms host scrutinee resultName type join arms)
  | [] => by
    simp only [lowerArms]
    exact .pure _
  | .expression _ canonical binding body :: rest => by
    simp only [lowerArms]
    exact .bind (.arm _ _ _ id canonical binding (.present (sparesExpr body))) fun _ =>
      sparesArms scrutinee resultName type join rest
  | .block _ canonical binding body :: rest => by
    simp only [lowerArms]
    exact .bind (.arm _ _ _ id canonical binding (.inScope (sparesTail body (some type))))
      fun _ => sparesArms scrutinee resultName type join rest

theorem sparesStmt : (s : Stmt) → Spares j True (lowerStmt host s)
  | .letIn name isMutable value => by
    simp only [lowerStmt]
    exact .letIn name isMutable (sparesExpr value) _
  | .expression e => by
    simp only [lowerStmt]
    exact .bind (sparesExpr e) fun _ => .pure _
  | .ret none => by
    simp only [lowerStmt]
    exact .ret (by simp)
  | .ret (some value) => by
    have first := sparesExpr value
    simp only [lowerStmt]
    refine .ret ?_
    rintro _ ⟨rfl⟩
    exact first
  | .ifThen statement => by
    simp only [lowerStmt]
    exact sparesIf statement
  | .whileDo condition body bodyType => by
    simp only [lowerStmt]
    exact .whileDo none (sparesExpr condition) (.inScope (sparesTail body bodyType))
  | .forIn name iterable body bodyType => by
    have first := sparesExpr iterable
    have second := sparesTail body bodyType
    simp only [lowerStmt]
    cases iterable.type.iterableItem with
    | none => exact .emit _
    | some itemType => exact .forIn none name itemType first (.inScope second)
  | .breakLoop => by
    simp only [lowerStmt]
    exact .breakLoop
  | .continueLoop => by
    simp only [lowerStmt]
    exact .continueLoop

theorem sparesIf : (s : IfStmt) → Spares j True (lowerIfStmt host s)
  | .mk condition thenBlock elseBranch => by
    simp only [lowerIfStmt]
    exact .ifThen (sparesExpr condition) (.inScope (sparesStmts thenBlock)) (sparesElse elseBranch)

theorem sparesElse : (s : Else) → Spares j True (lowerElse host s)
  | .nothing => by
    simp only [lowerElse]
    exact .pure _
  | .block statements => by
    simp only [lowerElse]
    exact .inScope (sparesStmts statements)
  | .elseIf statement => by
    simp only [lowerElse]
    exact sparesIf statement

theorem sparesValueIf : (s : IfStmt) → (type : TypeNode) →
    Spares j True (lowerValueIfStmt host s type)
  | .mk condition thenBlock elseBranch, type => by
    simp only [lowerValueIfStmt]
    exact .valueIf (sparesExpr condition) (.inScope (sparesTail thenBlock (some type)))
      (sparesValueElse elseBranch type) type

theorem sparesValueElse : (s : Else) → (type : TypeNode) →
    Spares j True (lowerValueElse host s type)
  | .nothing, type => by
    simp only [lowerValueElse]
    exact .present (.emitValue _)
  | .block statements, type => by
    simp only [lowerValueElse]
    exact .inScope (sparesTail statements (some type))
  | .elseIf statement, type => by
    simp only [lowerValueElse]
    exact .present (sparesValueIf statement type)

theorem sparesStmts : (ss : List Stmt) → Spares j True (lowerStmts host ss)
  | [] => by
    simp only [lowerStmts]
    exact .pure _
  | s :: rest => by
    simp only [lowerStmts]
    exact .unlessTerminated (.bind (sparesStmt s) fun _ => sparesStmts rest)

theorem sparesTail : (ss : List Stmt) → (resultType : Option TypeNode) →
    Spares j True (lowerTail host ss resultType)
  | [], _ => by
    simp only [lowerTail]
    exact .present (.emitValue _)
  | [s], resultType => by
    simp only [lowerTail]
    exact .tailUnlessTerminated (sparesTailStmt s resultType)
  | s :: next :: rest, resultType => by
    simp only [lowerTail]
    exact .tailUnlessTerminated (.bind (sparesStmt s) fun _ =>
      sparesTail (next :: rest) resultType)

theorem sparesTailStmt : (s : Stmt) → (resultType : Option TypeNode) →
    Spares j True (lowerTailStmt host s resultType)
  | .expression e, _ => by
    simp only [lowerTailStmt]
    exact .present (sparesExpr e)
  | .letIn name isMutable value, _ => by
    simp only [lowerTailStmt]
    exact .bind (.letIn name isMutable (sparesExpr value) _) fun _ => .present (.emitValue _)
  | .ret none, _ => by
    simp only [lowerTailStmt]
    exact .absent (.ret (by simp))
  | .ret (some value), _ => by
    have first := sparesExpr value
    simp only [lowerTailStmt]
    refine .absent (.ret ?_)
    rintro _ ⟨rfl⟩
    exact first
  | .breakLoop, _ => by
    simp only [lowerTailStmt]
    exact .absent .breakLoop
  | .continueLoop, _ => by
    simp only [lowerTailStmt]
    exact .absent .continueLoop
  | .ifThen statement, some type => by
    simp only [lowerTailStmt]
    exact .present (sparesValueIf statement type)
  | .ifThen _, none => by
    simp only [lowerTailStmt]
    exact .reject _
  | .whileDo condition body bodyType, some type => by
    have first := sparesExpr condition
    have second := sparesTail body bodyType
    simp only [lowerTailStmt]
    exact .present (.valueLoop _ type fun result => .whileDo result first (.inScope second))
  | .whileDo _ _ _, none => by
    simp only [lowerTailStmt]
    exact .reject _
  | .forIn name iterable body bodyType, some type => by
    have first := sparesExpr iterable
    have second := sparesTail body bodyType
    simp only [lowerTailStmt]
    cases iterable.type.iterableItem with
    | none => exact .reject _
    | some itemType =>
      exact .present (.valueLoop _ type fun result =>
        .forIn result name itemType first (.inScope second))
  | .forIn _ _ _ _, none => by
    simp only [lowerTailStmt]
    exact .reject _
end

end Syntax

end Koschei.Lowering
