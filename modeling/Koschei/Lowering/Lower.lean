import Koschei.Ast.Evaluate

/-!
# Lowering to MIR

The canonical lowering of a checked function: `_CanonicalFunctionLowererV1` over
`_OrReturnFunctionLowerer` over `_FunctionLowerer`. The lowerer keeps the blocks
it has made, the one it emits into, counters for SSA values and generated names,
the names in use, the scopes that map source names to binding names, and the
targets of the enclosing loops.

A statement is lowered for its effect, or, at the end of a block whose value is
consumed, for its value. The value-position forms of `if`, `while` and `for` keep
the value in a binding of their own that no source name can reach.

Every kind of statement is admitted as a value block, so the fallback the source
has for other kinds has no counterpart here. The search for an unused name is
given as many tries as there are names in use and one more.
-/

namespace Koschei.Lowering

open Lib Ast Mir

variable {α : Type}

/-! ## The lowerer -/

/-- A block under construction. -/
structure Draft where
  instructions : List Instruction
  terminator : Option Terminator
  deriving Inhabited

/-- The state of the lowerer. The blocks made so far are those below `nextBlock`. -/
structure Lowerer where
  blocks : Nat → Draft
  current : Nat
  nextBlock : Nat
  nextValue : Nat
  nextBinding : Nat
  used : List String
  scopes : List (List (String × String))
  loopTargets : List (Nat × Nat)

namespace Lowerer

variable (lowerer : Lowerer)

def terminated : Bool := (lowerer.blocks lowerer.current).terminator.isSome

/-- The lowerer after `_new_value`. -/
@[simps blocks current nextBlock nextValue used scopes loopTargets]
def bump : Lowerer := { lowerer with nextValue := lowerer.nextValue + 1 }

/-- The lowerer after `_new_block`. -/
@[simps current nextBlock nextValue used scopes loopTargets]
def grow : Lowerer := { lowerer with
  blocks := Function.update lowerer.blocks lowerer.nextBlock ⟨[], none⟩
  nextBlock := lowerer.nextBlock + 1 }

/-- The lowerer after `self.current = block`. -/
@[simps blocks current nextBlock nextValue used scopes loopTargets]
def goto (block : Nat) : Lowerer := { lowerer with current := block }

/-- The lowerer after an instruction is appended to the current block. -/
@[simps current nextBlock nextValue used scopes loopTargets]
def push (instruction : Instruction) : Lowerer := { lowerer with
  blocks := Function.update lowerer.blocks lowerer.current
    { lowerer.blocks lowerer.current with
      instructions := (lowerer.blocks lowerer.current).instructions ++ [instruction] } }

/-- The lowerer after the current block is terminated. -/
@[simps current nextBlock nextValue used scopes loopTargets]
def close (terminator : Terminator) : Lowerer := { lowerer with
  blocks := Function.update lowerer.blocks lowerer.current
    { lowerer.blocks lowerer.current with terminator := some terminator } }

end Lowerer

/-- A lowering action, which may stop with an error. -/
abbrev Lower (α : Type) := Comp String Lowerer α

/-- `_new_value`. -/
def newValue : Lower ValueId := fun lowerer => .ok (lowerer.nextValue : Int) lowerer.bump

/-- `_new_block`. -/
def newBlock : Lower Nat := fun lowerer => .ok lowerer.nextBlock lowerer.grow

/-- `self.current = block`. -/
def setCurrent (block : Nat) : Lower Unit := fun lowerer => .ok () (lowerer.goto block)

/-- `_emit`. -/
def emit (instruction : Instruction) : Lower Unit := fun lowerer =>
  if lowerer.terminated then
    .raise ("cannot emit into terminated MIR block " ++ toString lowerer.current) lowerer
  else .ok () (lowerer.push instruction)

/-- `_terminate`. -/
def terminate (terminator : Terminator) : Lower Unit := fun lowerer =>
  if lowerer.terminated then
    .raise ("MIR block " ++ toString lowerer.current ++ " already has a terminator") lowerer
  else .ok () (lowerer.close terminator)

/-- Put the result of an instruction at a new SSA value. -/
def emitValue (instruction : ValueId → Instruction) : Lower ValueId := do
  let target ← newValue
  emit (instruction target)
  pure target

/-- The first unused name of a numbered family, with the number after its own. -/
def searchName (used : List String) (candidate : Nat → String) : Nat → Nat → Option (String × Nat)
  | 0, _ => none
  | tries + 1, number =>
    if candidate number ∈ used then searchName used candidate tries (number + 1)
    else some (candidate number, number + 1)

/-- Take the first unused name of a numbered family. -/
def takeName (candidate : Nat → String) : Lower String := fun lowerer =>
  match searchName lowerer.used candidate (lowerer.used.length + 1) lowerer.nextBinding with
  | some (name, number) =>
    .ok name { lowerer with nextBinding := number, used := name :: lowerer.used }
  | none => .timeout

/-- The name under which a source name is renamed the `number`-th time. -/
def renamed (sourceName : String) (number : Nat) : String := sourceName ++ "$mir" ++ toString number

/-- A name no source name can be. -/
def internalName (purpose : String) (number : Nat) : String :=
  "$mir_" ++ purpose ++ "_" ++ toString number

/-- `_new_binding_name` without the scope: the source name if it is unused. -/
def takeBindingName (sourceName : String) : Lower String := withState fun lowerer =>
    if sourceName ∈ lowerer.used then takeName (renamed sourceName)
    else do
      Comp.modify fun lowerer => { lowerer with used := sourceName :: lowerer.used }
      pure sourceName

/-- Add a name to the innermost scope. -/
def bindSource (sourceName internal : String) :
    List (List (String × String)) → List (List (String × String))
  | scope :: scopes => ((sourceName, internal) :: scope) :: scopes
  | [] => [[(sourceName, internal)]]

/-- `_new_binding_name`. -/
def newBindingName (sourceName : String) : Lower String := do
  let internal ← takeBindingName sourceName
  Comp.modify fun lowerer =>
    { lowerer with scopes := bindSource sourceName internal lowerer.scopes }
  pure internal

/-- `_new_internal_binding_name`. -/
def newInternalName (purpose : String) : Lower String := takeName (internalName purpose)

/-- `_resolve_binding_name`, or the name itself. -/
def bindingName (lowerer : Lowerer) (sourceName : String) : String :=
  (lowerer.scopes.flatten.lookup sourceName).getD sourceName

def inScope (body : Lower α) : Lower α := do
  Comp.modify fun lowerer => { lowerer with scopes := [] :: lowerer.scopes }
  let result ← body
  Comp.modify fun lowerer => { lowerer with scopes := lowerer.scopes.tail }
  pure result

def inLoop (breakTarget continueTarget : Nat) (body : Lower α) : Lower α := do
  Comp.modify fun lowerer =>
    { lowerer with loopTargets := (breakTarget, continueTarget) :: lowerer.loopTargets }
  let result ← body
  Comp.modify fun lowerer => { lowerer with loopTargets := lowerer.loopTargets.tail }
  pure result

/-- Do something unless the current block is terminated. -/
def unlessTerminated (action : Lower Unit) : Lower Unit :=
  withState fun lowerer => if lowerer.terminated then pure () else action

/-- Stop with an error. -/
def reject (message : String) : Lower α := raise message

/-! ## Pieces the forms share -/

/-- `_emit_unit`. -/
def emitUnit : Lower ValueId := emitValue fun target => .unit target .void

/-- Jump to a block, and go on in another. -/
def jumpTo (target : Nat) : Lower Unit := terminate (.jump target)

def branchTo (condition : ValueId) (thenBlock elseBlock : Nat) : Lower Unit :=
  terminate (.branch condition thenBlock elseBlock)

/-- Fall back to the source tree, which no executor runs. -/
def fallback (nodeKind : String) (type : TypeNode) : Lower ValueId :=
  emitValue fun target => .astFallback (some target) nodeKind type

/-- The identity under which an identifier or a call of one constructs a variant. -/
def constructs (host : Host) (name : String) (type : TypeNode) : Option String :=
  if variantName host name then constructIdentity type name else none

def lowerIdent (host : Host) (name : String) (type : TypeNode) : Lower ValueId :=
  match constructs host name type with
  | some canonical => emitValue fun target => .variantConstruct target canonical none type
  | none => withState fun lowerer =>
    emitValue fun target => .load target (bindingName lowerer name) type

/-- `_store_error_or_continue`. -/
def storeErrorOrContinue (value : ValueId) (resultName : String) (resultType : TypeNode)
    (finalJoin : Nat) : Lower Unit := do
  let isError ← emitValue fun target => .isRuntimeError target value .bool
  let errorBlock ← newBlock
  let continueBlock ← newBlock
  branchTo isError errorBlock continueBlock
  setCurrent errorBlock
  emit (.store resultName value resultType)
  jumpTo finalJoin
  setCurrent continueBlock

/-- The builtin variants take a fixed number of payloads. -/
def builtinVariantArity : String → Option Nat
  | "Some" => some 1
  | "None" => some 0
  | "Ok" => some 1
  | "Err" => some 1
  | _ => none

/-- The checks on the number of payloads of a constructor call. -/
def constructorArity (name : String) (count : Nat) : Lower Unit :=
  match builtinVariantArity name with
  | some expected =>
    if count ≠ expected then
      reject ("checked builtin variant constructor arity drifted for " ++ name)
    else pure ()
  | none =>
    if count > 1 then reject "variant constructors support at most one payload" else pure ()

def mapMethodInstruction (method : String) (receiver : ValueId) (arguments : List ValueId)
    (type : TypeNode) : Option (ValueId → Instruction) :=
  match method, arguments with
  | "get", [key] => some fun target => .mapGet target receiver key type
  | "set", [key, item] => some fun target => .mapSet target receiver key item type
  | "keys", [] => some fun target => .mapKeys target receiver type
  | "contains", [key] => some fun target => .mapContains target receiver key type
  | _, _ => none

/-- Emit a Map method, whose arity the checker has fixed. -/
def emitMapMethod (method : String) (receiver : ValueId) (arguments : List ValueId)
    (type : TypeNode) : Lower ValueId := do
  let target ← newValue
  match mapMethodInstruction method receiver arguments type with
  | some instruction => do
    emit (instruction target)
    pure target
  | none => reject ("unsupported canonical Map method: " ++ method)

/-- `assert_valid` of a match plan. -/
def validPlan (arms : List Arm) : Bool := !arms.isEmpty && (arms.map Arm.canonical).Nodup &&
    arms.all fun arm => canonicalVariantIdentity arm.canonical

/-- After the body of a loop: its Error leaves the loop, anything else goes round. -/
def loopBack (bodyValue : ValueId) (exitBlock conditionBlock : Nat) : Lower Unit := do
  let isError ← emitValue fun target => .isRuntimeError target bodyValue .bool
  let errorBlock ← newBlock
  let continueBlock ← newBlock
  branchTo isError errorBlock continueBlock
  setCurrent errorBlock
  jumpTo exitBlock
  setCurrent continueBlock
  jumpTo conditionBlock

/-- Bind the value of a branch and jump to its join, if the branch goes on. -/
def bindAndJoin (resultName : String) (value : Option ValueId) (type : TypeNode)
    (join : Nat) : Lower Unit :=
  match value with
  | none => pure ()
  | some value => unlessTerminated do
      emit (.bind resultName value false type)
      jumpTo join

/-! ## The forms, over lowered parts

Each form of the language is lowered from the lowerings of its parts. -/

def lowerBinary (operator : BinaryOperator) (left right : Lower ValueId) (type : TypeNode) :
    Lower ValueId := do
  let leftValue ← left
  let rightValue ← right
  emitValue fun target => .binary target operator leftValue rightValue type

/-- `_lower_short_circuit`. -/
def lowerShortCircuit (conjunction : Bool) (left right : Lower ValueId) (type : TypeNode) :
    Lower ValueId := do
  let leftValue ← left
  let resultName ← newInternalName "shortcircuit"
  emit (.bind resultName leftValue true type)
  let isError ← emitValue fun target => .isRuntimeError target leftValue .bool
  let decisionBlock ← newBlock
  let rhsBlock ← newBlock
  let skipBlock ← newBlock
  let joinBlock ← newBlock
  branchTo isError joinBlock decisionBlock
  setCurrent decisionBlock
  branchTo leftValue (if conjunction then rhsBlock else skipBlock)
    (if conjunction then skipBlock else rhsBlock)
  setCurrent rhsBlock
  let rightValue ← right
  emit (.store resultName rightValue type)
  jumpTo joinBlock
  setCurrent skipBlock
  jumpTo joinBlock
  setCurrent joinBlock
  emitValue fun target => .load target resultName type

/-- A literal that is built part by part: an Error among its parts is stored as the result
and skips the rest. -/
def lowerBuilder (purpose : String) (start : ValueId → Instruction)
    (finish : ValueId → ValueId → Instruction) (parts : ValueId → String → Nat → Lower Unit)
    (type : TypeNode) : Lower ValueId := do
  let builder ← emitValue start
  let resultName ← newInternalName purpose
  emit (.bind resultName builder true type)
  let finalJoin ← newBlock
  parts builder resultName finalJoin
  let finished ← emitValue fun target => finish target builder
  emit (.store resultName finished type)
  jumpTo finalJoin
  setCurrent finalJoin
  emitValue fun target => .load target resultName type

/-- `_lower_map_literal`, over the lowering of its entries. -/
def lowerMap (entries : ValueId → String → Nat → Lower Unit) (type : TypeNode) : Lower ValueId :=
  lowerBuilder "map_result" (fun target => .mapNew target type)
    (fun target builder => .mapFinish target builder type) entries type

/-- One entry of a Map literal: an Error key or item becomes the result. -/
def lowerEntry (key value : Lower ValueId) (builder : ValueId) (resultName : String)
    (type : TypeNode) (finalJoin : Nat) : Lower Unit := do
  let keyValue ← key
  storeErrorOrContinue keyValue resultName type finalJoin
  let item ← value
  storeErrorOrContinue item resultName type finalJoin
  emit (.mapInsert builder keyValue item type)

/-- `_lower_struct_literal`, over the lowering of its fields. -/
def lowerStruct (typeName : String) (required : List String)
    (fields : ValueId → String → Nat → Lower Unit) (type : TypeNode) : Lower ValueId :=
  lowerBuilder "struct_result" (fun target => .structNew target typeName required type)
    (fun target builder => .structFinish target builder type) fields type

/-- One field of a struct literal. -/
def lowerField (name : String) (value : Lower ValueId) (builder : ValueId)
    (resultName : String) (type : TypeNode) (finalJoin : Nat) : Lower Unit := do
  let item ← value
  storeErrorOrContinue item resultName type finalJoin
  emit (.structSet builder name item type)

def lowerPlainCall (callee : Lower ValueId) (arguments : Lower (List ValueId))
    (type : TypeNode) : Lower ValueId := do
  let function ← callee
  let values ← arguments
  emitValue fun target => .call target function values type

/-- A constructor call. Without an identity the call is lowered as an ordinary one, after
its argument has been lowered once already. -/
def lowerConstruct (host : Host) (name : String) (calleeType : TypeNode) (count : Nat)
    (arguments : Lower (List ValueId)) (type : TypeNode) : Lower ValueId := do
  constructorArity name count
  let sources ← arguments
  match constructIdentity type name with
  | some canonical =>
    emitValue fun target => .variantConstruct target canonical sources.head? type
  | none => lowerPlainCall (lowerIdent host name calleeType) arguments type

/-- `_lower_capability_call`. -/
def lowerCapabilityCall (object : Lower ValueId) (arguments : Lower (List ValueId))
    (capabilityType method canonicalEffect powerDomain : String) (type : TypeNode) :
    Lower ValueId := do
  let receiver ← object
  let values ← arguments
  emitValue fun target => .capabilityCall target receiver values capabilityType method
    canonicalEffect powerDomain type

/-- `_lower_map_method_call`. -/
def lowerMapMethod (object : Lower ValueId) (arguments : Lower (List ValueId))
    (method : String) (type : TypeNode) : Lower ValueId := do
  let receiver ← object
  let values ← arguments
  emitMapMethod method receiver values type

/-- A member access. -/
def lowerMember (object : Lower ValueId) (name : String) (type : TypeNode) : Lower ValueId := do
  let receiver ← object
  emitValue fun target => .member target receiver name type

/-- An assignment to a variable. -/
def lowerAssign (name : String) (value : Lower ValueId) (type : TypeNode) : Lower ValueId := do
  let source ← value
  withState fun lowerer => do
    emit (.store (bindingName lowerer name) source type)
    pure source

def lowerAssignField (host : Host) (object : String) (objectType : TypeNode) (field : String)
    (value : Lower ValueId) (type : TypeNode) : Lower ValueId := do
  let receiver ← lowerIdent host object objectType
  let source ← value
  emitValue fun target => .structFieldSet target receiver field source type

/-- Test a fallible value and go to one block for success and one for failure; the third
is where they join. -/
def lowerFallible (value : Lower ValueId) : Lower (ValueId × Nat × Nat × Nat) := do
  let fallible ← value
  let success ← emitValue fun target => .fallibleIsSuccess target fallible .bool
  let successBlock ← newBlock
  let failureBlock ← newBlock
  let joinBlock ← newBlock
  branchTo success successBlock failureBlock
  pure (fallible, successBlock, failureBlock, joinBlock)

/-- What `or return` returns: the failure itself, or the value written for it. -/
def failureValue (fallible : ValueId) (error : Option (Lower ValueId)) : Lower ValueId :=
  match error with
  | none => pure fallible
  | some error => error

/-- `or return`. -/
def lowerOrReturn (value : Lower ValueId) (error : Option (Lower ValueId))
    (type : TypeNode) : Lower ValueId := do
  let (fallible, successBlock, failureBlock, joinBlock) ← lowerFallible value
  setCurrent failureBlock
  let failure ← failureValue fallible error
  terminate (.ret (some failure))
  setCurrent successBlock
  let payload ← emitValue fun target => .falliblePayload target fallible type
  jumpTo joinBlock
  setCurrent joinBlock
  pure payload

/-- `_lower_or_else` and `_lower_or_block`: what replaces a failure may leave the function
or the loop, and then has no value. -/
def lowerOrElse (purpose : String) (value : Lower ValueId) (other : Lower (Option ValueId))
    (type : TypeNode) : Lower ValueId := do
  let (fallible, successBlock, failureBlock, joinBlock) ← lowerFallible value
  let resultName ← newInternalName purpose
  setCurrent successBlock
  let payload ← emitValue fun target => .falliblePayload target fallible type
  emit (.bind resultName payload false type)
  jumpTo joinBlock
  setCurrent failureBlock
  let replacement ← other
  bindAndJoin resultName replacement type joinBlock
  setCurrent joinBlock
  emitValue fun target => .load target resultName type

/-- Take the payload of an arm and bind it. -/
def lowerPayload (scrutinee : ValueId) (canonical : String)
    (binding : Option (String × TypeNode)) : Lower Unit :=
  match binding with
  | none => pure ()
  | some (name, bindingType) => do
    let payload ← emitValue fun target =>
      .variantPayload target scrutinee canonical bindingType
    let internal ← newBindingName name
    emit (.bind internal payload false bindingType)

/-- The body of an arm: take the payload, and bind the value of the body if it goes on. -/
def lowerArmBody (scrutinee : ValueId) (resultName : String) (type : TypeNode)
    (joinBlock : Nat) (canonical : String) (binding : Option (String × TypeNode))
    (body : Lower (Option ValueId)) : Lower Unit := do
  lowerPayload scrutinee canonical binding
  let value ← body
  withState fun lowerer =>
    if value.isNone && !lowerer.terminated then
      reject "continuing match arm produced no canonical result value"
    else bindAndJoin resultName value type joinBlock

/-- One arm of a match: test the variant, and lower the body in a scope of its own. -/
def lowerArm (scrutinee : ValueId) (resultName : String) (type : TypeNode) (joinBlock : Nat)
    (canonical : String) (binding : Option (String × TypeNode))
    (body : Lower (Option ValueId)) : Lower Unit := do
  let test ← emitValue fun target => .variantIs target scrutinee canonical .bool
  let armBlock ← newBlock
  let missBlock ← newBlock
  branchTo test armBlock missBlock
  setCurrent armBlock
  inScope (lowerArmBody scrutinee resultName type joinBlock canonical binding body)
  setCurrent missBlock

/-- `lower_match_expression_v1`, over the lowering of its arms. The last miss is
unreachable. -/
def lowerMatch (value : Lower ValueId) (arms : ValueId → String → Nat → Lower Unit)
    (type : TypeNode) : Lower ValueId := do
  let scrutinee ← value
  let resultName ← newInternalName "match_result"
  let joinBlock ← newBlock
  arms scrutinee resultName joinBlock
  terminate (.unreachable "compiler-proven exhaustive match had no variant arm")
  setCurrent joinBlock
  emitValue fun target => .load target resultName type

/-- A `let`. -/
def lowerLet (name : String) (isMutable : Bool) (value : Lower ValueId) (type : TypeNode) :
    Lower Unit := do
  let source ← value
  let internal ← newBindingName name
  emit (.bind internal source isMutable type)

/-- A `return`. -/
def lowerReturn : Option (Lower ValueId) → Lower Unit
  | none => terminate (.ret none)
  | some value => do
    let source ← value
    terminate (.ret (some source))

/-- `break`. -/
def lowerBreak : Lower Unit := withState fun lowerer =>
  match lowerer.loopTargets with
  | (breakTarget, _) :: _ => jumpTo breakTarget
  | [] => emit (.astFallback none "BreakOutsideLoop" .unknown)

/-- `continue`. -/
def lowerContinue : Lower Unit := withState fun lowerer =>
  match lowerer.loopTargets with
  | (_, continueTarget) :: _ => jumpTo continueTarget
  | [] => emit (.astFallback none "ContinueOutsideLoop" .unknown)

/-- `_lower_if`. -/
def lowerIf (condition : Lower ValueId) (thenBlock elseBranch : Lower Unit) : Lower Unit := do
  let value ← condition
  let isError ← emitValue fun target => .isRuntimeError target value .bool
  let errorBlock ← newBlock
  let decisionBlock ← newBlock
  let thenTarget ← newBlock
  let elseTarget ← newBlock
  let joinBlock ← newBlock
  branchTo isError errorBlock decisionBlock
  setCurrent errorBlock
  jumpTo joinBlock
  setCurrent decisionBlock
  branchTo value thenTarget elseTarget
  setCurrent thenTarget
  thenBlock
  unlessTerminated (jumpTo joinBlock)
  setCurrent elseTarget
  elseBranch
  unlessTerminated (jumpTo joinBlock)
  setCurrent joinBlock

/-- `_lower_value_if`. -/
def lowerValueIf (condition : Lower ValueId) (thenBlock elseBranch : Lower (Option ValueId))
    (type : TypeNode) : Lower ValueId := do
  let value ← condition
  let isError ← emitValue fun target => .isRuntimeError target value .bool
  let errorBlock ← newBlock
  let decisionBlock ← newBlock
  let thenTarget ← newBlock
  let elseTarget ← newBlock
  let joinBlock ← newBlock
  let resultName ← newInternalName "value_if_result"
  branchTo isError errorBlock decisionBlock
  setCurrent errorBlock
  emit (.bind resultName value false type)
  jumpTo joinBlock
  setCurrent decisionBlock
  branchTo value thenTarget elseTarget
  setCurrent thenTarget
  let thenValue ← thenBlock
  bindAndJoin resultName thenValue type joinBlock
  setCurrent elseTarget
  let elseValue ← elseBranch
  bindAndJoin resultName elseValue type joinBlock
  setCurrent joinBlock
  emitValue fun target => .load target resultName type

/-- Keep a value in the result binding of a value-position loop; a loop in statement
position has none. -/
def keepResult (result : Option (String × TypeNode)) (value : ValueId) : Lower Unit :=
  match result with
  | none => pure ()
  | some (name, type) => emit (.store name value type)

/-- The end of the body of a loop: its value is kept, its Error leaves the loop, anything
else goes round. -/
def lowerTurn (result : Option (String × TypeNode)) (bodyValue : Option ValueId)
    (exitBlock conditionBlock : Nat) : Lower Unit :=
  match bodyValue with
  | none => pure ()
  | some bodyValue => unlessTerminated do
      keepResult result bodyValue
      loopBack bodyValue exitBlock conditionBlock

/-- `_lower_while`, and `_lower_value_while` after its result binding is made. -/
def lowerWhile (result : Option (String × TypeNode)) (condition : Lower ValueId)
    (body : Lower (Option ValueId)) : Lower Unit := do
  let conditionBlock ← newBlock
  let conditionErrorBlock ← newBlock
  let decisionBlock ← newBlock
  let bodyBlock ← newBlock
  let exitBlock ← newBlock
  jumpTo conditionBlock
  setCurrent conditionBlock
  let value ← condition
  let isError ← emitValue fun target => .isRuntimeError target value .bool
  branchTo isError conditionErrorBlock decisionBlock
  setCurrent conditionErrorBlock
  keepResult result value
  jumpTo exitBlock
  setCurrent decisionBlock
  branchTo value bodyBlock exitBlock
  setCurrent bodyBlock
  let bodyValue ← inLoop exitBlock conditionBlock body
  lowerTurn result bodyValue exitBlock conditionBlock
  setCurrent exitBlock

/-- One turn of a for loop: the next item is bound, and the body runs. -/
def lowerForBody (name : String) (itemType : TypeNode) (iterator : ValueId)
    (body : Lower (Option ValueId)) : Lower (Option ValueId) := do
  let item ← emitValue fun target => .iterNext target iterator itemType
  let internal ← newBindingName name
  emit (.bind internal item false itemType)
  body

/-- `_lower_for`, and `_lower_value_for` after its result binding is made. -/
def lowerFor (result : Option (String × TypeNode)) (name : String) (itemType : TypeNode)
    (iterable : Lower ValueId) (body : Lower (Option ValueId)) : Lower Unit := do
  let value ← iterable
  let isError ← emitValue fun target => .isRuntimeError target value .bool
  let iterableErrorBlock ← newBlock
  let iteratorInitBlock ← newBlock
  let conditionBlock ← newBlock
  let bodyBlock ← newBlock
  let exitBlock ← newBlock
  branchTo isError iterableErrorBlock iteratorInitBlock
  setCurrent iterableErrorBlock
  keepResult result value
  jumpTo exitBlock
  setCurrent iteratorInitBlock
  let iterator ← emitValue fun target =>
    .iterInit target value (.generic "Iterator" [itemType])
  jumpTo conditionBlock
  setCurrent conditionBlock
  let hasNext ← emitValue fun target => .iterHasNext target iterator .bool
  branchTo hasNext bodyBlock exitBlock
  setCurrent bodyBlock
  let bodyValue ← inScope
    (inLoop exitBlock conditionBlock (lowerForBody name itemType iterator body))
  lowerTurn result bodyValue exitBlock conditionBlock
  setCurrent exitBlock

/-- A loop whose value is consumed: the value starts as unit and is kept in a binding. -/
def lowerValueLoop (purpose : String) (type : TypeNode)
    (loop : Option (String × TypeNode) → Lower Unit) : Lower ValueId := do
  let initial ← emitUnit
  let resultName ← newInternalName purpose
  emit (.bind resultName initial true type)
  loop (some (resultName, type))
  emitValue fun target => .load target resultName type

def present (action : Lower ValueId) : Lower (Option ValueId) := do pure (some (← action))

def absent (action : Lower Unit) : Lower (Option ValueId) := do
  action
  pure none

/-- Lower something unless the current block is terminated, which leaves no value. -/
def tailUnlessTerminated (action : Lower (Option ValueId)) : Lower (Option ValueId) :=
  withState fun lowerer => if lowerer.terminated then pure none else action

/-! ## Expressions and statements -/

section Functions

variable (host : Host)

mutual
/-- `_lower_expression`. -/
def lowerExpr : Expr → Lower ValueId
  | .literal value type => emitValue fun target => .const target value type
  | .ident name type => lowerIdent host name type
  | .interpolated parts type => do
    let items ← lowerAll parts
    emitValue fun target => .interpolate target items type
  | .list items type =>
    match type.listItem with
    | some _ => do
      let items ← lowerAll items
      emitValue fun target => .list target items type
    | none => fallback "ListLiteral" type
  | .map entries type => lowerMap (fun builder resultName finalJoin =>
    lowerEntries builder resultName type finalJoin entries) type
  | .struct typeName fields required type =>
    lowerStruct typeName required (fun builder resultName finalJoin =>
      lowerFields builder resultName type finalJoin fields) type
  | .member object name type => lowerMember (lowerExpr object) name type
  | .call callee arguments resolution type =>
    match callee with
    | .ident name calleeType =>
      if variantName host name then
        lowerConstruct host name calleeType arguments.length (lowerAll arguments) type
      else lowerPlainCall (lowerIdent host name calleeType) (lowerAll arguments) type
    | .member object name memberType =>
      match resolution with
      | .capability capabilityType method canonicalEffect powerDomain =>
        lowerCapabilityCall (lowerExpr object) (lowerAll arguments) capabilityType method
          canonicalEffect powerDomain type
      | .mapMethod method =>
        lowerMapMethod (lowerExpr object) (lowerAll arguments) method type
      | .plain =>
        lowerPlainCall (lowerMember (lowerExpr object) name memberType)
          (lowerAll arguments) type
    | callee => lowerPlainCall (lowerExpr callee) (lowerAll arguments) type
  | .assign name value type => lowerAssign name (lowerExpr value) type
  | .assignField object objectType field value type =>
    lowerAssignField host object objectType field (lowerExpr value) type
  | .binary left operator right type =>
    match operator with
    | .and => lowerShortCircuit true (lowerExpr left) (lowerExpr right) type
    | .or => lowerShortCircuit false (lowerExpr left) (lowerExpr right) type
    | operator => lowerBinary operator (lowerExpr left) (lowerExpr right) type
  | .unary operator operand type => do
    let value ← lowerExpr operand
    emitValue fun target => .unary target operator value type
  | .orReturn value none type => lowerOrReturn (lowerExpr value) none type
  | .orReturn value (some error) type =>
    lowerOrReturn (lowerExpr value) (some (lowerExpr error)) type
  | .orElse value other type =>
    lowerOrElse "or_else_result" (lowerExpr value) (present (lowerExpr other)) type
  | .orBlock value handler type =>
    lowerOrElse "or_block_result" (lowerExpr value)
      (inScope (lowerTail handler (some type))) type
  | .matchOn value arms exhaustive type =>
    if !validPlan arms then reject "match lowering plan is not valid"
    else if !exhaustive then
      reject "non-exhaustive MatchExpression cannot become executable canonical MIR"
    else
      lowerMatch (lowerExpr value) (fun scrutinee resultName joinBlock =>
        lowerArms scrutinee resultName type joinBlock arms) type

/-- Lower expressions from left to right. -/
def lowerAll : List Expr → Lower (List ValueId)
  | [] => pure []
  | expression :: rest => do
    let value ← lowerExpr expression
    let values ← lowerAll rest
    pure (value :: values)

/-- The entries of a Map literal. -/
def lowerEntries (builder : ValueId) (resultName : String) (type : TypeNode)
    (finalJoin : Nat) : List (Expr × Expr) → Lower Unit
  | [] => pure ()
  | (key, value) :: rest => do
    lowerEntry (lowerExpr key) (lowerExpr value) builder resultName type finalJoin
    lowerEntries builder resultName type finalJoin rest

/-- The fields of a struct literal. -/
def lowerFields (builder : ValueId) (resultName : String) (type : TypeNode)
    (finalJoin : Nat) : List (String × Expr) → Lower Unit
  | [] => pure ()
  | (name, value) :: rest => do
    lowerField name (lowerExpr value) builder resultName type finalJoin
    lowerFields builder resultName type finalJoin rest

/-- The arms of a match. -/
def lowerArms (scrutinee : ValueId) (resultName : String) (type : TypeNode)
    (joinBlock : Nat) : List Arm → Lower Unit
  | [] => pure ()
  | .expression _ canonical binding body :: rest => do
    lowerArm scrutinee resultName type joinBlock canonical binding
      (present (lowerExpr body))
    lowerArms scrutinee resultName type joinBlock rest
  | .block _ canonical binding body :: rest => do
    lowerArm scrutinee resultName type joinBlock canonical binding
      (inScope (lowerTail body (some type)))
    lowerArms scrutinee resultName type joinBlock rest

/-- `_lower_statement`. -/
def lowerStmt : Stmt → Lower Unit
  | .letIn name isMutable value => lowerLet name isMutable (lowerExpr value) value.type
  | .expression expression => do
    let _ ← lowerExpr expression
  | .ret none => lowerReturn none
  | .ret (some value) => lowerReturn (some (lowerExpr value))
  | .ifThen statement => lowerIfStmt statement
  | .whileDo condition body bodyType =>
    lowerWhile none (lowerExpr condition) (inScope (lowerTail body bodyType))
  | .forIn name iterable body bodyType =>
    match iterable.type.iterableItem with
    | none => emit (.astFallback none "ForStatement" .unknown)
    | some itemType =>
      lowerFor none name itemType (lowerExpr iterable) (inScope (lowerTail body bodyType))
  | .breakLoop => lowerBreak
  | .continueLoop => lowerContinue

/-- `_lower_if` on the syntax. -/
def lowerIfStmt : IfStmt → Lower Unit
  | .mk condition thenBlock elseBranch =>
    lowerIf (lowerExpr condition) (inScope (lowerStmts thenBlock)) (lowerElse elseBranch)

/-- What an if statement does otherwise. -/
def lowerElse : Else → Lower Unit
  | .nothing => pure ()
  | .block statements => inScope (lowerStmts statements)
  | .elseIf statement => lowerIfStmt statement

/-- `_lower_value_if` on the syntax. -/
def lowerValueIfStmt : IfStmt → TypeNode → Lower ValueId
  | .mk condition thenBlock elseBranch, type =>
    lowerValueIf (lowerExpr condition) (inScope (lowerTail thenBlock (some type)))
      (lowerValueElse elseBranch type) type

/-- What a value-position if does otherwise. -/
def lowerValueElse : Else → TypeNode → Lower (Option ValueId)
  | .nothing, _ => present emitUnit
  | .block statements, type => inScope (lowerTail statements (some type))
  | .elseIf statement, type => present (lowerValueIfStmt statement type)

/-- `_lower_block` without its scope: what follows a terminator is not lowered. -/
def lowerStmts : List Stmt → Lower Unit
  | [] => pure ()
  | statement :: rest => unlessTerminated do
      lowerStmt statement
      lowerStmts rest

/-- `_lower_value_block` without its scope: the value of the last statement, if control
gets there. -/
def lowerTail : List Stmt → Option TypeNode → Lower (Option ValueId)
  | [], _ => present emitUnit
  | [tail], resultType => tailUnlessTerminated (lowerTailStmt tail resultType)
  | statement :: next :: rest, resultType => tailUnlessTerminated do
      lowerStmt statement
      lowerTail (next :: rest) resultType

/-- The last statement of a value block. -/
def lowerTailStmt : Stmt → Option TypeNode → Lower (Option ValueId)
  | .expression expression, _ => present (lowerExpr expression)
  | .letIn name isMutable value, _ => do
    lowerLet name isMutable (lowerExpr value) value.type
    present emitUnit
  | .ret none, _ => absent (lowerReturn none)
  | .ret (some value), _ => absent (lowerReturn (some (lowerExpr value)))
  | .breakLoop, _ => absent lowerBreak
  | .continueLoop, _ => absent lowerContinue
  | .ifThen statement, some type => present (lowerValueIfStmt statement type)
  | .ifThen _, none => reject "value-position if requires canonical result type"
  | .whileDo condition body bodyType, some type =>
    present <| lowerValueLoop "value_while_result" type fun result =>
      lowerWhile result (lowerExpr condition) (inScope (lowerTail body bodyType))
  | .whileDo _ _ _, none => reject "value-position while requires canonical result type"
  | .forIn name iterable body bodyType, some type =>
    match iterable.type.iterableItem with
    | none => reject "value-position for requires a checked List iterable"
    | some itemType =>
      present <| lowerValueLoop "value_for_result" type fun result =>
        lowerFor result name itemType (lowerExpr iterable)
          (inScope (lowerTail body bodyType))
  | .forIn _ _ _ _, none => reject "value-position for requires canonical result type"
end

/-! ## Functions -/

def initialLowerer (function : FunctionDeclaration) : Lowerer where
  blocks := fun _ => ⟨[], none⟩
  current := 0
  nextBlock := 1
  nextValue := 0
  nextBinding := 0
  used := function.parameters.map Parameter.name
  scopes := [(function.parameters.map fun parameter => (parameter.name, parameter.name)).reverse]
  loopTargets := []

/-- A block without a terminator is never entered. -/
def freezeBlock (id : Nat) (draft : Draft) : BasicBlock where
  id := id
  instructions := draft.instructions
  terminator := draft.terminator.getD (.unreachable "unterminated lowering block")

/-- The blocks of a lowerer, in the order of their ids. -/
def freeze (lowerer : Lowerer) : List BasicBlock :=
  (range lowerer.nextBlock).map fun id => freezeBlock id (lowerer.blocks id)

/-- `lower_function_blocks_v1`. -/
def lowerFunction (function : FunctionDeclaration) : Except String (List BasicBlock) := match (do
      lowerStmts host function.body
      unlessTerminated (terminate (.ret none)) : Lower Unit) (initialLowerer function) with
  | .ok _ lowerer =>
    match validateBlocks (freeze lowerer) with
    | .ok _ => .ok (freeze lowerer)
    | .error message => .error message
  | .raise message _ => .error message
  | .timeout => .error "no unused name was found"

/-- A function of `lower_module`: the checked signature with the lowered blocks. -/
def lowerDeclaration (function : FunctionDeclaration) : Except String MirFunction :=
  match lowerFunction host function with
  | .ok blocks => .ok { signature function with blocks := blocks }
  | .error message => .error message

/-- `lower_module`, without the effect reports and the native sigils. -/
def lowerModule (module : Module) : Except String MirModule :=
  match module.functions.mapM (lowerDeclaration host) with
  | .ok functions => .ok ⟨module.key, module.name, module.imports, functions⟩
  | .error message => .error message

/-- `lower_graph`, without the fingerprint. -/
def lowerGraph (program : Program) : Except String MirGraph :=
  match program.modules.mapM (lowerModule host) with
  | .ok modules => .ok ⟨program.root, modules⟩
  | .error message => .error message

end Functions

end Koschei.Lowering
