import Koschei.Core.Value

/-!
# The MIR v4 instruction set

Every instruction class of the v4 registry, with the fields the validator and
the executors read; source locations are left out. The registry is exact, so an
instruction outside it has no counterpart here.

The validator does not know the classes. It reads an instruction's operands by
field name, so an instruction also lists its integer fields by their names
(`ssaFields`) and its tuple fields by theirs (`tupleFields`).
-/

namespace Koschei.Mir

abbrev ValueId := Int

abbrev BlockId := Int

/-- One MIR v4 instruction. -/
inductive Instruction where
  | const (target : ValueId) (value : Value) (type : TypeNode)
  | load (target : ValueId) (name : String) (type : TypeNode)
  | bind (name : String) (source : ValueId) (isMutable : Bool) (type : TypeNode)
  | store (name : String) (source : ValueId) (type : TypeNode)
  | unary (target : ValueId) (operator : UnaryOperator) (operand : ValueId) (type : TypeNode)
  | binary (target : ValueId) (operator : BinaryOperator) (left right : ValueId) (type : TypeNode)
  | list (target : ValueId) (items : List ValueId) (type : TypeNode)
  | iterInit (target iterable : ValueId) (type : TypeNode)
  | iterHasNext (target iterator : ValueId) (type : TypeNode)
  | iterNext (target iterator : ValueId) (type : TypeNode)
  | member (target object : ValueId) (member : String) (type : TypeNode)
  | call (target callee : ValueId) (arguments : List ValueId) (type : TypeNode)
  | astFallback (target : Option ValueId) (nodeKind : String) (type : TypeNode)
  | unit (target : ValueId) (type : TypeNode)
  | fallibleIsSuccess (target source : ValueId) (type : TypeNode)
  | falliblePayload (target source : ValueId) (type : TypeNode)
  | interpolate (target : ValueId) (items : List ValueId) (type : TypeNode)
  | isRuntimeError (target source : ValueId) (type : TypeNode)
  | variantConstruct (target : ValueId) (variant : String) (source : Option ValueId)
      (type : TypeNode)
  | variantIs (target source : ValueId) (variant : String) (type : TypeNode)
  | variantPayload (target source : ValueId) (variant : String) (type : TypeNode)
  | capabilityCall (target object : ValueId) (arguments : List ValueId)
      (capabilityType method canonicalEffect powerDomain : String) (type : TypeNode)
  | mapNew (target : ValueId) (type : TypeNode)
  | mapInsert (object key value : ValueId) (type : TypeNode)
  | mapFinish (target source : ValueId) (type : TypeNode)
  | mapGet (target object key : ValueId) (type : TypeNode)
  | mapSet (target object key value : ValueId) (type : TypeNode)
  | mapKeys (target object : ValueId) (type : TypeNode)
  | mapContains (target object key : ValueId) (type : TypeNode)
  | structNew (target : ValueId) (typeName : String) (requiredFields : List String)
      (type : TypeNode)
  | structSet (object : ValueId) (field : String) (source : ValueId) (type : TypeNode)
  | structFinish (target source : ValueId) (type : TypeNode)
  | structFieldSet (target object : ValueId) (field : String) (source : ValueId)
      (type : TypeNode)
  deriving BEq, Inhabited

/-- How a basic block ends. -/
inductive Terminator where
  | ret (value : Option ValueId)
  | jump (target : BlockId)
  | branch (condition : ValueId) (thenBlock elseBlock : BlockId)
  | unreachable (reason : String)
  deriving BEq, DecidableEq, Inhabited

/-- A basic block. -/
structure BasicBlock where
  id : BlockId
  instructions : List Instruction
  terminator : Terminator
  deriving BEq, Inhabited

namespace Instruction

/-- The `target` field, when the class has one and it is not empty. -/
def target : Instruction → Option ValueId
  | .const target .. | .load target .. | .unary target .. | .binary target ..
  | .list target .. | .iterInit target .. | .iterHasNext target .. | .iterNext target ..
  | .member target .. | .call target .. | .unit target .. | .fallibleIsSuccess target ..
  | .falliblePayload target .. | .interpolate target .. | .isRuntimeError target ..
  | .variantConstruct target .. | .variantIs target .. | .variantPayload target ..
  | .capabilityCall target .. | .mapNew target .. | .mapFinish target ..
  | .mapGet target .. | .mapSet target .. | .mapKeys target .. | .mapContains target ..
  | .structNew target .. | .structFinish target .. | .structFieldSet target .. => some target
  | .astFallback target .. => target
  | .bind .. | .store .. | .mapInsert .. | .structSet .. => none

/-- The SSA operands held in single fields, under their field names. -/
def ssaFields : Instruction → List (String × ValueId)
  | .bind _ source .. | .store _ source .. => [("source", source)]
  | .unary _ _ operand _ => [("operand", operand)]
  | .binary _ _ left right _ => [("left", left), ("right", right)]
  | .iterInit _ iterable _ => [("iterable", iterable)]
  | .iterHasNext _ iterator _ | .iterNext _ iterator _ => [("iterator", iterator)]
  | .member _ object .. => [("object", object)]
  | .call _ callee .. => [("callee", callee)]
  | .fallibleIsSuccess _ source _ | .falliblePayload _ source _
  | .isRuntimeError _ source _ | .variantIs _ source .. | .variantPayload _ source ..
  | .mapFinish _ source _ | .structFinish _ source _ => [("source", source)]
  | .variantConstruct _ _ (some source) _ => [("source", source)]
  | .capabilityCall _ object .. => [("object", object)]
  | .mapInsert object .. => [("object", object)]
  | .mapGet _ object key _ | .mapContains _ object key _ => [("object", object), ("key", key)]
  | .mapSet _ object key value _ => [("object", object), ("key", key), ("value", value)]
  | .mapKeys _ object _ => [("object", object)]
  | .structSet object _ source _ | .structFieldSet _ object _ source _ =>
    [("object", object), ("source", source)]
  | .const .. | .load .. | .list .. | .astFallback .. | .unit .. | .interpolate ..
  | .variantConstruct _ _ none _ | .mapNew .. | .structNew .. => []

/-- The SSA operands held in tuple fields, under their field names. -/
def tupleFields : Instruction → List (String × List ValueId)
  | .call _ _ arguments _ | .capabilityCall _ _ arguments .. => [("arguments", arguments)]
  | .mapInsert _ key value _ => [("arguments", [key, value])]
  | .list _ items _ | .interpolate _ items _ => [("items", items)]
  | _ => []

/-- Every SSA id the instruction mentions as an operand. -/
def operands (instruction : Instruction) : List ValueId :=
  instruction.ssaFields.map snd ++ (instruction.tupleFields.map snd).flatten

end Instruction

/-- Every SSA id the terminator mentions. -/
def Terminator.operands : Terminator → List ValueId
  | .branch condition .. => [condition]
  | .ret (some value) => [value]
  | .ret none | .jump _ | .unreachable _ => []

/-- The ids the instructions of some blocks define, in order. -/
def targets (blocks : List BasicBlock) : List ValueId :=
  blocks.flatMap fun block => block.instructions.filterMap Instruction.target

end Koschei.Mir
