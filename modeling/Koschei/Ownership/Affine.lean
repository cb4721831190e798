import Koschei.Ast.Syntax
import Koschei.Types.Contracts
import Koschei.Lib.Checks
import Koschei.Lib.Ownership

/-!
# Affine resources

The ownership pass of `affine_resources_v1.py`. A value of an affine type is
moved at the places where it is handed over (a `let`, an argument, a returned
value, an element, an assigned value) and borrowed everywhere else; once it is
moved, its binding must not be used again. Which types are affine is asked of
the type contracts, so it is a parameter here.

`checkExpr` and `checkStmt` are the pass, one forward walk over the tree with a
set of moved bindings. `exprPlan` and `stmtPlan` say in which order the
interpreter evaluates the same tree: what may be left out after an Error or a
short circuit, which branches exclude each other, and what a loop repeats. A
`while` loop evaluates its condition before every turn, and the pass looks at it
once; the payload of a match arm has a type, and the pass declares it without.
-/

namespace Koschei.Ownership

open Lib Ast

section Plans

variable (affine : TypeNode → Bool)

/-! ## The order of evaluation -/

/-- The variable at the root of a chain of members. -/
def rootIdentifier : Expr → Option String
  | .ident name _ => some name
  | .member object _ _ => rootIdentifier object
  | _ => none

/-- The type whose members are roots of authority of their own. -/
def isSystemCaps : TypeNode → Bool
  | .named "SystemCaps" => true
  | _ => false

/-- Moving a part of an owner moves the owner; only a projection of `SystemCaps` does not. -/
def ownerMove (object : Expr) (type : TypeNode) (moves : Bool) : Option String :=
  if moves && affine type && !isSystemCaps object.type then rootIdentifier object else none

def ownerPlan : Option String → Plan String
  | some owner => .use owner true
  | none => .done

/-- The element type a loop variable is given. -/
def itemType (iterable : Expr) : TypeNode := iterable.type.arguments.headD .unknown

mutual
/-- How an expression uses names, when its value is moved or when it is borrowed. -/
def exprPlan : Expr → Bool → Plan String
  | .literal _ _, _ => .done
  | .ident name _, moves => .use name moves
  | .interpolated parts _, _ => partsPlan parts
  | .list items _, _ => itemsPlan items
  | .map entries _, _ => entriesPlan entries
  | .struct _ fields _ _, _ => fieldsPlan fields
  | .member object _ type, moves =>
    .both (exprPlan object false) (ownerPlan (ownerMove affine object type moves))
  | .call callee arguments _ _, _ => .both (exprPlan callee false) (argumentsPlan arguments)
  | .assign name value _, _ => .both (exprPlan value (affine value.type)) (.use name false)
  | .assignField object _ _ value _, _ =>
    .both (.use object false) (.both (exprPlan value (affine value.type)) (.use object false))
  | .binary left _ right _, _ => .both (exprPlan left false) (.optional (exprPlan right false))
  | .unary _ operand _, _ => exprPlan operand false
  | .orReturn value none _, moves => exprPlan value (moves && affine value.type)
  | .orReturn value (some error) _, moves =>
    .both (exprPlan value (moves && affine value.type))
      (.optional (exprPlan error (affine error.type)))
  | .orElse value other _, moves =>
    .both (exprPlan value (moves && affine value.type))
      (.optional (exprPlan other (moves && affine other.type)))
  | .orBlock value handler _, moves =>
    .both (exprPlan value (moves && affine value.type)) (.optional (.within (stmtsPlan handler)))
  | .matchOn value arms _ _, moves => .both (exprPlan value false) (armsPlan arms moves)

/-- The parts of an interpolation are all rendered. -/
def partsPlan : List Expr → Plan String
  | [] => .done
  | part :: rest => .both (exprPlan part false) (partsPlan rest)

/-- The arguments of a call are all evaluated. -/
def argumentsPlan : List Expr → Plan String
  | [] => .done
  | argument :: rest => .both (exprPlan argument (affine argument.type)) (argumentsPlan rest)

/-- The elements of a List literal, up to the first Error. -/
def itemsPlan : List Expr → Plan String
  | [] => .done
  | item :: rest => .both (exprPlan item (affine item.type)) (.optional (itemsPlan rest))

def entriesPlan : List (Expr × Expr) → Plan String
  | [] => .done
  | (key, value) :: rest =>
    .both (exprPlan key false)
      (.optional (.both (exprPlan value (affine value.type)) (.optional (entriesPlan rest))))

def fieldsPlan : List (String × Expr) → Plan String
  | [] => .done
  | (_, value) :: rest => .both (exprPlan value (affine value.type)) (.optional (fieldsPlan rest))

/-- One of the arms, in a scope of its own with the payload bound. -/
def armsPlan : List Arm → Bool → Plan String
  | [], _ => .done
  | .expression _ _ none body :: rest, moves =>
    .either (.within (exprPlan body (moves && affine body.type))) (armsPlan rest moves)
  | .expression _ _ (some (name, type)) body :: rest, moves =>
    .either (.within (.both (.bind name (affine type))
      (exprPlan body (moves && affine body.type)))) (armsPlan rest moves)
  | .block _ _ none body :: rest, moves =>
    .either (.within (stmtsPlan body)) (armsPlan rest moves)
  | .block _ _ (some (name, type)) body :: rest, moves =>
    .either (.within (.both (.bind name (affine type)) (stmtsPlan body))) (armsPlan rest moves)

def stmtPlan : Stmt → Plan String
  | .letIn name _ value =>
    .both (exprPlan value (affine value.type)) (.bind name (affine value.type))
  | .ret none => .done
  | .ret (some value) => exprPlan value (affine value.type)
  | .expression expression => exprPlan expression false
  | .ifThen statement => ifPlan statement
  | .whileDo condition body _ =>
    .both (.again (.both (exprPlan condition false) (.within (stmtsPlan body))))
      (.optional (exprPlan condition false))
  | .forIn name iterable body _ =>
    .both (exprPlan iterable false)
      (.again (.within (.both (.bind name (affine (itemType iterable))) (stmtsPlan body))))
  | .breakLoop => .done
  | .continueLoop => .done

/-- A condition, then one of the branches, or none after an Error. -/
def ifPlan : IfStmt → Plan String
  | .mk condition thenBlock elseBranch =>
    .both (exprPlan condition false)
      (.optional (.either (.within (stmtsPlan thenBlock)) (elsePlan elseBranch)))

def elsePlan : Else → Plan String
  | .nothing => .done
  | .block statements => .within (stmtsPlan statements)
  | .elseIf statement => ifPlan statement

def stmtsPlan : List Stmt → Plan String
  | [] => .done
  | statement :: rest => .both (stmtPlan statement) (stmtsPlan rest)
end

/-- The parameters of a call. -/
def parametersPlan : List Parameter → Plan String
  | [] => .done
  | parameter :: rest => .both (.bind parameter.name (affine parameter.type)) (parametersPlan rest)

/-- A call of a function: its parameters, then its body. -/
def functionPlan (function : FunctionDeclaration) : Plan String :=
  .both (parametersPlan affine function.parameters) (stmtsPlan affine function.body)

end Plans

/-! ## Where the pass sees less than a run does -/

/-- A place the pass does not look at the way a run goes through it: a `while` condition, which
is evaluated again, and the payload of a match arm, which is declared with an unknown type. -/
inductive Spot where
  | repeated (condition : Expr)
  | payload (type : TypeNode)

mutual
def exprSpots : Expr → List Spot
  | .literal _ _ => []
  | .ident _ _ => []
  | .interpolated parts _ => allSpots parts
  | .list items _ => allSpots items
  | .map entries _ => entriesSpots entries
  | .struct _ fields _ _ => fieldsSpots fields
  | .member object _ _ => exprSpots object
  | .call callee arguments _ _ => exprSpots callee ++ allSpots arguments
  | .assign _ value _ => exprSpots value
  | .assignField _ _ _ value _ => exprSpots value
  | .binary left _ right _ => exprSpots left ++ exprSpots right
  | .unary _ operand _ => exprSpots operand
  | .orReturn value none _ => exprSpots value
  | .orReturn value (some error) _ => exprSpots value ++ exprSpots error
  | .orElse value other _ => exprSpots value ++ exprSpots other
  | .orBlock value handler _ => exprSpots value ++ stmtsSpots handler
  | .matchOn value arms _ _ => exprSpots value ++ armsSpots arms

def allSpots : List Expr → List Spot
  | [] => []
  | expression :: rest => exprSpots expression ++ allSpots rest

def entriesSpots : List (Expr × Expr) → List Spot
  | [] => []
  | (key, value) :: rest => exprSpots key ++ exprSpots value ++ entriesSpots rest

def fieldsSpots : List (String × Expr) → List Spot
  | [] => []
  | (_, value) :: rest => exprSpots value ++ fieldsSpots rest

def armsSpots : List Arm → List Spot
  | [] => []
  | .expression _ _ none body :: rest => exprSpots body ++ armsSpots rest
  | .expression _ _ (some (_, type)) body :: rest =>
    .payload type :: (exprSpots body ++ armsSpots rest)
  | .block _ _ none body :: rest => stmtsSpots body ++ armsSpots rest
  | .block _ _ (some (_, type)) body :: rest =>
    .payload type :: (stmtsSpots body ++ armsSpots rest)

def stmtSpots : Stmt → List Spot
  | .letIn _ _ value => exprSpots value
  | .ret none => []
  | .ret (some value) => exprSpots value
  | .expression expression => exprSpots expression
  | .ifThen statement => ifSpots statement
  | .whileDo condition body _ => .repeated condition :: (exprSpots condition ++ stmtsSpots body)
  | .forIn _ iterable body _ => exprSpots iterable ++ stmtsSpots body
  | .breakLoop => []
  | .continueLoop => []

def ifSpots : IfStmt → List Spot
  | .mk condition thenBlock elseBranch =>
    exprSpots condition ++ stmtsSpots thenBlock ++ elseSpots elseBranch

def elseSpots : Else → List Spot
  | .nothing => []
  | .block statements => stmtsSpots statements
  | .elseIf statement => ifSpots statement

def stmtsSpots : List Stmt → List Spot
  | [] => []
  | statement :: rest => stmtSpots statement ++ stmtsSpots rest
end

/-- Nothing is lost at a spot: the condition moves no binding from outside, and the payload is no
more affine than an unknown type, which is not affine at all. -/
def Spot.Tracked (affine : TypeNode → Bool) : Spot → Prop
  | .repeated condition => (exprPlan affine condition false).freeMoves [] = []
  | .payload type => affine type = affine .unknown

/-! ## The pass -/

/-- `_Binding`. -/
structure Binding where
  id : Nat
  name : String
  type : TypeNode

/-- The diagnostics of the pass, about the named binding. -/
inductive AffineError where
  | mutableResource (name : String)
  | usedAfterMove (name : String)
  | movedTwice (name : String)
  | movedInLoop (name : String)
  deriving DecidableEq

/-- The state of `AffineResourceChecker`: the scopes, the innermost first, and the moved
bindings. -/
structure CheckState where
  scopes : List (List (String × Binding))
  moved : List Nat
  next : Nat

namespace CheckState

def bindings (state : CheckState) : List Binding := state.scopes.flatten.map snd

/-- `_outer_binding_ids`. -/
def outerIds (state : CheckState) : List Nat := state.bindings.map Binding.id

/-- `_resolve`. -/
def resolve (name : String) (state : CheckState) : Option Binding :=
  state.scopes.findSome? fun scope => scope.lookup name

/-- Open a scope. -/
def enter (state : CheckState) : CheckState := { state with scopes := [] :: state.scopes }

/-- The end of a nested block: its own bindings are no longer moved. -/
def leave (state : CheckState) : CheckState where
  scopes := state.scopes.tail
  moved := state.moved.filter fun id =>
    !((state.scopes.headD []).map fun entry => entry.2.id).contains id
  next := state.next

/-- Go back to the scopes and moves of an earlier state. The numbering goes on. -/
def restore (earlier state : CheckState) : CheckState := { earlier with next := state.next }

/-- The bindings of an earlier state that have been moved since. -/
def newlyMoved (earlier state : CheckState) : List Binding := earlier.bindings.filter fun binding =>
    state.moved.contains binding.id && !earlier.moved.contains binding.id

/-- What may be moved after one of two continuations of an earlier state. -/
def joined (earlier first second : CheckState) : CheckState where
  scopes := earlier.scopes
  moved := earlier.moved ++ (first.moved.filter fun id => earlier.outerIds.contains id) ++
    second.moved.filter fun id => earlier.outerIds.contains id
  next := second.next

end CheckState

/-- The binding with the least number. -/
def earliest : List Binding → Option Binding
  | [] => none
  | binding :: rest =>
    match earliest rest with
    | some other => if other.id < binding.id then some other else some binding
    | none => some binding

section Pass

variable (affine : TypeNode → Bool)

/-- `_declare`. -/
def declareBinding (name : String) (type : TypeNode) (isMutable : Bool) (state : CheckState) :
    Except AffineError CheckState :=
  if isMutable && affine type then .error (.mutableResource name)
  else .ok {
    scopes := match state.scopes with
      | [] => []
      | scope :: scopes =>
        ((name, ⟨state.next, name, type⟩) :: scope.filter fun entry => entry.1 != name) :: scopes
    moved := state.moved
    next := state.next + 1 }

/-- `_mark_move`. -/
def markMove (binding : Binding) (state : CheckState) : Except AffineError CheckState :=
  if state.moved.contains binding.id then .error (.movedTwice binding.name)
  else .ok { state with moved := binding.id :: state.moved }

/-- `_use_identifier`. -/
def useIdentifier (name : String) (moves : Bool) (state : CheckState) :
    Except AffineError CheckState :=
  match state.resolve name with
  | none => .ok state
  | some binding =>
    if !affine binding.type then .ok state
    else if state.moved.contains binding.id then .error (.usedAfterMove binding.name)
    else if moves then markMove binding state
    else .ok state

def moveOwner (owner : Option String) (state : CheckState) : Except AffineError CheckState :=
  match owner.bind state.resolve with
  | none => .ok state
  | some binding => if affine binding.type then markMove binding state else .ok state

/-- The end of a repeated block: nothing from outside may be moved in it. -/
def endRepeated (earlier state : CheckState) : Except AffineError CheckState :=
  match earliest (earlier.newlyMoved state) with
  | some binding => .error (.movedInLoop binding.name)
  | none => .ok (earlier.restore state)

mutual
/-- `_check_expression`. -/
def checkExpr : Expr → Bool → CheckState → Except AffineError CheckState
  | .literal _ _, _, state => .ok state
  | .ident name _, moves, state => useIdentifier affine name moves state
  | .interpolated parts _, _, state => checkParts parts state
  | .list items _, _, state => checkMoved items state
  | .map entries _, _, state => checkEntries entries state
  | .struct _ fields _ _, _, state => checkFields fields state
  | .member object _ type, moves, state => do
    let state ← checkExpr object false state
    moveOwner affine (ownerMove affine object type moves) state
  -- The receiver of a method is borrowed, which is what borrowing the member comes to.
  | .call callee arguments _ _, _, state => do
    let state ← checkExpr callee false state
    checkMoved arguments state
  | .assign name value _, _, state => do
    let state ← checkExpr value (affine value.type) state
    useIdentifier affine name false state
  | .assignField object _ _ value _, _, state => do
    let state ← checkExpr value (affine value.type) state
    useIdentifier affine object false state
  | .binary left _ right _, _, state => do
    let state ← checkExpr left false state
    checkExpr right false state
  | .unary _ operand _, _, state => checkExpr operand false state
  | .orReturn value none _, moves, state => checkExpr value (moves && affine value.type) state
  | .orReturn value (some error) _, moves, state => do
    let state ← checkExpr value (moves && affine value.type) state
    checkExpr error (affine error.type) state
  | .orElse value other _, moves, state => do
    let state ← checkExpr value (moves && affine value.type) state
    checkExpr other (moves && affine other.type) state
  | .orBlock value handler _, moves, state => do
    let state ← checkExpr value (moves && affine value.type) state
    let state ← checkStmts handler state.enter
    .ok state.leave
  | .matchOn value arms _ _, moves, state => do
    let state ← checkExpr value false state
    checkArms arms moves state state

def checkParts : List Expr → CheckState → Except AffineError CheckState
  | [], state => .ok state
  | part :: rest, state => do
    let state ← checkExpr part false state
    checkParts rest state

/-- Expressions whose values are handed over. -/
def checkMoved : List Expr → CheckState → Except AffineError CheckState
  | [], state => .ok state
  | item :: rest, state => do
    let state ← checkExpr item (affine item.type) state
    checkMoved rest state

def checkEntries : List (Expr × Expr) → CheckState → Except AffineError CheckState
  | [], state => .ok state
  | (key, value) :: rest, state => do
    let state ← checkExpr key false state
    let state ← checkExpr value (affine value.type) state
    checkEntries rest state

def checkFields : List (String × Expr) → CheckState → Except AffineError CheckState
  | [], state => .ok state
  | (_, value) :: rest, state => do
    let state ← checkExpr value (affine value.type) state
    checkFields rest state

/-- The arms of a match: each starts from the state before the match, and their moves are
collected. -/
def checkArms : List Arm → Bool → CheckState → CheckState → Except AffineError CheckState
  | [], _, _, collected => .ok collected
  | .expression _ _ none body :: rest, moves, before, collected => do
    let after ← checkExpr body (moves && affine body.type)
      (before.restore collected).enter
    checkArms rest moves before (before.joined collected after)
  | .expression _ _ (some (name, _)) body :: rest, moves, before, collected => do
    let inside ← declareBinding affine name .unknown false (before.restore collected).enter
    let after ← checkExpr body (moves && affine body.type) inside
    checkArms rest moves before (before.joined collected after)
  | .block _ _ none body :: rest, moves, before, collected => do
    let after ← checkStmts body (before.restore collected).enter
    checkArms rest moves before (before.joined collected after)
  | .block _ _ (some (name, _)) body :: rest, moves, before, collected => do
    let inside ← declareBinding affine name .unknown false (before.restore collected).enter
    let after ← checkStmts body inside
    checkArms rest moves before (before.joined collected after)

/-- `_check_statement`. -/
def checkStmt : Stmt → CheckState → Except AffineError CheckState
  | .letIn name isMutable value, state => do
    let state ← checkExpr value (affine value.type) state
    declareBinding affine name value.type isMutable state
  | .ret none, state => .ok state
  | .ret (some value), state => checkExpr value (affine value.type) state
  | .expression expression, state => checkExpr expression false state
  | .ifThen statement, state => checkIf statement state
  | .whileDo condition body _, state => do
    let state ← checkExpr condition false state
    let after ← checkStmts body state.enter
    endRepeated state after.leave
  | .forIn name iterable body _, state => do
    let state ← checkExpr iterable false state
    let inside ← declareBinding affine name (itemType iterable) false state.enter
    let after ← checkStmts body inside
    endRepeated state after
  | .breakLoop, state => .ok state
  | .continueLoop, state => .ok state

/-- An if statement: its condition, then `_check_if`. -/
def checkIf : IfStmt → CheckState → Except AffineError CheckState
  | .mk condition thenBlock elseBranch, state => do
    let before ← checkExpr condition false state
    let first ← checkStmts thenBlock before.enter
    let second ← checkElse elseBranch (before.restore first)
    .ok (before.joined first.leave second)

def checkElse : Else → CheckState → Except AffineError CheckState
  | .nothing, state => .ok state
  | .block statements, state => do
    let state ← checkStmts statements state.enter
    .ok state.leave
  | .elseIf statement, state => checkIf statement state

/-- The statements of `_check_block`. -/
def checkStmts : List Stmt → CheckState → Except AffineError CheckState
  | [], state => .ok state
  | statement :: rest, state => do
    let state ← checkStmt statement state
    checkStmts rest state
end

/-- The parameters of a function. -/
def declareParameters : List Parameter → CheckState → Except AffineError CheckState
  | [], state => .ok state
  | parameter :: rest, state => do
    let state ← declareBinding affine parameter.name parameter.type false state
    declareParameters rest state

/-- The check of one function; the numbering of bindings goes on. -/
def checkFunction (function : FunctionDeclaration) (next : Nat) : Except AffineError Nat := do
  let state ← declareParameters affine function.parameters ⟨[[]], [], next⟩
  let state ← checkStmts affine function.body state
  .ok state.next

/-- `AffineResourceChecker.check`. -/
def checkFunctions : List FunctionDeclaration → Nat → Except AffineError Unit
  | [], _ => .ok ()
  | function :: rest, next => do
    let next ← checkFunction affine function next
    checkFunctions rest next

end Pass

end Koschei.Ownership
