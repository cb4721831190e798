import Koschei.Ast.Evaluate
import Koschei.Lib.Checks

/-!
# The integrity check of control flow

`integrity.py`: the names of top-level declarations are unique, nothing follows a
statement that always returns, and a function with a declared return type returns on
every path. The check reads the control flow off the tree: an if statement returns
when both its branches do.

At run time an if statement has a third way out. A condition that is an Error is the
value of the statement, and neither branch runs. A body that always returns is left
by its end exactly in this way, and `DeadEnd` follows the run to the if statement
that did it.
-/

namespace Koschei.Integrity

open Lib Ast

variable {σ : Type}

/-! ## The check -/

/-- The declarations of a module the check looks at. -/
structure Source where
  functions : List FunctionDeclaration
  structs : List String
  enums : List String

section Check

variable (function : FunctionDeclaration)

mutual
/-- `_check_statement`: whether a statement always returns. -/
def checkStatement : Stmt → Except Fault Bool
  | .ret value =>
    if function.returnNames.isNone && value.isSome && function.name != "main" then
      .error ⟨"KS1304", "'" ++ function.name ++ "' is a Void function and cannot return a value."⟩
    else .ok true
  | .ifThen statement => checkIf statement
  | .whileDo _ body _ => do
    let _ ← checkBlock false body
    pure false
  | .forIn _ _ body _ => do
    let _ ← checkBlock false body
    pure false
  | .letIn _ _ _ => .ok false
  | .expression _ => .ok false
  | .breakLoop => .ok false
  | .continueLoop => .ok false

/-- An if statement always returns when it has an else and both branches do. -/
def checkIf : IfStmt → Except Fault Bool
  | .mk _ thenBlock elseBranch => do
    let thenReturns ← checkBlock false thenBlock
    let elseReturns ← checkElse elseBranch
    pure (thenReturns && elseReturns)

def checkElse : Else → Except Fault Bool
  | .nothing => .ok false
  | .block statements => checkBlock false statements
  | .elseIf statement => checkIf statement

/-- `_check_block`, after statements the last of which always returns or does not. -/
def checkBlock : Bool → List Stmt → Except Fault Bool
  | terminated, [] => .ok terminated
  | terminated, statement :: rest =>
    if terminated then
      .error ⟨"KS1305", "This statement is unreachable because the previous control " ++
        "flow always returns."⟩
    else do
      let returns ← checkStatement statement
      checkBlock returns rest
end

def checkFunction : Except Fault Unit := do
  let returns ← checkBlock function false function.body
  match function.returnNames with
  | some names =>
    if returns then .ok ()
    else .error ⟨"KS1303", "'" ++ function.name ++ "' declares return type " ++
      " or ".intercalate names ++ " but not every control-flow path returns a value."⟩
  | none => .ok ()

end Check

variable {function : FunctionDeclaration} {rest statements : List Stmt} {statement : Stmt}

theorem checkBlock_cons (accepted : checkBlock function false (statement :: rest) = .ok true) :
    ∃ returns, checkStatement function statement = .ok returns ∧
      checkBlock function returns rest = .ok true := by
  rw [checkBlock, if_neg (by simp)] at accepted
  exact bind_eq_ok accepted

theorem checkBlock_last (accepted : checkBlock function false [statement] = .ok true) :
    checkStatement function statement = .ok true := by
  obtain ⟨returns, checked, rest⟩ := checkBlock_cons accepted
  rw [checkBlock] at rest
  cases rest
  exact checked

/-- Nothing that always returns comes before the rest of a block. -/
theorem checkBlock_more {next : Stmt}
    (accepted : checkBlock function false (statement :: next :: rest) = .ok true) :
    checkBlock function false (next :: rest) = .ok true := by
  obtain ⟨returns, -, rest⟩ := checkBlock_cons accepted
  cases returns with
  | false => exact rest
  | true =>
    rw [checkBlock, if_pos rfl] at rest
    cases rest

theorem checkIf_ok {condition : Expr} {thenBlock : List Stmt} {elseBranch : Else}
    (accepted : checkIf function (.mk condition thenBlock elseBranch) = .ok true) :
    checkBlock function false thenBlock = .ok true ∧ checkElse function elseBranch = .ok true := by
  rw [checkIf] at accepted
  obtain ⟨thenReturns, first, accepted⟩ := bind_eq_ok accepted
  obtain ⟨elseReturns, second, accepted⟩ := bind_eq_ok accepted
  have both : (thenReturns && elseReturns) = true := ok.inj accepted
  rw [and_eq_true] at both
  obtain ⟨rfl, rfl⟩ := both
  exact ⟨first, second⟩

theorem checkFunction_ok {names : List String} (declared : function.returnNames = some names)
    (accepted : checkFunction function = .ok ()) :
    checkBlock function false function.body = .ok true := by
  obtain ⟨returns, checked, accepted⟩ := bind_eq_ok accepted
  rw [declared] at accepted
  cases returns with
  | true => exact checked
  | false => cases accepted

/-! ## The way out by an Error -/

/-- The state inside a scope of its own. -/
def entered (state : State σ) : State σ := { state with scopes := [] :: state.scopes }

/-- The run of a block gets to an if statement at its end whose condition is an Error. -/
inductive DeadEnd (context : Context σ) : Nat → List Stmt → State σ → Prop
  | condition {fuel : Nat} {condition : Expr} {thenBlock : List Stmt} {elseBranch : Else}
      {state state' : State σ} {value : Value}
      (evaluates : (meaning context fuel).expr condition state = .ok value state')
      (isError : value.isError = true) :
      DeadEnd context (fuel + 1) [.ifThen (.mk condition thenBlock elseBranch)] state
  | thenBlock {fuel : Nat} {condition : Expr} {thenBlock : List Stmt} {elseBranch : Else}
      {state state' : State σ} {value : Value}
      (evaluates : (meaning context fuel).expr condition state = .ok value state')
      (noError : value.isError = false) (holds : context.runtime.host.truthy value = true)
      (ends : DeadEnd context fuel thenBlock (entered state')) :
      DeadEnd context (fuel + 1) [.ifThen (.mk condition thenBlock elseBranch)] state
  | elseBlock {fuel : Nat} {condition : Expr} {thenBlock statements : List Stmt}
      {state state' : State σ} {value : Value}
      (evaluates : (meaning context fuel).expr condition state = .ok value state')
      (noError : value.isError = false) (fails : context.runtime.host.truthy value = false)
      (ends : DeadEnd context fuel statements (entered state')) :
      DeadEnd context (fuel + 1) [.ifThen (.mk condition thenBlock (.block statements))] state
  | elseIf {fuel : Nat} {condition : Expr} {thenBlock : List Stmt} {statement : IfStmt}
      {state state' : State σ} {value : Value}
      (evaluates : (meaning context fuel).expr condition state = .ok value state')
      (noError : value.isError = false) (fails : context.runtime.host.truthy value = false)
      (ends : DeadEnd context fuel [.ifThen statement] state') :
      DeadEnd context (fuel + 1) [.ifThen (.mk condition thenBlock (.elseIf statement))] state
  | later {fuel : Nat} {statement next : Stmt} {rest : List Stmt} {state state' : State σ}
      {value : Value} (runs : (meaning context fuel).stmt statement state = .ok value state')
      (ends : DeadEnd context fuel (next :: rest) state') :
      DeadEnd context fuel (statement :: next :: rest) state

variable {m : Meaning σ} {state state' : State σ} {value : Value}

/-- A block is left normally by what its statements do in a scope of their own. -/
theorem executeBlock_ok :
    executeBlock m statements state = .ok value state' ↔
      ∃ inner, executeStatements m statements .unit (entered state) = .ok value inner ∧
        state' = { inner with scopes := inner.scopes.tail } := by
  unfold executeBlock inScope Comp.finallyDo entered
  cases executeStatements m statements .unit { state with scopes := [] :: state.scopes } with
  | ok a s => simp [eq_comm]
  | raise e s => simp
  | timeout => simp

theorem executeStatements_single (statement : Stmt) (result : Value) :
    executeStatements m [statement] result = m.stmt statement := by
  funext state
  simp only [executeStatements, bind_apply]
  cases m.stmt statement state with
  | ok a s => rfl
  | raise e s => rfl
  | timeout => rfl

/-- **A body that always returns is left by its end only at a dead end**, and then with an
Error. -/
theorem deadEnd_of_completes {context : Context σ} {fuel : Nat}
    (accepted : checkBlock function false statements = .ok true)
    (completes : executeStatements (meaning context fuel) statements .unit state =
      .ok value state') :
    DeadEnd context fuel statements state ∧ value.isError = true := by
  induction fuel generalizing statements state state' value with
  | zero =>
    cases statements with
    | nil => cases accepted
    | cons statement rest => cases completes
  | succ fuel ih =>
    -- The fuel is the same along the statements of a block and less inside a branch.
    induction statements generalizing state with
    | nil => cases accepted
    | cons statement rest ihRest =>
      cases rest with
      | cons next rest =>
        obtain ⟨first, middle, runs, completes⟩ := andThen_eq_ok.mp completes
        have last := ihRest (checkBlock_more accepted) completes
        exact ⟨.later runs last.1, last.2⟩
      | nil =>
        have returns := checkBlock_last accepted
        rw [executeStatements_single] at completes
        change stmtStep context (meaning context fuel) statement state = _ at completes
        cases statement with
        | ret result =>
          cases result with
          | none => cases completes
          | some result =>
            obtain ⟨_, _, _, raised⟩ := andThen_eq_ok.mp completes
            cases raised
        | ifThen statement =>
          obtain ⟨condition, thenBlock, elseBranch⟩ := statement
          rw [checkStatement] at returns
          obtain ⟨thenReturns, elseReturns⟩ := checkIf_ok returns
          obtain ⟨test, middle, evaluates, completes⟩ := andThen_eq_ok.mp completes
          split at completes
          · rename_i isError
            cases completes
            exact ⟨.condition evaluates isError, isError⟩
          · rename_i noError
            rw [not_eq_true] at noError
            split at completes
            · rename_i holds
              obtain ⟨inner, completes, -⟩ := executeBlock_ok.mp completes
              have inside := ih thenReturns completes
              exact ⟨.thenBlock evaluates noError holds inside.1, inside.2⟩
            · rename_i fails
              rw [not_eq_true] at fails
              cases elseBranch with
              | nothing => cases elseReturns
              | block statements =>
                rw [checkElse] at elseReturns
                obtain ⟨inner, completes, -⟩ := executeBlock_ok.mp completes
                have inside := ih elseReturns completes
                exact ⟨.elseBlock evaluates noError fails inside.1, inside.2⟩
              | elseIf statement =>
                rw [checkElse] at elseReturns
                have single : checkBlock function false [.ifThen statement] = .ok true := by
                  rw [checkBlock, if_neg (by simp), checkStatement, elseReturns]
                  rfl
                change (meaning context fuel).stmt (.ifThen statement) middle = _ at completes
                rw [← executeStatements_single _ .unit] at completes
                have inside := ih single completes
                exact ⟨.elseIf evaluates noError fails inside.1, inside.2⟩
        | letIn name isMutable value => cases returns
        | expression expression => cases returns
        | whileDo condition body bodyType =>
          rw [checkStatement] at returns
          obtain ⟨_, _, returns⟩ := bind_eq_ok returns
          cases returns
        | forIn name iterable body bodyType =>
          rw [checkStatement] at returns
          obtain ⟨_, _, returns⟩ := bind_eq_ok returns
          cases returns
        | breakLoop => cases returns
        | continueLoop => cases returns

end Koschei.Integrity
