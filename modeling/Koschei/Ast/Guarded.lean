import Koschei.Ast.Evaluate

/-!
# Runs whose steps meet conditions

Some properties of a run depend on what its steps are applied to: which value is
invoked with what, which operands meet in an operator, which record a field
assignment writes. `Conditions` is what is asked of these; the guarded evaluation
is the interpreter's, and is stopped as soon as a step does not meet its
condition. So a guarded run that is not stopped is a run of the interpreter in
which every step meets its condition.

What holds all along a run is seen by watching it: the watched evaluation is the
interpreter's too, and raises an alarm as soon as a state or a value comes up that
is not as it should be. Stopping and the alarm are faults of their own, so a run
shows them also where the interpreter does not end.

The trees it runs on are those the parser builds: their literals are scalars.
-/

namespace Koschei.Ast

open Lib

variable {σ : Type}

/-! ## Parsed trees -/

/-- The values a literal of the source denotes. -/
def IsLiteral : Value → Prop
  | .bool _ | .int _ | .float _ | .str _ => True
  | _ => False

mutual
def Expr.Parsed : Expr → Prop
  | .literal value _ => IsLiteral value
  | .ident _ _ => True
  | .interpolated parts _ => ParsedAll parts
  | .list items _ => ParsedAll items
  | .map entries _ => ParsedEntries entries
  | .struct _ fields _ _ => ParsedFields fields
  | .member object _ _ => object.Parsed
  | .call callee arguments _ _ => callee.Parsed ∧ ParsedAll arguments
  | .assign _ value _ => value.Parsed
  | .assignField _ _ _ value _ => value.Parsed
  | .binary left _ right _ => left.Parsed ∧ right.Parsed
  | .unary _ operand _ => operand.Parsed
  | .orReturn value none _ => value.Parsed
  | .orReturn value (some error) _ => value.Parsed ∧ error.Parsed
  | .orElse value fallback _ => value.Parsed ∧ fallback.Parsed
  | .orBlock value handler _ => value.Parsed ∧ ParsedStmts handler
  | .matchOn value arms _ _ => value.Parsed ∧ ParsedArms arms

def ParsedAll : List Expr → Prop
  | [] => True
  | expression :: rest => expression.Parsed ∧ ParsedAll rest

def ParsedEntries : List (Expr × Expr) → Prop
  | [] => True
  | (key, value) :: rest => key.Parsed ∧ value.Parsed ∧ ParsedEntries rest

def ParsedFields : List (String × Expr) → Prop
  | [] => True
  | (_, value) :: rest => value.Parsed ∧ ParsedFields rest

def ParsedArms : List Arm → Prop
  | [] => True
  | .expression _ _ _ body :: rest => body.Parsed ∧ ParsedArms rest
  | .block _ _ _ body :: rest => ParsedStmts body ∧ ParsedArms rest

/-- A statement as the parser builds it. -/
def Stmt.Parsed : Stmt → Prop
  | .letIn _ _ value => value.Parsed
  | .ret none => True
  | .ret (some value) => value.Parsed
  | .expression expression => expression.Parsed
  | .ifThen statement => statement.Parsed
  | .whileDo condition body _ => condition.Parsed ∧ ParsedStmts body
  | .forIn _ iterable body _ => iterable.Parsed ∧ ParsedStmts body
  | .breakLoop => True
  | .continueLoop => True

def IfStmt.Parsed : IfStmt → Prop
  | .mk condition thenBlock elseBranch =>
    condition.Parsed ∧ ParsedStmts thenBlock ∧ elseBranch.Parsed

def Else.Parsed : Else → Prop
  | .nothing => True
  | .block statements => ParsedStmts statements
  | .elseIf statement => statement.Parsed

def ParsedStmts : List Stmt → Prop
  | [] => True
  | statement :: rest => statement.Parsed ∧ ParsedStmts rest
end

/-- The body of an arm as the parser builds it. -/
def Arm.Parsed : Arm → Prop
  | .expression _ _ _ body => body.Parsed
  | .block _ _ _ body => ParsedStmts body

theorem parsedArms_iff {arms : List Arm} : ParsedArms arms ↔ ∀ arm ∈ arms, arm.Parsed := by
  induction arms with
  | nil => simp [ParsedArms]
  | cons arm rest ih =>
    cases arm with
    | expression => simp [ParsedArms, Arm.Parsed, ih]
    | block => simp [ParsedArms, Arm.Parsed, ih]

def Program.Parsed (program : Program) : Prop :=
  ∀ module ∈ program.modules, ∀ function ∈ module.functions, ParsedStmts function.body

theorem Program.Parsed.body {program : Program} (parsed : program.Parsed) {key name : String}
    {module : Module} {function : FunctionDeclaration}
    (found : program.moduleFunction key name = .ok (module, function)) :
    ParsedStmts function.body := by
  obtain ⟨inProgram, inModule⟩ := Program.moduleFunction_ok found
  exact parsed _ (mem_of_find?_eq_some inProgram) _ (mem_of_find?_eq_some inModule)

/-! ## Conditions -/

/-- What is asked of the steps of a run, given the host state they are taken in, and the fault
a guarded run is stopped with where it is not met. -/
structure Conditions (σ : Type) where
  stop : Fault
  invoke : σ → Value → List Value → Bool
  operands : BinaryOperator → Value → Value → Bool
  write : σ → Value → String → Value → Bool

def NotBothInts (left right : Value) : Prop := ∀ i j, left = .int i → right ≠ .int j

/-- Nothing is asked. -/
def Conditions.none (stop : Fault) : Conditions σ :=
  ⟨stop, fun _ _ _ => true, fun _ _ _ => true, fun _ _ _ _ => true⟩

def calleeValue (context : Context σ) (m : Meaning σ) (callee : Expr)
    (resolution : CallResolution) : Eval σ Value :=
  match callForm context.runtime.host callee resolution with
  | .plain => m.expr callee
  | .construct name => context.interpreterName name
  | .capability object name _ _ _ _ | .mapMethod object name _ => do
    let receiver ← m.expr object
    exec (context.interpreterMember receiver name)

/-- Whether the step an expression takes in a state meets its condition. -/
def meets (conditions : Conditions σ) (context : Context σ) (m : Meaning σ) : Expr → State σ → Bool
  | .call callee arguments resolution _, state =>
    (calleeValue context m callee resolution state).all fun function before =>
      (evaluateAll m arguments before).all fun values after =>
        conditions.invoke after.store.host function values
  | .binary left operator right _, state =>
    (m.expr left state).all fun first before =>
      (m.expr right before).all fun second _ => conditions.operands operator first second
  | .assignField object _ field value _, state =>
    (m.expr value state).all fun result after =>
      (resolve after.scopes object).all fun cell =>
        conditions.write after.store.host cell.value field result
  | _, _ => true

/-- What is known of the step of an expression that meets its condition. -/
def Meets (conditions : Conditions σ) (context : Context σ) (m : Meaning σ) : Expr → State σ → Prop
  | .call callee arguments resolution _, state =>
    ∀ function before values after,
      calleeValue context m callee resolution state = .ok function before →
        evaluateAll m arguments before = .ok values after →
          conditions.invoke after.store.host function values
  | .binary left operator right _, state =>
    ∀ first before second after, m.expr left state = .ok first before →
      m.expr right before = .ok second after → conditions.operands operator first second
  | .assignField object _ field value _, state =>
    ∀ result after cell, m.expr value state = .ok result after →
      resolve after.scopes object = some cell →
        conditions.write after.store.host cell.value field result
  | _, _ => True

theorem meets_of_eq_true {conditions : Conditions σ} {context : Context σ} {m : Meaning σ}
    {e : Expr} {state : State σ} (met : meets conditions context m e state = true) :
    Meets conditions context m e state := by
  cases e with
  | call callee arguments resolution type =>
    intro function before values after evaluated others
    simpa only [meets, evaluated, others, Outcome.all] using met
  | binary left operator right type =>
    intro first before second after evaluated other
    simpa only [meets, evaluated, other, Outcome.all] using met
  | assignField object objectType field value type =>
    intro result after cell evaluated found
    simpa only [meets, evaluated, found, Outcome.all, Option.all] using met
  | _ => trivial

/-- What is computed with some fuel by steps that meet their conditions. -/
def guardedMeaning (conditions : Conditions σ) (context : Context σ) : Nat → Meaning σ
  | 0 => ⟨fun _ => timeout, fun _ => timeout, fun _ _ _ => timeout⟩
  | fuel + 1 =>
    let m := guardedMeaning conditions context fuel
    ⟨fun e state =>
        if meets conditions context m e state then exprStep context m e state
        else .raise (.fault conditions.stop) state,
      stmtStep context m, whileStep context m⟩

/-- A call of the interpreter whose steps meet their conditions. -/
def guardedCall (conditions : Conditions σ) (setting : Setting σ) : Nat → Caller σ
  | 0, _, _, _ => timeout
  | fuel + 1, moduleKey, functionName, arguments =>
    match setting.program.moduleFunction moduleKey functionName with
    | .error fault => Lane.interpreter.callFault fault
    | .ok (module, function) =>
      let context : Context σ := ⟨setting.runtime, setting.inference, Lane.interpreter,
        setting.program, module, guardedCall conditions setting fuel⟩
      asCall Lane.interpreter [parameterScope function.parameters arguments]
        (callBody setting context (guardedMeaning conditions context fuel) function arguments)

theorem meets_none (stop : Fault) (context : Context σ) (m : Meaning σ) (e : Expr) (state : State σ) :
    meets (Conditions.none stop) context m e state = true := by
  cases e with
  | call => simp only [meets, Conditions.none, Outcome.all_true]
  | binary => simp only [meets, Conditions.none, Outcome.all_true]
  | assignField => simp [meets, Conditions.none, Outcome.all_true]
  | _ => rfl

theorem guardedMeaning_none (stop : Fault) (context : Context σ) (fuel : Nat) :
    guardedMeaning (Conditions.none stop) context fuel = meaning context fuel := by
  induction fuel with
  | zero => rfl
  | succ fuel ih =>
    simp only [guardedMeaning, meaning, ih, meets_none, if_true]

/-- Where nothing is asked, the guarded run is the interpreter's. -/
theorem guardedCall_none (stop : Fault) (setting : Setting σ) (fuel : Nat) :
    guardedCall (Conditions.none stop) setting fuel = callFunction Lane.interpreter setting fuel := by
  induction fuel with
  | zero => rfl
  | succ fuel ih =>
    funext moduleKey functionName arguments
    unfold guardedCall callFunction
    rw [ih]
    cases setting.program.moduleFunction moduleKey functionName with
    | error fault => rfl
    | ok found =>
      dsimp only
      rw [guardedMeaning_none]

/-! ## Watched runs -/

/-- What a run is watched for: the states in which expressions and statements start and end,
and the values they end with. -/
structure Watch (σ : Type) where
  state : State σ → Prop
  value : Value → Prop

/-- The fault a watched run raises. -/
def alarm : Fault := ⟨"alarm", ""⟩

/-- Everything is as it should be. -/
def Watch.anything : Watch σ := ⟨fun _ => True, fun _ => True⟩

open Classical in
noncomputable def watched (watch : Watch σ) (x : Eval σ Value) : Eval σ Value := fun state =>
  if watch.state state then
    match x state with
    | .timeout => .timeout
    | .ok value after =>
      if watch.value value ∧ watch.state after then .ok value after
      else .raise (.fault alarm) after
    | .raise signal after =>
      if watch.state after then .raise signal after else .raise (.fault alarm) after
  else .raise (.fault alarm) state

/-- What is computed with some fuel under a watch. -/
noncomputable def watchedMeaning (watch : Watch σ) (context : Context σ) : Nat → Meaning σ
  | 0 => ⟨fun _ => timeout, fun _ => timeout, fun _ _ _ => timeout⟩
  | fuel + 1 =>
    let m := watchedMeaning watch context fuel
    ⟨fun e => watched watch (exprStep context m e), fun s => watched watch (stmtStep context m s),
      whileStep context m⟩

noncomputable def watchedCall (watch : Watch σ) (setting : Setting σ) : Nat → Caller σ
  | 0, _, _, _ => timeout
  | fuel + 1, moduleKey, functionName, arguments =>
    match setting.program.moduleFunction moduleKey functionName with
    | .error fault => Lane.interpreter.callFault fault
    | .ok (module, function) =>
      let context : Context σ := ⟨setting.runtime, setting.inference, Lane.interpreter,
        setting.program, module, watchedCall watch setting fuel⟩
      asCall Lane.interpreter [parameterScope function.parameters arguments]
        (callBody setting context (watchedMeaning watch context fuel) function arguments)

theorem watched_anything (x : Eval σ Value) : watched Watch.anything x = x := by
  funext state
  simp only [watched, Watch.anything, if_true, and_self]
  cases x state with
  | ok value after => rfl
  | raise signal after => exact if_pos trivial
  | timeout => rfl

theorem watchedMeaning_anything (context : Context σ) (fuel : Nat) :
    watchedMeaning Watch.anything context fuel = meaning context fuel := by
  induction fuel with
  | zero => rfl
  | succ fuel ih => simp only [watchedMeaning, meaning, ih, watched_anything]

/-- Where nothing is watched for, the run is the interpreter's. -/
theorem watchedCall_anything (setting : Setting σ) (fuel : Nat) :
    watchedCall Watch.anything setting fuel = callFunction Lane.interpreter setting fuel := by
  induction fuel with
  | zero => rfl
  | succ fuel ih =>
    funext moduleKey functionName arguments
    unfold watchedCall callFunction
    rw [ih]
    cases setting.program.moduleFunction moduleKey functionName with
    | error fault => rfl
    | ok found =>
      dsimp only
      rw [watchedMeaning_anything]

end Koschei.Ast
