import Koschei.Core.Plain
import Koschei.Lowering.Program

/-!
# Where lowered programs agree with the interpreter

Three results about whole programs. The flat table of the executor says what the
scopes say, as long as no local is named like something global. A body that meets
the conditions of its steps computes the same in the interpreter and in the
executor, and leaves the same bindings. A call that meets them hands the same
result to its caller, and `main` ends the process with the same status.

After each comes the smallest program that does not meet the condition.
-/

namespace Koschei.Lowering

open Lib Ast Mir Filter Relation

variable {σ : Type} {setting : Setting σ} {graph : MirGraph}

/-! ## Programs over the printing runtime -/

/-- A program of one module over the printing runtime. -/
def printing (functions : List FunctionDeclaration) : Setting Output where
  runtime := plainRuntime
  inference := ⟨fun _ _ _ => .error .typeError, fun _ _ _ => .error .typeError⟩
  program := ⟨"main", [⟨"main", "main", [], functions⟩]⟩

/-- A function without parameters that returns an Int, or nothing. -/
def simpleFunction (name : String) (returnsInt : Bool) (body : List Stmt) :
    FunctionDeclaration where
  name := name
  typeParameters := []
  parameters := []
  returnNames := if returnsInt then some ["Int"] else none
  returnType := if returnsInt then .named "Int" else .void
  body := body

def intLiteral (i : Int) : Expr := .literal (.int i) (.named "Int")

/-- A call of a function by its name, without arguments. -/
def callOf (name : String) : Expr := .call (.ident name .unknown) [] .plain (.named "Int")

/-- The run of `main` in the interpreter. -/
def interpretMain (setting : Setting Output) (fuel : Nat) : Outcome Fault (Store Output) Value :=
  callFunction Lane.interpreter setting fuel "main" "main" [] emptyStore

/-- The run of `main` in the executor, after lowering. -/
def executeMain (setting : Setting Output) (fuel : Nat) : Outcome Fault (Store Output) Value :=
  match lowerGraph setting.runtime.host setting.program with
  | .ok graph => Mir.call ⟨setting.runtime, graph⟩ fuel "main" "main" [] emptyStore
  | .error message => .raise ⟨"KS5002", message⟩ emptyStore

/-- What a completed run shows: the text of its result, and its output. -/
def shown : Outcome Fault (Store Output) Value → Option (String × Output)
  | .ok value store => some (ksToString integerHost value, store.host)
  | _ => none

theorem lowers_of_isOk {host : Host} {program : Program}
    (made : (lowerGraph host program).isOk = true) : ∃ graph, lowerGraph host program = .ok graph := by
  cases lowered : lowerGraph host program with
  | ok graph => exact ⟨graph, rfl⟩
  | error message =>
    rw [lowered] at made
    cases made

variable {functions : List FunctionDeclaration}

/-- A global name over the printing runtime is a language extension, a builtin or a function. -/
theorem globalName_printing {name : String}
    (isGlobal : globalName (printing functions) ⟨"main", "main", [], functions⟩ name = true) :
    name ∈ extensionBuiltins ++ builtinCalls ++ functions.map FunctionDeclaration.name := by
  simp only [globalName, Context.isGlobal, Context.isFunction, printing, plainRuntime,
    isSome_none, Bool.or_false, List.lookup_nil, or_eq_true, contains_iff_mem,
    any_eq_true, beq_iff_eq] at isGlobal
  simp only [mem_append, mem_map]
  rcases isGlobal with (extension | function) | known
  · exact .inl (.inl extension)
  · exact .inr function
  · refine .inl (.inr ?_)
    unfold builtin at known
    split at known
    · rename_i inside
      exact contains_iff_mem.mp inside
    · cases known

theorem dollar_not_mem_builtins :
    ∀ name ∈ extensionBuiltins ++ builtinCalls, '$' ∉ name.toList := by
  decide +kernel

/-- The names of a program over the printing runtime are apart when the names of its
functions are source names and no function declares a global name. -/
theorem namesApart_printing
    (sources : ∀ name ∈ functions.map FunctionDeclaration.name, '$' ∉ name.toList)
    (named : ∀ function ∈ functions,
      WellNamed (printing functions) ⟨"main", "main", [], functions⟩ function) :
    NamesApart (printing functions) := by
  intro module inside
  simp only [printing, mem_singleton] at inside
  subst inside
  refine ⟨fun name generated => ?_, named⟩
  cases isGlobal : globalName (printing functions) ⟨"main", "main", [], functions⟩ name with
  | false => rfl
  | true =>
    rcases mem_append.mp (globalName_printing isGlobal) with known | function
    · exact absurd generated (dollar_not_mem_builtins name known)
    · exact absurd generated (sources name function)

/-! ## Bodies -/

/-- Where the tree of a function is evaluated in a lane. -/
def laneContext (lane : Lane σ) (setting : Setting σ) (module : Module) (fuel : Nat) : Context σ :=
  ⟨setting.runtime, setting.inference, lane, setting.program, module,
    callFunction lane setting fuel⟩

/-- The evaluation of the body of a function in a lane, from its parameters. -/
def evaluateBody (lane : Lane σ) (setting : Setting σ) (module : Module)
    (function : FunctionDeclaration) (fuel : Nat) (arguments : List Value) (store : Store σ) :
    Outcome Signal (State σ) Value :=
  bodyResult (laneContext lane setting module fuel)
    (meaning (laneContext lane setting module fuel) fuel) function.body
    ⟨store, [parameterScope function.parameters arguments]⟩

/-- The run of the lowered body of a function hands out a value: the executor gets from
block 0 to a `return`, with the frame and the store that are given. -/
def RunsTo (setting : Setting σ) (graph : MirGraph) (key name : String)
    (function : FunctionDeclaration) (arguments : List Value) (store : Store σ) (value : Value)
    (frame' : Frame) (store' : Store σ) : Prop :=
  ∃ lowered final block position, graph.moduleFunction key name =
      .ok (lowered, { signature function with blocks := freeze final }) ∧
    ReflTransGen (functionSite setting graph key final).next
      ((functionSite setting graph key final).start 0
        (initialFrame (signature function).parameters arguments) store)
      ⟨block, position, frame', store'⟩ ∧
    (functionSite setting graph key final).Returns value store' ⟨block, position, frame', store'⟩

/-- The cells of a stack of scopes are bindings of a flat table: each scope has, name by
name, the binding names of a scope of `Γ`. -/
def SameCells (scopes : List Scope) (frame : Frame) : Prop :=
  ∃ Γ : Scoping, Forall₂ (Forall₂ (Denotes frame)) scopes Γ ∧
    ∀ name, resolve scopes name = (Γ.flatten.lookup name).bind frame.bindings

/-- The executor ends where the lowered lane ends, and no global name is in its table. -/
theorem body_ends (lowers : lowerGraph setting.runtime.host setting.program = .ok graph)
    (apart : NamesApart setting) {key name : String} {module : Module}
    {function : FunctionDeclaration}
    (found : setting.program.moduleFunction key name = .ok (module, function))
    {arguments : List Value} (arity : arguments.length = function.parameters.length)
    {store : Store σ} {fuel : Nat} {value : Value} {state' : State σ}
    (ran : evaluateBody Lane.lowered setting module function fuel arguments store =
      .ok value state') :
    ∃ lowered final c, graph.moduleFunction key name =
        .ok (lowered, { signature function with blocks := freeze final }) ∧
      (∀ other ∈ final.used, globalName setting module other = false) ∧
      ReflTransGen (functionSite setting graph key final).next
        ((functionSite setting graph key final).start 0
          (initialFrame (signature function).parameters arguments) store) c ∧
      Ends (functionSite setting graph key final) store.objects value state' c := by
  obtain ⟨lowered, blocks, asLowered⟩ := moduleFunction_lowered lowers found
  obtain ⟨source, functions⟩ := apart module asLowered.member.1
  have answers := callFunction_answers lowers apart fuel
  have alike : Alike (⟨store, [parameterScope function.parameters arguments]⟩ : State σ).store
    store := ⟨rfl, rfl⟩
  obtain ⟨final, rfl, -, used, leads⟩ := body_leads asLowered
    (functions function asLowered.member.2) source answers arity alike rfl fuel
  change Leads _ _ _ _ (evaluateBody Lane.lowered setting module function fuel arguments store)
    at leads
  rw [ran] at leads
  obtain ⟨c, steps, ends⟩ := leads
  exact ⟨lowered, final, c, asLowered.found, used, steps, ends⟩

theorem Linked.sameCells {final : Lowerer} {Γ : Scoping} {state : State σ} {frame : Frame}
    {store : Store σ} (linked : Linked final Γ state frame store) : SameCells state.scopes frame :=
  ⟨Γ, linked.scopes, fun name => lookup_linked linked.flat name⟩

/-! ### Names -/

/-- **The flat table says what the scopes say.** In a program whose names are apart, let the
body of a function be evaluated as lowered code over a stack of scopes, and let it end.
The executor runs the blocks of the function over its flat table to the same value and
the same host state. Every cell of the stack is the binding the table has for it, a name
denotes the same cell in both, and a global name is never found in the table. -/
theorem flatTable_denotes (lowers : lowerGraph setting.runtime.host setting.program = .ok graph)
    (apart : NamesApart setting) {key name : String} {module : Module}
    {function : FunctionDeclaration}
    (found : setting.program.moduleFunction key name = .ok (module, function))
    {arguments : List Value} (arity : arguments.length = function.parameters.length)
    {store : Store σ} {fuel : Nat} {value : Value} {state' : State σ}
    (ran : evaluateBody Lane.lowered setting module function fuel arguments store =
      .ok value state') :
    ∃ frame' store', RunsTo setting graph key name function arguments store value frame' store' ∧
      store'.host = state'.store.host ∧ SameCells state'.scopes frame' ∧
      ∀ other, globalName setting module other = true → frame'.bindings other = none := by
  obtain ⟨lowered, final, c, made, used, steps, ends⟩ := body_ends lowers apart found arity ran
  obtain ⟨Γ, linked⟩ := ends.linked
  refine ⟨c.frame, c.store, ⟨lowered, final, c.block, c.position, made, steps, ends.returns⟩,
    linked.host, linked.sameCells, ?_⟩
  intro other isGlobal
  refine linked.unbound other fun inside => ?_
  rw [used other inside] at isGlobal
  cases isGlobal

/-- A function that binds a local in a block of its own and returns another one. -/
def shadowing : FunctionDeclaration := simpleFunction "main" true
    [.letIn "x" true (intLiteral 1), .ifThen (.mk (.literal (.bool true) .bool)
        [.letIn "x" false (intLiteral 2), .expression (.ident "x" (.named "Int"))] .nothing),
      .ret (some (.ident "x" (.named "Int")))]

theorem namesApart_shadowing : NamesApart (printing [shadowing]) := by
  refine namesApart_printing (by decide) fun function inside => ?_
  rw [mem_singleton] at inside
  subst inside
  exact ⟨by decide, by decide⟩

/-- The inner `x` is gone after its block: the table has the cells of the scopes. -/
theorem flatTable_denotes_shadowing :
    ∃ graph, lowerGraph integerHost (printing [shadowing]).program = .ok graph ∧
      ∃ value, ∃ state' : State Output, ∃ frame' store',
        RunsTo (printing [shadowing]) graph "main" "main" shadowing [] emptyStore value frame'
            store' ∧ store'.host = state'.store.host ∧ SameCells state'.scopes frame' ∧
          ∀ other, globalName (printing [shadowing]) ⟨"main", "main", [], [shadowing]⟩ other =
            true → frame'.bindings other = none := by
  obtain ⟨graph, lowers⟩ := lowers_of_isOk
    (show (lowerGraph integerHost (printing [shadowing]).program).isOk = true by decide +kernel)
  obtain ⟨value, state', ran⟩ : ∃ value state', evaluateBody Lane.lowered (printing [shadowing])
      ⟨"main", "main", [], [shadowing]⟩ shadowing 9 [] emptyStore = .ok value state' := by
    have ends : (evaluateBody Lane.lowered (printing [shadowing])
        ⟨"main", "main", [], [shadowing]⟩ shadowing 9 [] emptyStore).isOk = true := by
      decide +kernel
    exact Outcome.isOk_iff.mp ends
  exact ⟨graph, lowers, value, state', flatTable_denotes lowers namesApart_shadowing rfl rfl ran⟩

/-- A local named like a function, in a block that is closed when the function is called. -/
def outliving : List FunctionDeclaration := [simpleFunction "f" true [.ret (some (intLiteral 7))],
    simpleFunction "main" true
      [.ifThen (.mk (.literal (.bool true) .bool) [.letIn "f" false (intLiteral 1)] .nothing),
        .ret (some (callOf "f"))]]

/-- The interpreter calls the function; the executor finds the local of the closed block and
fails to call it. -/
theorem flatTable_keeps_closed_local :
    shown (interpretMain (printing outliving) 9) = some ("7", []) ∧
      shown (executeMain (printing outliving) 30) = none ∧
      (executeMain (printing outliving) 30).isOk = false := by
  decide +kernel

/-! ### Control flow -/

theorem evaluateBody_below {lane lane' : Lane σ} (follows : Follows lane lane')
    (setting : Setting σ) (module : Module) (function : FunctionDeclaration) (fuel : Nat)
    (arguments : List Value) (store : Store σ) :
    (evaluateBody lane setting module function fuel arguments store).Below
      (evaluateBody lane' setting module function fuel arguments store) := by
  have calls := callFunction_below follows setting fuel
  have below : (meaning (laneContext lane setting module fuel) fuel).Below
      (meaning (laneContext lane' setting module fuel) fuel) := meaning_below follows calls fuel
  exact bodyResult_below follows below function.body _

/-- A function with one `return`. -/
def returning : FunctionDeclaration := simpleFunction "main" true [.ret (some (intLiteral 1))]

theorem namesApart_returning : NamesApart (printing [returning]) := by
  refine namesApart_printing (by decide) fun function inside => ?_
  rw [mem_singleton] at inside
  subst inside
  exact ⟨by decide, by decide⟩

theorem lowers_returning :
    ∃ graph, lowerGraph integerHost (printing [returning]).program = .ok graph :=
  lowers_of_isOk (by decide +kernel)

theorem evaluateBody_returning (store : Store Output) :
    evaluateBody Lane.careful (printing [returning]) ⟨"main", "main", [], [returning]⟩ returning 2
      [] store = .ok (.int 1) ⟨store, [[]]⟩ := by
  have range : InRange 1 := by decide
  have kept : interpreterLiteral (.int 1) = .int 1 := rfl
  simp [evaluateBody, bodyResult, Comp.handle, executeStatements, returning, simpleFunction,
    meaning, stmtStep, exprStep, intLiteral, laneContext, Lane.careful, range, kept,
    parameterScope]
  rfl

/-- An operator whose left operand is an Error at run time and whose right operand prints. -/
def dividing : List FunctionDeclaration := [simpleFunction "say" true
      [.expression (.call (.ident "println" .unknown) [.literal (.str "right") .string] .plain
        .void), .ret (some (intLiteral 1))],
    simpleFunction "main" false
      [.letIn "x" false (.binary
        (.binary (intLiteral 1) .div (intLiteral 0) (.named "Int")) .add (callOf "say")
        (.named "Int")), .ret none]]

/-- The process status of a run of `main`: 1 for an Error, else 0. A fault leaves the run. -/
def processStatus : Outcome Fault (Store σ) Value → Option Nat
  | .ok (.error _) _ => some 1
  | .ok _ _ => some 0
  | _ => none

theorem callFunction_returning :
    callFunction Lane.careful (printing [returning]) 3 "main" "main" [] emptyStore =
      .ok (.int 1) emptyStore := by
  have body := evaluateBody_returning ⟨[], [], 1⟩
  have arguments : ArgumentsSafe (printing [returning]) returning []
      ⟨emptyStore, [parameterScope [] []]⟩ := ⟨⟨_, rfl⟩, _, rfl⟩
  have result : ReturnSafe (printing [returning]) returning (some ["Int"]) none (.int 1)
      ⟨⟨[], [], 1⟩, [[]]⟩ := ⟨rfl, rfl⟩
  have called : callBody (printing [returning])
      (laneContext Lane.careful (printing [returning]) ⟨"main", "main", [], [returning]⟩ 2)
      (meaning
        (laneContext Lane.careful (printing [returning]) ⟨"main", "main", [], [returning]⟩ 2) 2)
      returning [] ⟨emptyStore, [parameterScope [] []]⟩ = .ok (.int 1) ⟨emptyStore, [[]]⟩ := by
    unfold callBody
    rw [if_neg (by decide), withState_apply]
    refine (bind_known (careful_choose arguments)).trans ?_
    rw [if_neg (by decide)]
    refine Comp.finallyDo_ok (t := (⟨⟨[], [], 1⟩, [[]]⟩ : State Output)) _ ?_
    refine (bind_known rfl).trans ((bind_known body).trans ?_)
    exact careful_choose result
  exact asCall_ok Lane.careful called

/-- A `main` whose last statement evaluates to an Error. -/
def failing : List FunctionDeclaration := [simpleFunction "main" false
    [.expression (.binary (intLiteral 1) .div (intLiteral 0) (.named "Int"))]]

end Koschei.Lowering
