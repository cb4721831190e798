import Koschei.Lanes.Arithmetic
import Koschei.Lowering.Lower

/-!
# Integer literals in the three lanes

The checker admits a literal up to `INT_MAX`, and up to `2^63` directly under a
unary minus. The interpreter folds the minus into such a literal before it
checks the range. Lowering does not: it emits a constant and then a negation.
The canonical executor checks the range of every constant, so `2^63` becomes an
`Error` there and the negation keeps it; the native executor checks no constant
and negates `2^63` to `INT_MIN`.
-/

namespace Koschei.Lanes

open Lib Ast Lowering Native

variable {σ τ : Type}

/-- A literal, or unary minus applied to one, as the checker types it. -/
def literalExpr (negated : Bool) (magnitude : Nat) : Expr := if negated then
    .unary .neg (.literal (.int magnitude) (.named "Int")) (.named "Int")
  else .literal (.int magnitude) (.named "Int")

def CheckedLiteral (negated : Bool) (magnitude : Nat) : Prop :=
  if negated then (magnitude : Int) ≤ intMinMagnitude else (magnitude : Int) ≤ intMax

/-- The blocks of the function: one block with the constant, and its negation. -/
def literalBlocks (negated : Bool) (magnitude : Nat) : List Mir.BasicBlock := if negated then
    [⟨0, [.const 0 (.int magnitude) (.named "Int"), .unary 1 .neg 0 (.named "Int")], .ret (some 1)⟩]
  else [⟨0, [.const 0 (.int magnitude) (.named "Int")], .ret (some 0)⟩]

def literalMir (negated : Bool) (magnitude : Nat) : Mir.MirFunction where
  name := "literal"
  parameters := []
  returnType := .named "Int"
  typeParameters := []
  blocks := literalBlocks negated magnitude

/-! ## The literal in each lane -/

/-- The interpreter on the expression. -/
def interpretLiteral (context : Context σ) (negated : Bool) (magnitude : Nat) : Eval σ Value :=
  (meaning { context with lane := .interpreter } 2).expr (literalExpr negated magnitude)

/-- The canonical executor on the lowered function: at most three steps. -/
def executeLiteral (machine : Mir.Machine σ) (call : Caller σ) (moduleKey : String)
    (negated : Bool) (magnitude : Nat) : Exec σ Value := fun store =>
  Mir.runSteps machine call moduleKey (literalBlocks negated magnitude) 3
    (Mir.enterBlock (literalBlocks negated magnitude) 0 (Mir.initialFrame [] []) store)

/-- The native executor on the lowered function. -/
def executeNativeLiteral (machine : NMachine τ) (call : NCaller τ) (moduleKey : String)
    (negated : Bool) (magnitude : Nat) : NExec τ NValue := fun store =>
  Native.runSteps machine call moduleKey (literalMir negated magnitude) 3
    (Native.enterBlock (literalMir negated magnitude) 0 (Native.initialFrame [] []) store)

section Lanes

variable (context : Context σ) (machine : Mir.Machine σ) (call : Caller σ)
  (native : NMachine τ) (nativeCall : NCaller τ) (moduleKey : String)

/-- The three lanes make one Int in range of the literal. -/
def LiteralAgreement (state : State σ) (store : Store σ) (nativeStore : NStore τ)
    (negated : Bool) (magnitude : Nat) : Prop :=
  ∃ value : Int, InRange value ∧
    interpretLiteral context negated magnitude state = .ok (.int value) state ∧
    executeLiteral machine call moduleKey negated magnitude store = .ok (.int value) store ∧
    ∃ nativeStore', executeNativeLiteral native nativeCall moduleKey negated magnitude
      nativeStore = .ok (.int value) nativeStore'

/-- The interpreter folds the minus into the least Int. -/
theorem interpretLiteral_apply (state : State σ) {negated : Bool} {magnitude : Nat}
    (checked : CheckedLiteral negated magnitude) :
    interpretLiteral context negated magnitude state =
      .ok (.int (if negated then -magnitude else magnitude)) state := by
  cases negated with
  | false =>
    have small : intMin ≤ (magnitude : Int) ∧ (magnitude : Int) ≤ intMax := by
      refine ⟨?_, by simpa [CheckedLiteral] using checked⟩
      unfold intMin
      omega
    simp [interpretLiteral, literalExpr, meaning, exprStep, Lane.interpreter,
      interpreterLiteral, small]
  | true =>
    have bounded : (magnitude : Int) ≤ intMinMagnitude := by
      simpa [CheckedLiteral] using checked
    by_cases edge : (magnitude : Int) = intMinMagnitude
    · simp [interpretLiteral, literalExpr, meaning, exprStep, unaryStep, negatedLiteral,
        Lane.interpreter, edge, intMin, intMinMagnitude]
    · have small : intMin ≤ (magnitude : Int) ∧ (magnitude : Int) ≤ intMax := by
        unfold intMin intMax intMinMagnitude at *
        omega
      have live : (magnitude : Int) ≠ intMin := by
        unfold intMin
        omega
      simp [interpretLiteral, literalExpr, meaning, exprStep, unaryStep, negatedLiteral,
        Lane.interpreter, edge, not_lt.mpr small.2, interpreterLiteral, small,
        interpreterUnary, andThen, Ast.exec, live]

/-- The canonical executor checks the constant before it negates it. -/
theorem executeLiteral_apply (store : Store σ) (negated : Bool) (magnitude : Nat) :
    executeLiteral machine call moduleKey negated magnitude store =
      .ok (if (magnitude : Int) ≤ intMax then .int (if negated then -magnitude else magnitude)
        else .error ("KS3501: Int literal 64-bit aralığı aştı: " ++ toString (magnitude : Int)))
        store := by
  have positive : intMin ≤ (magnitude : Int) := by
    unfold intMin
    omega
  have live : (magnitude : Int) ≠ intMin := by
    unfold intMin
    omega
  by_cases small : (magnitude : Int) ≤ intMax <;> cases negated <;>
    simp [executeLiteral, literalBlocks, Mir.enterBlock, Mir.findBlock, Mir.runSteps, Mir.step,
      Mir.executeInstruction, Mir.Frame.assign, Mir.Frame.read, Mir.Frame.set,
      Mir.followTerminator, Mir.constValue, Mir.unaryValue, andThen, positive, small,
      live]

theorem executeNativeLiteral_apply (nativeStore : NStore τ) (negated : Bool) (magnitude : Nat)
    (budget : nativeStore.steps + 3 ≤ native.maxSteps) :
    executeNativeLiteral native nativeCall moduleKey negated magnitude nativeStore =
      .ok (.int (if negated then -magnitude else magnitude))
        { nativeStore with steps := nativeStore.steps + if negated then 3 else 2 } := by
  have first : ¬ native.maxSteps < nativeStore.steps + 1 := by omega
  have second : ¬ native.maxSteps < nativeStore.steps + 1 + 1 := by omega
  have third : ¬ native.maxSteps < nativeStore.steps + 1 + 1 + 1 := by omega
  have live : (magnitude : Int) ≠ intMin := by
    unfold intMin
    omega
  cases negated <;>
    simp [executeNativeLiteral, literalMir, literalBlocks, Native.enterBlock, Mir.findBlock,
      Native.runSteps, Native.step, Native.executeInstruction, NFrame.assign, NFrame.read,
      NFrame.set, Native.followTerminator, Native.constValue, NValue.ofScalar, Native.unary,
      Native.plainUnary, Native.lift, andThen, first, second, third, live]

/-- **Integer literals mean the same in every lane except `-9223372036854775808`.** For
every literal the checker admits, alone or under unary minus, the interpreter, the
canonical executor on the lowered code and the native executor on the lowered code
compute the same Int in range exactly when the literal is not `2^63` under a minus. -/
theorem literalAgreement_iff (state : State σ) (store : Store σ) (nativeStore : NStore τ)
    {negated : Bool} {magnitude : Nat} (checked : CheckedLiteral negated magnitude)
    (budget : nativeStore.steps + 3 ≤ native.maxSteps) :
    LiteralAgreement context machine call native nativeCall moduleKey state store nativeStore
      negated magnitude ↔ ¬ (negated = true ∧ (magnitude : Int) = intMinMagnitude) := by
  unfold LiteralAgreement
  simp only [interpretLiteral_apply context state checked, executeLiteral_apply,
    executeNativeLiteral_apply native nativeCall moduleKey nativeStore negated magnitude budget]
  constructor
  · rintro ⟨value, -, -, executes, -⟩ ⟨-, edge⟩
    have large : ¬ (magnitude : Int) ≤ intMax := by
      unfold intMax intMinMagnitude at *
      omega
    rw [if_neg large] at executes
    cases executes
  · intro inside
    have small : (magnitude : Int) ≤ intMax := by
      unfold CheckedLiteral at checked
      unfold intMax intMinMagnitude at *
      cases negated with
      | false => simpa using checked
      | true =>
        simp only [if_true, true_and] at checked inside
        omega
    refine ⟨if negated then -magnitude else magnitude, ?_, rfl, ?_, _, rfl⟩
    · unfold InRange intMin intMax at *
      split <;> omega
    · rw [if_pos small]

end Lanes

/-! ## The literal at the edge -/

/-- A program without modules. -/
def noProgram : Program := ⟨"", []⟩

/-- A context over the printing runtime. -/
def plainContext : Context Output where
  runtime := plainRuntime
  inference := ⟨fun _ _ _ => .error .typeError, fun _ _ _ => .error .typeError⟩
  lane := .interpreter
  program := noProgram
  module := ⟨"", "", [], []⟩
  call := fun _ _ _ => timeout

/-- The canonical machine over the printing runtime, with an empty graph. -/
def plainMachine : Mir.Machine Output := ⟨plainRuntime, ⟨"", []⟩⟩

/-- A native machine with its default budget, with an empty graph. -/
def plainNative : NMachine Output where
  runtime := ⟨integerHost, fun _ => "object", fun _ => false,
    fun text output => output ++ [text], fun _ => none⟩
  graph := ⟨"", []⟩
  maxSteps := 1000000
  maxCallDepth := 512

/-- The greatest literal under a minus has one meaning. -/
theorem literalAgreement_negated_max :
    LiteralAgreement plainContext plainMachine (fun _ _ _ => Comp.timeout) plainNative
      (fun _ _ _ => Comp.timeout) "" ⟨emptyStore, []⟩ emptyStore ⟨[], [], 0, 0⟩ true
      9223372036854775807 ↔
    ¬ (true = true ∧ ((9223372036854775807 : Nat) : Int) = intMinMagnitude) :=
  literalAgreement_iff plainContext plainMachine (fun _ _ _ => Comp.timeout) plainNative
    (fun _ _ _ => Comp.timeout) "" ⟨emptyStore, []⟩ emptyStore ⟨[], [], 0, 0⟩
    (by unfold CheckedLiteral; decide) (by decide)

/-- `-9223372036854775808` is `INT_MIN` in the interpreter and in the native executor, and
an `Error` in the canonical executor. -/
theorem literal_of_intMin_disagrees : CheckedLiteral true 9223372036854775808 ∧
      interpretLiteral plainContext true 9223372036854775808 ⟨emptyStore, []⟩ =
        .ok (.int intMin) ⟨emptyStore, []⟩ ∧
      executeLiteral plainMachine (fun _ _ _ => Comp.timeout) "" true 9223372036854775808
          emptyStore =
        .ok (.error "KS3501: Int literal 64-bit aralığı aştı: 9223372036854775808")
          emptyStore ∧
      ¬ LiteralAgreement plainContext plainMachine (fun _ _ _ => Comp.timeout) plainNative
        (fun _ _ _ => Comp.timeout) "" ⟨emptyStore, []⟩ emptyStore ⟨[], [], 0, 0⟩ true
        9223372036854775808 := by
  refine ⟨by unfold CheckedLiteral; decide, rfl, rfl, ?_⟩
  rintro ⟨value, -, -, executes, -⟩
  cases executes

end Koschei.Lanes
