import Koschei.Lowering.Loops

/-!
# Lowering is faithful

The evaluation of lowered code, told on the tree, is what the executor does with
the blocks: along the syntax for one more unit of fuel, and along the fuel for
loops.
-/

namespace Koschei.Lowering

open Lib Ast Mir Filter Relation

variable {σ : Type} {site : Site σ} {P : String → Prop}

/-- What is computed with some fuel is what the executor does. -/
structure Faithful (site : Site σ) (P : String → Prop) (host : Host) (m : Meaning σ) : Prop where
  expr : ∀ e : Expr, (∀ name ∈ e.declared, P name) → SimExpr site P (lowerExpr host e) (m.expr e)
  stmt : ∀ s : Stmt, (∀ name ∈ s.declared, P name) → SimStmt site P (lowerStmt host s) (m.stmt s)
  tail : ∀ (s : Stmt) (type : Option TypeNode), (∀ name ∈ s.declared, P name) →
    SimTail site P (lowerTailStmt host s type) (m.stmt s)
  ifStmt : ∀ s : IfStmt, (∀ name ∈ s.declared, P name) →
    SimBlock site P (lowerIfStmt host s) (m.stmt (.ifThen s))
  valueIf : ∀ (s : IfStmt) (type : TypeNode), (∀ name ∈ s.declared, P name) →
    SimExpr site P (lowerValueIfStmt host s type) (m.stmt (.ifThen s))
  loops : SimWhile site P host m

/-! ## Without fuel -/

variable {action : Lower ValueId}

theorem SimExpr.timeout (lowers : LowersExpr P action) : SimExpr site P action timeout :=
  ⟨lowers, fun _ _ _ _ _ _ _ _ _ _ _ _ _ => trivial⟩

theorem SimBlock.timeout {action : Lower Unit} (lowers : LowersBlock P action) :
    SimBlock site P action timeout :=
  ⟨lowers, fun _ _ _ _ _ _ _ _ _ _ _ _ _ => trivial⟩

theorem SimStmt.timeout {action : Lower Unit} (lowers : LowersStmt P action) :
    SimStmt site P action timeout :=
  ⟨lowers, fun _ _ _ _ _ _ _ _ _ _ _ _ _ => trivial⟩

theorem SimTail.timeout {action : Lower (Option ValueId)} (lowers : LowersTail P action) :
    SimTail site P action timeout :=
  ⟨lowers, fun _ _ _ _ _ _ _ _ _ _ _ _ _ => trivial⟩

/-! ## One more unit of fuel -/

/-- Code that falls back to the source tree stops with a fault, as the evaluation does. -/
theorem SimExpr.stops (lowers : LowersExpr P action) (fault : Fault) :
    SimExpr site P action (fail fault) :=
  ⟨lowers, fun _ _ _ _ _ _ _ _ _ _ _ _ _ => .leave trivial⟩

theorem bind_pure_eval {α : Type} (x : Eval σ α) : (x >>= fun a => pure a) = x := by
  funext state
  simp only [bind_apply]
  cases x state with
  | ok a s => rfl
  | raise e s => rfl
  | timeout => rfl

/-- A value that replaces a failure, by a test. -/
theorem orElse_eq (x y : Eval σ Value) : (do
      let result ← x
      match result.unwrapFallible with
      | (true, payload) => pure payload
      | (false, _) => y) = (do
      let result ← x
      if result.unwrapFallible.1 then pure result.unwrapFallible.2 else y) := by
  congr 1
  funext result
  obtain ⟨success, payload⟩ := result.unwrapFallible
  cases success <;> rfl

/-- What is rejected is never run. -/
theorem SimExpr.rejected (message : String) (x : Eval σ Value) :
    SimExpr site P (reject message) x where
  lowers := by
    intro L id L' done
    cases done
  runs := by
    intro L id L' done
    cases done

theorem SimTail.rejected (message : String) (x : Eval σ Value) :
    SimTail site P (reject message) x where
  lowers := by
    intro L result L' done
    cases done
  runs := by
    intro L result L' done
    cases done

theorem SimBlock.skip : SimBlock site P (pure ()) (pure .unit) where
  lowers := LowersPart.nothing.block
  runs := by
    intro L u L' done ready part head tail state frame store cut linked
    obtain ⟨-, rfl⟩ := pure_ok.mp done
    exact .here ⟨frame, store, rfl, .refl ready cut linked⟩

section Step

variable {context : Context σ} (hosts : Hosts site context)
  (generated : ∀ name, Generated name → P name) {m : Meaning σ}
  (faithful : Faithful site P context.runtime.host m)

include faithful in
theorem Faithful.all (es : List Expr) (declared : ∀ name ∈ declaredAll es, P name) :
    SimAll site P (lowerAll context.runtime.host es) (evaluateAll m es) := by
  induction es with
  | nil =>
    simp only [lowerAll]
    exact .nil
  | cons e es ih =>
    simp only [declaredAll, forall_mem_append] at declared
    simp only [lowerAll]
    exact .cons (faithful.expr e declared.1) (ih declared.2)

include generated faithful

theorem Faithful.stmts (statements : List Stmt)
    (declared : ∀ name ∈ declaredStmts statements, P name) (result : Value) :
    SimStmt site P (lowerStmts context.runtime.host statements)
      (executeStatements m statements result) :=
  simStmts context.runtime.host generated faithful.stmt statements declared result

theorem Faithful.tails (statements : List Stmt) (type : Option TypeNode)
    (declared : ∀ name ∈ declaredStmts statements, P name) :
    SimTail site P (lowerTail context.runtime.host statements type)
      (executeStatements m statements .unit) :=
  simTail context.runtime.host generated faithful.stmt faithful.tail statements declared type

theorem Faithful.arm (arm : Arm) (type : TypeNode)
    (declared : ∀ name ∈ declaredArms [arm], P name) :
    SimBranch site P (lowerBody context.runtime.host type arm) (armValue m arm) := by
  cases arm with
  | expression variant canonical binding body =>
    simp only [declaredArms, append_nil, forall_mem_append] at declared
    exact (faithful.expr body declared.2).present
  | block variant canonical binding body =>
    simp only [declaredArms, append_nil, forall_mem_append] at declared
    exact (faithful.tails generated body (some type) declared.2).inScope

include hosts

omit generated faithful in
/-- The lowered lane always takes the second way. -/
theorem Hosts.choose {α : Type} (safe : State σ → Prop) (x y : Eval σ α) :
    context.lane.choose safe x y = y := by
  rw [hosts.lane]
  rfl

omit generated faithful in
theorem Hosts.split {α : Type} (x y z : Eval σ α) : context.lane.split x y z = y := by
  rw [hosts.lane]
  rfl

omit hosts generated faithful in
theorem lowerExpr_call {host : Host} {callee : Expr} {arguments : List Expr}
    {resolution : CallResolution} {type : TypeNode} (noName : ∀ name t, callee ≠ .ident name t)
    (noMember : ∀ object name t, callee ≠ .member object name t) :
    lowerExpr host (.call callee arguments resolution type) =
      lowerPlainCall (lowerExpr host callee) (lowerAll host arguments) type := by
  cases callee with
  | ident name t => exact absurd rfl (noName name t)
  | member object name t => exact absurd rfl (noMember object name t)
  | _ => simp only [lowerExpr]

omit generated in
theorem Faithful.call {callee : Expr} {arguments : List Expr} {resolution : CallResolution}
    {type : TypeNode}
    (declared : ∀ name ∈ (Expr.call callee arguments resolution type).declared, P name) :
    SimExpr site P (lowerExpr context.runtime.host (.call callee arguments resolution type))
      (callStep context m callee arguments resolution type) := by
  simp only [Expr.declared, forall_mem_append] at declared
  have first := faithful.expr callee declared.1
  have parts := faithful.all arguments declared.2
  have plain := first.callOf hosts parts type
  cases callee with
  | ident name calleeType =>
    simp only [lowerExpr] at first plain
    simp only [lowerExpr, callStep, callForm]
    cases constructs : variantName context.runtime.host name with
    | false =>
      simp only [false_eq_true, if_false]
      exact plain
    | true =>
      simp only [if_true, hosts.split, loweredConstruct, Ast.plainCall]
      exact first.constructOf hosts parts arguments.length type
  | member object name memberType =>
    have inner := faithful.expr object fun name inside => declared.1 name (by
      simpa only [Expr.declared] using inside)
    simp only [lowerExpr] at first plain
    cases resolution with
    | plain =>
      simp only [lowerExpr, callStep, callForm]
      exact plain
    | capability capabilityType method canonicalEffect powerDomain =>
      simp only [lowerExpr, callStep, callForm, hosts.split]
      exact inner.capabilityCall hosts parts capabilityType method canonicalEffect powerDomain type
    | mapMethod method =>
      simp only [lowerExpr, callStep, callForm, hosts.split]
      exact inner.mapMethod hosts parts method type
  | _ =>
    rw [lowerExpr_call (by rintro _ _ ⟨⟩) (by rintro _ _ _ ⟨⟩)]
    exact plain

omit generated in
theorem Faithful.unary (operator : UnaryOperator) (operand : Expr) (type : TypeNode)
    (declared : ∀ name ∈ operand.declared, P name) :
    SimExpr site P (lowerExpr context.runtime.host (.unary operator operand type))
      (unaryStep context m operator operand) := by
  have first := (faithful.expr operand declared).operator hosts operator type
  have lane : unaryStep context m operator operand = (do
      exec (unaryValue context.runtime operator (← m.expr operand))) := by
    unfold unaryStep
    split
    · rw [hosts.choose]
    · simp only [hosts.choose]
  rw [lane]
  simp only [lowerExpr]
  exact first

omit generated faithful in
/-- Lowered, a strict operator looks for Errors after both operands are evaluated. -/
theorem strictStep_lowered (operator : BinaryOperator) (left right : Expr) :
    strictStep context m operator left right = (do
      let leftValue ← m.expr left
      exec (binaryValue context.runtime operator leftValue (← m.expr right))) := by
  unfold strictStep
  congr 1
  funext leftValue
  simp only [hosts.choose, binaryValue]
  cases failed : leftValue.isError with
  | true =>
    simp only [if_true, Bool.true_and]
    split <;> rfl
  | false =>
    simp only [Bool.false_and, false_eq_true, if_false]
    congr 1
    funext rightValue
    split <;> rfl

theorem Faithful.binary (left : Expr) (operator : BinaryOperator) (right : Expr) (type : TypeNode)
    (declared : ∀ name ∈ left.declared ++ right.declared, P name) :
    SimExpr site P (lowerExpr context.runtime.host (.binary left operator right type))
      (binaryStep context m operator left right) := by
  have first := faithful.expr left (forall_mem_append.mp declared).1
  have second := faithful.expr right (forall_mem_append.mp declared).2
  have sameHost := congrArg Runtime.host hosts.runtime
  have short (conjunction : Bool) : SimExpr site P
      (lowerShortCircuit conjunction (lowerExpr context.runtime.host left)
        (lowerExpr context.runtime.host right) type)
      (shortCircuit context m conjunction left right) := by
    have lane : shortCircuit context m conjunction left right = (do
        let leftValue ← m.expr left
        if leftValue.isError then pure leftValue
        else if context.runtime.host.truthy leftValue = conjunction then m.expr right
        else pure leftValue) := by
      simp only [shortCircuit, hosts.choose, bind_pure_eval]
    rw [lane]
    exact first.shortCircuit generated sameHost second conjunction type
  cases operator with
  | and =>
    simp only [lowerExpr]
    exact short true
  | or =>
    simp only [lowerExpr]
    exact short false
  | _ =>
    simp only [lowerExpr, binaryStep]
    rw [strictStep_lowered hosts]
    exact first.strict hosts second ⟨by rintro ⟨⟩, by rintro ⟨⟩⟩ type

omit hosts generated in
theorem Faithful.orReturn (value : Expr) (error : Option Expr) (type : TypeNode)
    (declared : ∀ name ∈ (Expr.orReturn value error type).declared, P name) :
    SimExpr site P (lowerExpr context.runtime.host (.orReturn value error type))
      (exprStep context m (.orReturn value error type)) := by
  have lane : exprStep context m (.orReturn value error type) = (do
      let result ← m.expr value
      if result.unwrapFallible.1 then pure result.unwrapFallible.2
      else do raise (.ret (← (error.map m.expr).getD (pure result)))) := by
    simp only [exprStep]
    congr 1
    funext result
    obtain ⟨success, payload⟩ := result.unwrapFallible
    cases success with
    | true => cases error <;> rfl
    | false => cases error <;> rfl
  rw [lane]
  cases error with
  | none =>
    simp only [Expr.declared] at declared
    simp only [lowerExpr]
    exact (faithful.expr value declared).orReturn .none type
  | some error =>
    simp only [Expr.declared, forall_mem_append] at declared
    simp only [lowerExpr]
    exact (faithful.expr value declared.1).orReturn (.some (faithful.expr error declared.2)) type

/-- One more unit of fuel for an expression. -/
theorem Faithful.exprStep (e : Expr) (declared : ∀ name ∈ e.declared, P name) :
    SimExpr site P (lowerExpr context.runtime.host e) (Ast.exprStep context m e) := by
  cases e with
  | literal value type =>
    simp only [lowerExpr, Ast.exprStep, hosts.choose]
    exact SimExpr.emitValue (Mirrors.pure (constValue value)) fun frame target fuel => rfl
  | ident name type =>
    simp only [lowerExpr, Ast.exprStep, hosts.choose]
    exact SimExpr.ident hosts name type
  | interpolated parts type =>
    simp only [lowerExpr, Ast.exprStep, hosts.split]
    have parts' := (faithful.all parts declared).interpolated hosts type
    simp only [exec_bind, exec_pure] at parts'
    exact parts'
  | list items type =>
    simp only [lowerExpr, Ast.exprStep, hosts.split, loweredList]
    cases type.listItem with
    | none => exact .stops (.emitValue _) _
    | some item => exact (faithful.all items declared).listOf hosts type
  | map entries type =>
    simp only [lowerExpr, Ast.exprStep, hosts.split]
    exact SimExpr.mapOf hosts generated faithful.expr declared type
  | struct typeName fields required type =>
    simp only [lowerExpr, Ast.exprStep, hosts.split]
    exact SimExpr.structOf hosts generated faithful.expr declared typeName required type
  | member object name type =>
    simp only [lowerExpr, Ast.exprStep, hosts.choose]
    exact (faithful.expr object declared).memberOf hosts name type
  | call callee arguments resolution type =>
    exact faithful.call hosts declared
  | assign name value type =>
    simp only [lowerExpr, Ast.exprStep]
    exact (faithful.expr value declared).assign name type
  | assignField object objectType field value type =>
    simp only [lowerExpr, Ast.exprStep, hosts.split]
    exact SimExpr.assignField hosts (faithful.expr value declared) object objectType field type
  | binary left operator right type =>
    exact faithful.binary hosts generated left operator right type declared
  | unary operator operand type => exact faithful.unary hosts operator operand type declared
  | orReturn value error type =>
    exact faithful.orReturn value error type declared
  | orElse value other type =>
    simp only [Expr.declared, forall_mem_append] at declared
    simp only [lowerExpr, Ast.exprStep]
    have first := faithful.expr value declared.1
    have second := faithful.expr other declared.2
    exact (congrArg (SimExpr site P _) (orElse_eq _ _)).mpr
      (first.orElse generated "or_else_result" second.present type)
  | orBlock value handler type =>
    simp only [Expr.declared, forall_mem_append] at declared
    simp only [lowerExpr, Ast.exprStep]
    have first := faithful.expr value declared.1
    have second := faithful.tails generated handler (some type) declared.2
    exact (congrArg (SimExpr site P _) (orElse_eq _ _)).mpr
      (first.orElse generated "or_block_result" second.inScope type)
  | matchOn value arms exhaustive type =>
    simp only [Expr.declared, forall_mem_append] at declared
    simp only [Ast.exprStep, matchStep, hosts.choose]
    have first := faithful.expr value declared.1
    have lowered := SimExpr.matchOf context.runtime.host generated
      (faithful.arm generated) first (declared.2) type
    have admitted : (validPlan arms = true ∧ exhaustive = true) ∨
        ∃ message, lowerExpr context.runtime.host (.matchOn value arms exhaustive type) =
          reject message := by
      simp only [lowerExpr]
      cases validPlan arms <;> cases exhaustive <;> simp
    rcases admitted with ⟨valid, complete⟩ | ⟨message, rejects⟩
    · simp only [lowerExpr, valid, complete, Bool.not_true, false_eq_true, if_false]
      exact lowered
    · rw [rejects]
      exact .rejected message _

/-! ### Statements -/

/-- An if statement. -/
theorem Faithful.ifStep (s : IfStmt) (declared : ∀ name ∈ s.declared, P name) :
    SimBlock site P (lowerIfStmt context.runtime.host s) (Ast.stmtStep context m (.ifThen s)) := by
  have sameHost := congrArg Runtime.host hosts.runtime
  cases s with
  | mk condition thenBlock elseBranch =>
    simp only [IfStmt.declared, forall_mem_append] at declared
    have first := faithful.expr condition declared.1.1
    have second := (faithful.stmts generated thenBlock (declared.1.2) .unit).inScope
    simp only [lowerIfStmt, Ast.stmtStep]
    refine SimBlock.ifThen sameHost first second ?_
    cases elseBranch with
    | nothing =>
      simp only [lowerElse]
      exact .skip
    | block statements =>
      simp only [lowerElse]
      exact (faithful.stmts generated statements (declared.2) .unit).inScope
    | elseIf statement =>
      simp only [lowerElse]
      exact faithful.ifStmt statement declared.2

/-- An if statement whose value is consumed. -/
theorem Faithful.valueIfStep (s : IfStmt) (type : TypeNode)
    (declared : ∀ name ∈ s.declared, P name) :
    SimExpr site P (lowerValueIfStmt context.runtime.host s type)
      (Ast.stmtStep context m (.ifThen s)) := by
  have sameHost := congrArg Runtime.host hosts.runtime
  cases s with
  | mk condition thenBlock elseBranch =>
    simp only [IfStmt.declared, forall_mem_append] at declared
    have first := faithful.expr condition declared.1.1
    have second := (faithful.tails generated thenBlock (some type) (declared.1.2)).inScope
    simp only [lowerValueIfStmt, Ast.stmtStep]
    refine SimExpr.valueIf generated sameHost first second ?_ type
    cases elseBranch with
    | nothing =>
      simp only [lowerValueElse]
      exact SimExpr.unit.present
    | block statements =>
      simp only [lowerValueElse]
      exact (faithful.tails generated statements (some type) (declared.2)).inScope
    | elseIf statement =>
      simp only [lowerValueElse]
      exact (faithful.valueIf statement type declared.2).present

omit hosts in
theorem Faithful.whileLoop (condition : Expr) (body : List Stmt) (bodyType : Option TypeNode)
    (declared : ∀ name ∈ condition.declared ++ declaredStmts body, P name) :
    SimLoop site P (fun result => lowerWhile result (lowerExpr context.runtime.host condition)
      (inScope (lowerTail context.runtime.host body bodyType))) (m.whileLoop condition body .unit) := by
  have inCondition : ∀ name ∈ condition.declared, P name := (forall_mem_append.mp declared).1
  have inBody : ∀ name ∈ declaredStmts body, P name := (forall_mem_append.mp declared).2
  exact faithful.loops.toLoop inCondition inBody (faithful.expr condition inCondition).lowers
    (faithful.tails generated body bodyType inBody).lowers

omit hosts in
theorem Faithful.forLoop (name : String) (iterable : Expr) (body : List Stmt)
    (bodyType : Option TypeNode) (itemType : TypeNode)
    (declared : ∀ other ∈ (Stmt.forIn name iterable body bodyType).declared, P other) :
    SimLoop site P (fun result => lowerFor result name itemType
      (lowerExpr context.runtime.host iterable)
      (inScope (lowerTail context.runtime.host body bodyType))) (forStep m name iterable body) := by
  simp only [Stmt.declared, forall_mem_cons, forall_mem_append] at declared
  exact SimLoop.forIn generated faithful.expr (declared.1)
    (declared.2.1)
    (faithful.tails generated body bodyType declared.2.2) itemType

/-- One more unit of fuel for a statement. -/
theorem Faithful.stmtStep (s : Stmt) (declared : ∀ name ∈ s.declared, P name) :
    SimStmt site P (lowerStmt context.runtime.host s) (Ast.stmtStep context m s) := by
  cases s with
  | letIn name isMutable value =>
    simp only [Stmt.declared, mem_cons] at declared
    simp only [lowerStmt, Ast.stmtStep]
    exact SimStmt.letIn generated
      (faithful.expr value fun other inside => declared other (.inr inside))
      (declared name (.inl rfl)) isMutable value.type
  | ret value =>
    cases value with
    | none =>
      simp only [lowerStmt]
      exact (SimBlock.ret .none).toStmt
    | some value =>
      simp only [lowerStmt]
      exact (SimBlock.ret (.some (faithful.expr value declared))).toStmt
  | expression e =>
    simp only [lowerStmt, Ast.stmtStep]
    exact (faithful.expr e declared).toStmt.toStmt
  | ifThen statement =>
    simp only [lowerStmt]
    exact (faithful.ifStep hosts generated statement declared).toStmt
  | whileDo condition body bodyType =>
    simp only [lowerStmt, Ast.stmtStep]
    exact (faithful.whileLoop generated condition body bodyType declared).toBlock.toStmt
  | forIn name iterable body bodyType =>
    have loop (itemType : TypeNode) :=
      faithful.forLoop generated name iterable body bodyType itemType declared
    simp only [lowerStmt, Ast.stmtStep]
    cases iterable.type.iterableItem with
    | none =>
      simp only [isSome_none, false_eq_true, if_false, hosts.choose]
      exact ⟨(LowersPart.emit _).block.stmt, fun _ _ _ _ _ _ _ _ _ _ _ _ _ => .leave trivial⟩
    | some itemType => exact (loop itemType).toBlock.toStmt
  | breakLoop =>
    simp only [lowerStmt, Ast.stmtStep]
    exact SimBlock.breakLoop.toStmt
  | continueLoop =>
    simp only [lowerStmt, Ast.stmtStep]
    exact SimBlock.continueLoop.toStmt

/-- One more unit of fuel for the last statement of a value block. -/
theorem Faithful.tailStep (s : Stmt) (type : Option TypeNode)
    (declared : ∀ name ∈ s.declared, P name) :
    SimTail site P (lowerTailStmt context.runtime.host s type) (Ast.stmtStep context m s) := by
  cases s with
  | letIn name isMutable value =>
    refine ⟨lowersTailStmt context.runtime.host generated _ type declared, ?_⟩
    simp only [Stmt.declared, mem_cons] at declared
    simp only [lowerTailStmt]
    have first := SimStmt.letIn generated
      (faithful.expr value fun other inside => declared other (.inr inside))
      (declared name (.inl rfl)) isMutable value.type
    have lane : Ast.stmtStep context m (.letIn name isMutable value) = (do
        let _ ← (do
          let result ← m.expr value
          define name ⟨result, isMutable⟩
          pure .unit : Eval σ Value)
        pure .unit) := by
      simp only [Ast.stmtStep, Comp.bind_assoc, Comp.pure_bind]
    rw [lane]
    intro L result L' done ready part head tail state frame store cut linked
    obtain ⟨_, M, lowered, done⟩ := bind_ok.mp done
    obtain ⟨grown, free⟩ := LowersStmt.letIn generated
      (faithful.expr value fun other inside => declared other (.inr inside)).lowers
      (declared name (.inl rfl)) isMutable value.type lowered ready
    have last : SimTail site P (present emitUnit) (pure .unit) := SimExpr.unit.present.toTail
    have partM := (last.lowers _ _ _ done (grown.ready ready free)).1.toEmbeds.trans part
    refine (At.refl ready cut linked).stmt first lowered partM ?_
    intro _ head' state' frame' store' there
    refine there.tailLast last done part ?_
    intro id value' head'' state'' frame'' store'' isId ended known
    exact .here ⟨id, isId, head'', frame'', store'', rfl, ended, known⟩
  | ret value =>
    cases value with
    | none =>
      simp only [lowerTailStmt]
      exact (SimBlock.ret .none).absent fun state value state' done => by cases done
    | some value =>
      simp only [lowerTailStmt]
      refine (SimBlock.ret (.some (faithful.expr value declared))).absent ?_
      intro state result state' done
      obtain ⟨_, _, -, raised⟩ := andThen_eq_ok.mp done
      cases raised
  | expression e =>
    simp only [lowerTailStmt, Ast.stmtStep]
    exact (faithful.expr e declared).present.toTail
  | ifThen statement =>
    cases type with
    | none =>
      simp only [lowerTailStmt]
      exact .rejected _ _
    | some type =>
      simp only [lowerTailStmt]
      exact (faithful.valueIfStep hosts generated statement type declared).present.toTail
  | whileDo condition body bodyType =>
    cases type with
    | none =>
      simp only [lowerTailStmt]
      exact .rejected _ _
    | some type =>
      simp only [lowerTailStmt, Ast.stmtStep]
      exact ((faithful.whileLoop generated condition body bodyType declared).toExpr generated
        "value_while_result" type).present.toTail
  | forIn name iterable body bodyType =>
    cases type with
    | none =>
      simp only [lowerTailStmt]
      exact .rejected _ _
    | some type =>
      have loop (itemType : TypeNode) :=
        faithful.forLoop generated name iterable body bodyType itemType declared
      simp only [lowerTailStmt, Ast.stmtStep]
      cases iterable.type.iterableItem with
      | none => exact .rejected _ _
      | some itemType =>
        exact ((loop itemType).toExpr generated "value_for_result" type).present.toTail
  | breakLoop =>
    simp only [lowerTailStmt, Ast.stmtStep]
    exact SimBlock.breakLoop.absent fun state value state' done => by cases done
  | continueLoop =>
    simp only [lowerTailStmt, Ast.stmtStep]
    exact SimBlock.continueLoop.absent fun state value state' done => by cases done

theorem Faithful.step : Faithful site P context.runtime.host
      ⟨Ast.exprStep context m, Ast.stmtStep context m, whileStep context m⟩ where
  expr := faithful.exprStep hosts generated
  stmt := faithful.stmtStep hosts generated
  tail := faithful.tailStep hosts generated
  ifStmt := faithful.ifStep hosts generated
  valueIf := faithful.valueIfStep hosts generated
  loops := SimWhile.step (congrArg Runtime.host hosts.runtime) faithful.expr
    (faithful.tails generated) faithful.loops rfl

end Step

/-- With any fuel, what is computed is what the executor does. -/
theorem meaning_faithful {context : Context σ} (hosts : Hosts site context)
    (generated : ∀ name, Generated name → P name) (fuel : Nat) :
    Faithful site P context.runtime.host (meaning context fuel) := by
  induction fuel with
  | zero =>
    exact {
      expr := fun e declared => .timeout (lowersExpr _ generated e declared)
      stmt := fun s declared => .timeout (lowersStmt _ generated s declared)
      tail := fun s type declared => .timeout (lowersTailStmt _ generated s type declared)
      ifStmt := fun s declared => .timeout (lowersIf _ generated s declared).block
      valueIf := fun s type declared => .timeout (lowersValueIf _ generated s type declared)
      loops := fun _ _ _ _ _ _ _ _ _ _ _ _ _ _ _ _ _ _ _ _ => trivial }
  | succ fuel ih => exact ih.step hosts generated

end Koschei.Lowering
