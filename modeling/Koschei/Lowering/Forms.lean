import Koschei.Lowering.Simulate

/-!
# Forms without branches

Literals, names, operators, calls, constructors and assignments: their parts are
evaluated from left to right, and one instruction on the registers of the parts
does the rest.
-/

namespace Koschei.Lowering

open Lib Ast Mir Filter Relation

variable {σ α β : Type}

/-! ## Runtime operations as evaluations -/

theorem exec_pure (a : α) : exec (pure a : Exec σ α) = pure a := rfl

theorem exec_bind (x : Exec σ α) (f : α → Exec σ β) :
    exec (x >>= f) = exec x >>= fun a => exec (f a) := by
  funext state
  simp only [exec, bind_apply]
  cases x state.store with
  | ok a s => rfl
  | raise e s => rfl
  | timeout => rfl

/-! ## Reading registers -/

section Registers

variable {frame : Frame}

theorem read_known {id : ValueId} {value : Value} (known : frame.values id = some value) :
    frame.read id = (pure value : Exec σ Value) := by
  simp [Frame.read, known]

variable {ids : List ValueId} {values : List Value}

theorem readAll_known
    (known : Forall₂ (fun id value => frame.values id = some value) ids values) :
    frame.readAll ids = (pure values : Exec σ (List Value)) := by
  induction known with
  | nil => rfl
  | cons first rest ih => simp only [Frame.readAll, read_known first, ih, Comp.pure_bind]

theorem interpolate_known (runtime : Runtime σ)
    (known : Forall₂ (fun id value => frame.values id = some value) ids values)
    (context : Context σ) (same : context.runtime = runtime) :
    interpolate runtime frame ids = renderAll context values := by
  induction known with
  | nil => rfl
  | cons first rest ih =>
    simp only [interpolate, renderAll, read_known first, Comp.pure_bind, ih, same]

end Registers

variable {site : Site σ} {P : String → Prop}

/-! ## Parts and one instruction -/

/-- No part. -/
theorem SimExpr.emitValue {i : ValueId → Instruction} {x : Exec σ Value}
    {y : Nat → Exec σ Value} (mirrors : Mirrors x y)
    (executes : ∀ frame target fuel, executeInstruction site.machine (site.calls fuel)
      site.moduleKey frame (i target) = frame.assign target (y fuel)) :
    SimExpr site P (emitValue i) (exec x) where
  lowers := .emitValue i
  runs := by
    intro L id L' done ready part head tail state frame store cut linked
    obtain ⟨rfl, -, rfl⟩ := emitValue_ok.mp done
    exact (At.refl ready cut linked).emitValue part mirrors (executes frame _)

variable {x : Eval σ Value}

/-- One part. -/
theorem SimExpr.unary {operand : Lower ValueId}
    (first : SimExpr site P operand x) {i : ValueId → ValueId → Instruction}
    {op : Value → Exec σ Value} {y : Value → Nat → Exec σ Value}
    (mirrors : ∀ value, Mirrors (op value) (y value))
    (executes : ∀ frame target id value fuel, frame.values id = some value →
      executeInstruction site.machine (site.calls fuel) site.moduleKey frame (i target id) =
        frame.assign target (y value fuel)) :
    SimExpr site P (do
        let value ← operand
        Lowering.emitValue fun target => i target value)
      (do exec (op (← x))) where
  lowers := first.lowers.unary i
  runs := by
    intro L id L' done ready part head tail state frame store cut linked
    obtain ⟨source, M, lowered, done⟩ := bind_ok.mp done
    obtain ⟨rfl, free, rfl⟩ := emitValue_ok.mp done
    refine (At.refl ready cut linked).expr first lowered (part.before_push free).before_bump ?_
    intro value state' frame' store' there _ known
    exact there.emitValue (i := fun target => i target source) part (mirrors value)
      fun fuel => executes _ _ _ _ fuel known

/-- Two parts. -/
theorem SimExpr.binary {left right : Lower ValueId} {y : Eval σ Value}
    (first : SimExpr site P left x) (second : SimExpr site P right y)
    {i : ValueId → ValueId → ValueId → Instruction} {op : Value → Value → Exec σ Value}
    (shared : ∀ value value', Shared (op value value'))
    (executes : ∀ frame target id id' value value' fuel, frame.values id = some value →
      frame.values id' = some value' →
      executeInstruction site.machine (site.calls fuel) site.moduleKey frame
        (i target id id') = frame.assign target (op value value')) :
    SimExpr site P (do
        let leftValue ← left
        let rightValue ← right
        Lowering.emitValue fun target => i target leftValue rightValue)
      (do
        let leftValue ← x
        exec (op leftValue (← y))) where
  lowers := by
    intro L id L' done ready
    obtain ⟨leftValue, M, lowered, done⟩ := bind_ok.mp done
    obtain ⟨grown, -⟩ := first.lowers _ _ _ lowered ready
    obtain ⟨grown', bound⟩ := second.lowers.unary (fun target value => i target leftValue value)
      _ _ _ done (grown.ready ready)
    exact ⟨grown.trans grown', bound⟩
  runs := by
    intro L id L' done ready part head tail state frame store cut linked
    obtain ⟨leftValue, M, lowered, done⟩ := bind_ok.mp done
    obtain ⟨rightValue, N, lowered', done⟩ := bind_ok.mp done
    obtain ⟨rfl, free, rfl⟩ := emitValue_ok.mp done
    obtain ⟨grown, bound⟩ := first.lowers _ _ _ lowered ready
    obtain ⟨grown', -⟩ := second.lowers _ _ _ lowered' (grown.ready ready)
    have atN := (part.before_push free).before_bump
    refine (At.refl ready cut linked).expr first lowered (grown'.toEmbeds.trans atN) ?_
    intro value state' frame' store' there _ known
    refine there.expr second lowered' atN ?_
    intro value' state'' frame'' store'' last later known'
    exact last.emitValue (i := fun target => i target leftValue rightValue) part
      (shared value value') fun fuel =>
        executes _ _ _ _ _ _ fuel (later.value known bound) known'

variable {xs : Eval σ (List Value)}

theorem SimAll.combine {items : Lower (List ValueId)}
    (parts : SimAll site P items xs) {i : ValueId → List ValueId → Instruction}
    {op : List Value → Exec σ Value} (shared : ∀ values, Shared (op values))
    (executes : ∀ frame target ids values fuel,
      Forall₂ (fun id value => frame.values id = some value) ids values →
      executeInstruction site.machine (site.calls fuel) site.moduleKey frame (i target ids) =
        frame.assign target (op values)) :
    SimExpr site P (do
        let values ← items
        Lowering.emitValue fun target => i target values)
      (do exec (op (← xs))) where
  lowers := parts.lowers.combine i
  runs := by
    intro L id L' done ready part head tail state frame store cut linked
    obtain ⟨ids, M, lowered, done⟩ := bind_ok.mp done
    obtain ⟨rfl, free, rfl⟩ := emitValue_ok.mp done
    refine (At.refl ready cut linked).all parts lowered (part.before_push free).before_bump ?_
    intro values state' frame' store' there _ known
    exact there.emitValue (i := fun target => i target ids) part (shared values) fun fuel =>
      executes _ _ _ _ fuel known

variable {callee : Lower ValueId}

theorem SimExpr.apply {arguments : Lower (List ValueId)} (first : SimExpr site P callee x)
    (parts : SimAll site P arguments xs) {i : ValueId → ValueId → List ValueId → Instruction}
    {op : Value → List Value → Exec σ Value} {y : Value → List Value → Nat → Exec σ Value}
    (mirrors : ∀ value values, Mirrors (op value values) (y value values))
    (executes : ∀ frame target id ids value values fuel, frame.values id = some value →
      Forall₂ (fun id value => frame.values id = some value) ids values →
      executeInstruction site.machine (site.calls fuel) site.moduleKey frame
        (i target id ids) = frame.assign target (y value values fuel)) :
    SimExpr site P (do
        let function ← callee
        let values ← arguments
        Lowering.emitValue fun target => i target function values)
      (do
        let function ← x
        exec (op function (← xs))) where
  lowers := first.lowers.apply parts.lowers i
  runs := by
    intro L id L' done ready part head tail state frame store cut linked
    obtain ⟨function, M, lowered, done⟩ := bind_ok.mp done
    obtain ⟨values, N, lowered', done⟩ := bind_ok.mp done
    obtain ⟨rfl, free, rfl⟩ := emitValue_ok.mp done
    obtain ⟨grown, bound⟩ := first.lowers _ _ _ lowered ready
    obtain ⟨grown', -⟩ := parts.lowers _ _ _ lowered' (grown.ready ready)
    have atN := (part.before_push free).before_bump
    refine (At.refl ready cut linked).expr first lowered (grown'.toEmbeds.trans atN) ?_
    intro value state' frame' store' there _ known
    refine there.all parts lowered' atN ?_
    intro values' state'' frame'' store'' last later known'
    exact last.emitValue (i := fun target => i target function values) part
      (mirrors value values') fun fuel =>
        executes _ _ _ _ _ _ fuel (later.value known bound) known'

/-! ## Lists of expressions -/

theorem SimAll.nil : SimAll site P (pure []) (pure []) where
  lowers := by
    intro L ids L' done ready
    obtain ⟨rfl, rfl⟩ := pure_ok.mp done
    exact ⟨.refl ready, by simp⟩
  runs := by
    intro L ids L' done ready part head tail state frame store cut linked
    obtain ⟨rfl, rfl⟩ := pure_ok.mp done
    exact .here ⟨frame, store, rfl, .refl ready cut linked, .nil⟩

theorem SimAll.cons {action : Lower ValueId} {actions : Lower (List ValueId)}
    (first : SimExpr site P action x) (rest : SimAll site P actions xs) :
    SimAll site P (do
        let value ← action
        let values ← actions
        pure (value :: values))
      (do
        let value ← x
        let values ← xs
        pure (value :: values)) where
  lowers := by
    intro L ids L' done ready
    obtain ⟨value, M, lowered, done⟩ := bind_ok.mp done
    obtain ⟨values, N, lowered', done⟩ := bind_ok.mp done
    obtain ⟨rfl, rfl⟩ := pure_ok.mp done
    obtain ⟨grown, bound⟩ := first.lowers _ _ _ lowered ready
    obtain ⟨grown', bounds⟩ := rest.lowers _ _ _ lowered' (grown.ready ready)
    refine ⟨grown.trans grown', ?_⟩
    intro id inside
    rcases mem_cons.mp inside with rfl | inside
    · exact bound.trans_le (Int.ofNat_le.mpr grown'.values)
    · exact bounds id inside
  runs := by
    intro L ids L' done ready part head tail state frame store cut linked
    obtain ⟨id, M, lowered, done⟩ := bind_ok.mp done
    obtain ⟨ids, N, lowered', done⟩ := bind_ok.mp done
    obtain ⟨rfl, rfl⟩ := pure_ok.mp done
    obtain ⟨grown, bound⟩ := first.lowers _ _ _ lowered ready
    obtain ⟨grown', -⟩ := rest.lowers _ _ _ lowered' (grown.ready ready)
    refine (At.refl ready cut linked).expr first lowered (grown'.toEmbeds.trans part) ?_
    intro value state' frame' store' there _ known
    refine there.all rest lowered' part ?_
    intro values state'' frame'' store'' last later known'
    exact .here ⟨_, _, rfl, last, .cons (later.value known bound) known'⟩

/-! ## Names -/

/-- The site runs the module an evaluation of lowered code takes place in: the same
runtime, functions and imports, calls that answer, and no binding under a global name. -/
structure Hosts (site : Site σ) (context : Context σ) : Prop where
  runtime : site.machine.runtime = context.runtime
  lane : context.lane = Lane.lowered
  key : context.module.key = site.moduleKey
  module : ∃ module, site.machine.graph.moduleOf site.moduleKey = .ok module ∧
    (∀ name, (module.functions.any fun function => function.name == name) =
      context.isFunction name) ∧ module.imports = context.module.imports
  answers : Answers context.call site.calls
  apart : ∀ name ∈ site.final.used, context.isGlobal name = false

theorem loadName_shared (name : String) (frame : Frame) :
    Shared (site.machine.loadName site.moduleKey name frame) := by
  unfold Machine.loadName
  split
  · exact .pure _
  · refine Shared.bind (.lift _) fun module => Shared.ite (.pure _) ?_
    split
    · exact .pure _
    · split
      · exact .pure _
      · split
        · exact .pure _
        · exact .raise _

theorem sealVariant_shared (runtime : Runtime σ) (canonical : String) (type : TypeNode)
    (values : List Value) : Shared (sealVariant runtime canonical type values) := by
  refine Shared.bind (.lift _) fun contract => ?_
  split
  · exact Shared.constructWith runtime contract _
  · exact .pure _

section Names

variable {context : Context σ} (hosts : Hosts site context)

include hosts

theorem loadName_global {name : String} {frame : Frame}
    (unbound : frame.bindings name = none) (state : State σ)
    (missing : Ast.resolve state.scopes name = none) :
    context.loweredName name state =
      exec (site.machine.loadName site.moduleKey name frame) state := by
  obtain ⟨module, found, functions, imports⟩ := hosts.module
  simp only [Context.loweredName, withState_apply, missing, Machine.loadName, unbound,
    found, functions, imports, hosts.runtime, hosts.key, Koschei.lift, Comp.pure_bind]
  split
  · rfl
  · cases context.runtime.constructor name with
    | some constructor => rfl
    | none =>
      cases builtin name with
      | some builtin => rfl
      | none =>
        cases context.module.imports.lookup name with
        | some key => rfl
        | none => rfl

theorem loweredName_eq (name : String) {L : Lowerer} {Γ : Scoping} {state : State σ}
    {frame : Frame} {store : Store σ} (cut : Γ.flatten = L.scopes.flatten)
    (linked : Linked site.final Γ state frame store) :
    (∃ fault, context.loweredName name state = .raise (.fault fault) state) ∨
      context.loweredName name state =
        exec (site.machine.loadName site.moduleKey (bindingName L name) frame) state := by
  cases found : Ast.resolve state.scopes name with
  | some cell =>
    right
    obtain ⟨internal, -, same, bound⟩ := linked.binding cut found
    simp only [Context.loweredName, withState_apply, found, Machine.loadName, same, bound]
    rfl
  | none =>
    rw [linked.unresolved cut found]
    by_cases used : name ∈ site.final.used
    · -- A name that is bound somewhere is no global name, so the lane finds nothing.
      left
      have none := hosts.apart name used
      simp only [Context.isGlobal, or_eq_false_iff, Option.isSome_eq_false_iff,
        isNone_iff_eq_none] at none
      obtain ⟨⟨⟨⟨-, function⟩, constructor⟩, builtin⟩, module⟩ := none
      exact ⟨_, by simp [Context.loweredName, found, function, constructor, builtin, module,
        Ast.fail]; rfl⟩
    · exact .inr (loadName_global hosts (linked.unbound name used) state found)

theorem SimExpr.ident (name : String) (type : TypeNode) :
    SimExpr site P (lowerIdent context.runtime.host name type)
      (context.loweredIdent name type) where
  lowers := .ident _ name type
  runs := by
    intro L id L' done ready part head tail state frame store cut linked
    have here := At.refl (P := P) ready cut linked
    simp only [lowerIdent, constructs] at done
    simp only [Context.loweredIdent, Context.constructs]
    cases identity : (if variantName context.runtime.host name = true then
        constructIdentity type name else none) with
    | some canonical =>
      rw [identity] at done
      obtain ⟨rfl, -, rfl⟩ := emitValue_ok.mp done
      refine here.emitValue (i := fun target => .variantConstruct target canonical none type)
        part (sealVariant_shared context.runtime canonical type []) fun fuel => rfl
    | none =>
      rw [identity] at done
      obtain ⟨rfl, -, rfl⟩ := emitValue_ok.mp done
      change Leads _ _ _ _ (context.loweredName name state)
      rcases loweredName_eq hosts name cut linked with ⟨fault, failed⟩ | same
      · rw [failed]
        exact .leave trivial
      · rw [same]
        exact here.emitValue (i := fun target => .load target (bindingName L name) type) part
          (loadName_shared _ frame) fun fuel => rfl

end Names

/-! ## Operators, members and calls -/

section Operations

variable {context : Context σ} (hosts : Hosts site context)
  {operand left right object : Lower ValueId} {items : Lower (List ValueId)}
  {x y : Eval σ Value} {xs : Eval σ (List Value)}

include hosts

theorem SimExpr.operator (first : SimExpr site P operand x) (operator : UnaryOperator)
    (type : TypeNode) :
    SimExpr site P (do
        let value ← operand
        Lowering.emitValue fun target => .unary target operator value type)
      (do exec (unaryValue context.runtime operator (← x))) := by
  refine first.unary (Shared.unaryValue context.runtime operator) ?_
  intro frame target id value fuel known
  simp only [executeInstruction, read_known known, Comp.pure_bind, hosts.runtime]

theorem SimExpr.memberOf (first : SimExpr site P object x) (name : String) (type : TypeNode) :
    SimExpr site P (lowerMember object name type)
      (do exec (memberValue context.runtime (← x) name)) := by
  refine first.unary (fun value => Shared.memberValue context.runtime value name) ?_
  intro frame target id value fuel known
  simp only [executeInstruction, read_known known, Comp.pure_bind, hosts.runtime]

/-- Both operands are evaluated before an Error among them is looked for. -/
def binaryValue (runtime : Runtime σ) (operator : BinaryOperator) (leftValue rightValue : Value) :
    Exec σ Value :=
  if leftValue.isError then pure leftValue
  else if rightValue.isError then pure rightValue
  else strictBinary runtime operator leftValue rightValue

theorem SimExpr.strict (first : SimExpr site P left x) (second : SimExpr site P right y)
    {operator : BinaryOperator} (strict : operator ≠ .and ∧ operator ≠ .or) (type : TypeNode) :
    SimExpr site P (lowerBinary operator left right type) (do
        let leftValue ← x
        exec (binaryValue context.runtime operator leftValue (← y))) := by
  refine first.binary second (fun value value' => ?_) ?_
  · exact Shared.ite (.pure _) (Shared.ite (.pure _) (Shared.strictBinary _ _ _ _))
  · intro frame target id id' value value' fuel known known'
    simp only [executeInstruction, Mir.binary, binaryValue, read_known known, read_known known',
      Comp.pure_bind, hosts.runtime]
    cases operator with
    | and => exact absurd rfl strict.1
    | or => exact absurd rfl strict.2
    | _ => rfl

theorem SimAll.listOf (parts : SimAll site P items xs) (type : TypeNode) : SimExpr site P (do
        let items ← items
        Lowering.emitValue fun target => .list target items type)
      (do exec (makeList context.runtime (← xs))) := by
  refine parts.combine (Shared.makeList context.runtime) ?_
  intro frame target ids values fuel known
  simp only [executeInstruction, readAll_known known, Comp.pure_bind, hosts.runtime]

omit hosts in
theorem renderAll_shared (values : List Value) : Shared (renderAll context values) := by
  induction values with
  | nil => exact .pure _
  | cons value values ih => exact Shared.bind (.askLift _) fun _ => Shared.bind ih fun _ => .pure _

theorem SimAll.interpolated (parts : SimAll site P items xs) (type : TypeNode) : SimExpr site P (do
        let items ← items
        Lowering.emitValue fun target => .interpolate target items type)
      (do
        let values ← xs
        exec (do pure (.str (← renderAll context values)))) := by
  have shared (values : List Value) :
      Shared (do pure (.str (← renderAll context values)) : Exec σ Value) :=
    Shared.bind (renderAll_shared values) fun _ => .pure _
  refine parts.combine shared ?_
  intro frame target ids values fuel known
  simp only [executeInstruction, interpolate_known _ known context hosts.runtime.symm]

theorem SimExpr.callOf (first : SimExpr site P callee x)
    (parts : SimAll site P items xs) (type : TypeNode) :
    SimExpr site P (lowerPlainCall callee items type) (do
        let function ← x
        exec (invoke context.runtime context.call function (← xs))) := by
  refine first.apply parts (fun value values => .invoke hosts.answers context.runtime _ _) ?_
  intro frame target id ids value values fuel known known'
  simp only [executeInstruction, read_known known, readAll_known known', Comp.pure_bind,
    hosts.runtime]

theorem SimExpr.capabilityCall (first : SimExpr site P object x) (parts : SimAll site P items xs)
    (capabilityType method canonicalEffect powerDomain : String) (type : TypeNode) :
    SimExpr site P
      (lowerCapabilityCall object items capabilityType method canonicalEffect powerDomain type)
      (do
        let receiver ← x
        exec (invokeCapability context.runtime context.call receiver (← xs) capabilityType
          method canonicalEffect powerDomain)) := by
  refine first.apply parts
    (fun value values => .invokeCapability hosts.answers context.runtime _ _ _ _ _ _) ?_
  intro frame target id ids value values fuel known known'
  simp only [executeInstruction, read_known known, readAll_known known', Comp.pure_bind,
    hosts.runtime]

omit hosts in
theorem mapMethodValue_shared (runtime : Runtime σ) (method : String) (receiver : Value)
    (arguments : List Value) : Shared (mapMethodValue runtime method receiver arguments) := by
  unfold mapMethodValue
  split
  · exact Shared.mapGet _ _
  · exact Shared.mapSet runtime _ _ _
  · exact Shared.mapKeys _
  · exact Shared.mapContains _ _
  · exact .raise _

omit hosts in
theorem executeInstruction_mapMethod {machine : Machine σ} {call : Caller σ}
    {moduleKey method : String} {receiver : ValueId} {ids : List ValueId} {type : TypeNode}
    {instruction : ValueId → Instruction}
    (found : mapMethodInstruction method receiver ids type = some instruction) {frame : Frame}
    {value : Value} {values : List Value} (known : frame.values receiver = some value)
    (known' : Forall₂ (fun id value => frame.values id = some value) ids values)
    (target : ValueId) :
    executeInstruction machine call moduleKey frame (instruction target) =
      frame.assign target (mapMethodValue machine.runtime method value values) := by
  unfold mapMethodInstruction at found
  split at found
  · obtain ⟨rfl⟩ := found
    obtain ⟨value', rest, first, more, rfl⟩ := List.forall₂_cons_left_iff.mp known'
    obtain rfl := List.forall₂_nil_left_iff.mp more
    simp only [executeInstruction, read_known known, read_known first, Comp.pure_bind,
      mapMethodValue]
  · obtain ⟨rfl⟩ := found
    obtain ⟨value', rest, first, more, rfl⟩ := List.forall₂_cons_left_iff.mp known'
    obtain ⟨value'', rest', second, more', rfl⟩ := List.forall₂_cons_left_iff.mp more
    obtain rfl := List.forall₂_nil_left_iff.mp more'
    simp only [executeInstruction, read_known known, read_known first, read_known second,
      Comp.pure_bind, mapMethodValue]
  · obtain ⟨rfl⟩ := found
    obtain rfl := List.forall₂_nil_left_iff.mp known'
    simp only [executeInstruction, read_known known, Comp.pure_bind, mapMethodValue]
  · obtain ⟨rfl⟩ := found
    obtain ⟨value', rest, first, more, rfl⟩ := List.forall₂_cons_left_iff.mp known'
    obtain rfl := List.forall₂_nil_left_iff.mp more
    simp only [executeInstruction, read_known known, read_known first, Comp.pure_bind,
      mapMethodValue]
  · cases found

theorem SimExpr.mapMethod (first : SimExpr site P object x) (parts : SimAll site P items xs)
    (method : String) (type : TypeNode) :
    SimExpr site P (lowerMapMethod object items method type) (do
        let receiver ← x
        exec (mapMethodValue context.runtime method receiver (← xs))) where
  lowers := first.lowers.mapMethod parts.lowers method type
  runs := by
    intro L id L' done ready part head tail state frame store cut linked
    simp only [lowerMapMethod, emitMapMethod, bind_ok, newValue_ok] at done
    obtain ⟨receiver, M, lowered, ids, N, lowered', _, _, ⟨rfl, rfl⟩, done⟩ := done
    obtain ⟨grown, bound⟩ := first.lowers _ _ _ lowered ready
    obtain ⟨grown', -⟩ := parts.lowers _ _ _ lowered' (grown.ready ready)
    cases found : mapMethodInstruction method receiver ids type with
    | none =>
      rw [found] at done
      cases done
    | some instruction =>
      simp only [found, bind_ok, emit_ok, pure_ok] at done
      obtain ⟨_, _, ⟨free, rfl⟩, rfl, rfl⟩ := done
      have atN := (part.before_push free).before_bump
      refine (At.refl ready cut linked).expr first lowered (grown'.toEmbeds.trans atN) ?_
      intro value state' frame' store' there _ known
      refine there.all parts lowered' atN ?_
      intro values state'' frame'' store'' last later known'
      refine last.emitValue (i := instruction) part
        (mapMethodValue_shared context.runtime method value values) fun fuel => ?_
      rw [← hosts.runtime]
      exact executeInstruction_mapMethod found (later.value known bound) known' _

omit hosts in
/-- The construction of a variant reads its payload, if there is one. -/
theorem variantConstruct_known {runtime : Runtime σ} {canonical : String} {type : TypeNode}
    {frame : Frame} {ids : List ValueId} {values : List Value}
    (known : Forall₂ (fun id value => frame.values id = some value) ids values) :
    variantConstruct runtime canonical ids.head? type frame =
      sealVariant runtime canonical type values := by
  cases known with
  | nil => rfl
  | cons first rest =>
    simp only [variantConstruct, sealVariant, head?_cons, read_known first, Comp.pure_bind]

/-- A constructor call. Its arguments are evaluated twice when it has no identity. -/
theorem SimExpr.constructOf {name : String} {calleeType : TypeNode}
    (first : SimExpr site P (lowerIdent context.runtime.host name calleeType) x)
    (parts : SimAll site P items xs) (count : Nat) (type : TypeNode) :
    SimExpr site P (lowerConstruct context.runtime.host name calleeType count items type) (do
        let values ← xs
        match constructIdentity type name with
        | none => do
          let function ← x
          exec (invoke context.runtime context.call function (← xs))
        | some canonical => exec (sealVariant context.runtime canonical type values)) where
  lowers := .construct _ parts.lowers name calleeType count type
  runs := by
    intro L id L' done ready part head tail state frame store cut linked
    simp only [lowerConstruct, bind_ok] at done
    obtain ⟨_, M, admitted, ids, N, lowered, done⟩ := done
    obtain rfl := constructorArity_ok admitted
    obtain ⟨grown, -⟩ := parts.lowers _ _ _ lowered ready
    cases identity : constructIdentity type name with
    | some canonical =>
      rw [identity] at done
      obtain ⟨rfl, free, rfl⟩ := emitValue_ok.mp done
      refine (At.refl ready cut linked).all parts lowered (part.before_push free).before_bump ?_
      intro values state' frame' store' there _ known
      refine there.emitValue
        (i := fun target => .variantConstruct target canonical ids.head? type) part
        (sealVariant_shared context.runtime canonical type values) fun fuel => ?_
      simp only [executeInstruction, variantConstruct_known known, hosts.runtime]
    | none =>
      rw [identity] at done
      have called := first.callOf hosts parts type
      obtain ⟨grown', -⟩ := called.lowers _ _ _ done (grown.ready ready)
      refine (At.refl ready cut linked).all parts lowered (grown'.toEmbeds.trans part) ?_
      intro values state' frame' store' there _ known
      refine there.exprLast called done part ?_
      intro value state'' frame'' store'' last _ known'
      exact .here ⟨frame'', store'', rfl, last, known'⟩

/-! ## Assignments -/

theorem SimExpr.assignField (second : SimExpr site P right y) (name : String)
    (objectType : TypeNode) (field : String) (type : TypeNode) :
    SimExpr site P
      (lowerAssignField context.runtime.host name objectType field right type)
      (do
        let receiver ← context.loweredIdent name objectType
        exec (structFieldSet context.runtime receiver field (← y))) := by
  refine (SimExpr.ident hosts name objectType).binary second
    (fun value value' => Shared.structFieldSet context.runtime value field value') ?_
  intro frame target id id' value value' fuel known known'
  simp only [executeInstruction, read_known known, read_known known', Comp.pure_bind, hosts.runtime]

end Operations

/-- An assignment overwrites the cell its name denotes. -/
theorem SimExpr.assign {value : Lower ValueId}
    (first : SimExpr site P value x) (name : String) (type : TypeNode) :
    SimExpr site P (lowerAssign name value type) (do
        let result ← x
        assignName name result) where
  lowers := first.lowers.assign name type
  runs := by
    intro L id L' done ready part head tail state frame store cut linked
    simp only [lowerAssign, bind_ok, withState_apply, emit_ok, pure_ok] at done
    obtain ⟨source, M, lowered, _, _, ⟨free, rfl⟩, rfl, rfl⟩ := done
    refine (At.refl ready cut linked).expr first lowered (part.before_push free) ?_
    intro value state' frame' store' there _ known
    simp only [assignName, readName, bind_apply, withState_apply]
    cases found : Ast.resolve state'.scopes name with
    | none => exact .leave trivial
    | some cell =>
      simp only [pure_apply, andThen]
      cases isMutable : cell.isMutable with
      | false => exact .leave trivial
      | true =>
        obtain ⟨internal, looked, same, bound⟩ := there.linked.binding there.cut found
        have seen : internal ∈ visible M := mem_map_of_mem (mem_of_lookup looked)
        have looked' : (head :: tail).flatten.lookup name = some internal := by
          rw [there.cut, looked]
        have nodup : ((head :: tail).flatten.map snd).Nodup := by
          rw [there.cut]
          exact there.ready.lexical.nodup
        have linked' := there.linked.assign nodup looked' bound value
        rw [isMutable] at linked'
        have stepped : site.next (site.here M frame' store')
            (site.here (M.push (.store (bindingName M name) id type))
              (frame'.bind internal ⟨value, true⟩) store') := by
          refine Site.next_push part there.ready.inside (.of_forall fun fuel => ?_)
          simp only [executeInstruction, storeName, same, bound, isMutable, if_true,
            read_known known, Comp.pure_bind, pure_apply]
        refine ⟨_, .single stepped, _, _, rfl, there.trans ⟨?_, ?_, there.cut, linked', ?_⟩, known⟩
        · exact ((Regular.refl there.ready).push _).orderly there.ready
        · exact ((Regular.refl (P := P) there.ready).push _).ready there.ready
        · exact Keeps.refl.bind (fun _ => seen) _

end Koschei.Lowering
