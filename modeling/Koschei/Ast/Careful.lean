import Koschei.Ast.Evaluate

/-!
# Runs that meet the conditions of their steps

Where the interpreter and lowered code may differ, the evaluation has a
condition on the state before the step. Under the condition the two ways have the
same outcome, so a run of `Lane.careful`, which says nothing as soon as a
condition fails, is below the run of the interpreter and below the run of lowered
code, in the order of how much an outcome says.
-/

namespace Koschei.Ast

open Lib

variable {σ α β : Type}

/-! ## The conditions -/

variable {value : Value}

theorem interpreterLiteral_eq (safe : ∀ i, value = .int i → InRange i) :
    interpreterLiteral value = Mir.constValue value := by
  cases value with
  | int i =>
    obtain ⟨low, high⟩ := safe i rfl
    simp [interpreterLiteral, Mir.constValue, low, high]
  | _ => rfl

variable {left right : Value}

theorem interpreterArith_eq (runtime : Runtime σ) (op : ArithOp) (text : String)
    (safe : ∀ i j, left = .int i → right = .int j → InRange (match op with
        | .add => i + j
        | .sub => i - j
        | _ => i * j)) :
    interpreterArith runtime op text left right = Mir.checkedArith runtime op text left right := by
  cases left with
  | int i =>
    cases right with
    | int j =>
      have range := safe i j rfl rfl
      unfold interpreterArith Mir.checkedArith
      cases op <;> simp only [InRange] at range <;> simp [range]
    | _ => rfl
  | _ => rfl

/-- Under the condition the lanes compute a binary operator alike. -/
theorem interpreterStrict_eq (runtime : Runtime σ) {operator : BinaryOperator}
    (safe : StrictSafe operator left right) :
    interpreterStrict runtime operator left right =
      Mir.strictBinary runtime operator left right := by
  cases operator with
  | add => exact interpreterArith_eq runtime .add "+" safe
  | sub => exact interpreterArith_eq runtime .sub "-" safe
  | mul => exact interpreterArith_eq runtime .mul "*" safe
  | div =>
    simp only [interpreterStrict, Mir.strictBinary]
    congr 1
    funext zero
    cases zero with
    | true => rfl
    | false =>
      simp only [false_eq_true, if_false]
      cases left with
      | int i =>
        cases right with
        | int j =>
          have fits : ¬ (i = intMin ∧ j = -1) := by
            rintro ⟨rfl, rfl⟩
            exact safe ⟨rfl, rfl⟩
          simp [fits]
        | _ => rfl
      | _ => rfl
  | rem =>
    obtain ⟨i, j, rfl, rfl, fits⟩ := safe
    simp only [interpreterStrict, Mir.strictBinary, fits, if_false]
  | and => exact safe.elim
  | or => exact safe.elim
  | _ => rfl

theorem interpreterUnary_eq (runtime : Runtime σ) {operator : UnaryOperator}
    (safe : ¬ (operator = .neg ∧ value = .int intMin)) :
    interpreterUnary runtime operator value = Mir.unaryValue runtime operator value := by
  cases operator with
  | not => rfl
  | neg =>
    cases value with
    | int i =>
      have fits : i ≠ intMin := by
        rintro rfl
        exact safe ⟨rfl, rfl⟩
      simp [interpreterUnary, Mir.unaryValue, fits]
    | _ => rfl

namespace Context

variable (context : Context σ) {name : String}

theorem builtin_of_not_extension (plain : extensionBuiltins.contains name = false) :
    builtin name = if ["print", "println", "Error"].contains name then some (.str name)
      else none := by
  simp only [builtin]
  congr 1
  simp only [extensionBuiltins, builtinCalls, List.contains_cons, List.contains_nil] at plain ⊢
  simp_all

theorem interpreterName_eq {type : TypeNode} {state : State σ}
    (safe : context.NameSafe name type state) :
    context.interpreterName name state = context.loweredIdent name type state := by
  obtain ⟨noVariant, resolved⟩ := safe
  simp only [loweredIdent, noVariant, loweredName, withState_apply]
  cases found : resolve state.scopes name with
  | some cell =>
    rw [found] at resolved
    simp only [isGlobal, or_eq_false_iff, Option.isSome_eq_false_iff,
      isNone_iff_eq_none] at resolved
    obtain ⟨⟨⟨⟨plain, function⟩, constructor⟩, noBuiltin⟩, module⟩ := resolved
    have unnamed : (["print", "println", "Error"].contains name) = false := by
      rw [builtin_of_not_extension plain] at noBuiltin
      by_contra named
      rw [not_eq_false] at named
      rw [if_pos named] at noBuiltin
      cases noBuiltin
    simp only [interpreterName, plain, function, constructor, unnamed, module,
      false_eq_true, if_false, readName, bind_apply, withState_apply, found]
    rfl
  | none =>
    rw [found] at resolved
    obtain ⟨isGlobal, extension⟩ := resolved
    cases plain : extensionBuiltins.contains name with
    | true =>
      obtain ⟨named, function, constructor⟩ := extension plain
      have self : builtin name = some (.str name) := by
        unfold builtin at named ⊢
        by_cases known : builtinCalls.contains name = true
        · rw [if_pos known]
        · rw [if_neg known] at named
          cases named
      simp only [interpreterName, plain, function, constructor, self, if_true,
        false_eq_true, if_false]
    | false =>
      simp only [interpreterName, plain, false_eq_true, if_false, builtin_of_not_extension plain]
      split
      · rfl
      · rename_i noFunction
        cases constructor : context.runtime.constructor name with
        | some constructor => rfl
        | none =>
          dsimp only
          by_cases named : (["print", "println", "Error"].contains name) = true
          · simp only [named, if_true]
          · simp only [named, false_eq_true, if_false]
            cases imported : context.module.imports.lookup name with
            | some key => rfl
            | none =>
              have unnamed : builtin name = none := by
                rw [builtin_of_not_extension plain, if_neg named]
              rw [not_eq_true] at noFunction
              rw [Context.isGlobal, plain, noFunction, constructor, unnamed, imported] at isGlobal
              cases isGlobal

theorem interpreterMember_eq {receiver : Value} (safe : context.MemberSafe receiver name) :
    context.interpreterMember receiver name = Mir.memberValue context.runtime receiver name := by
  cases receiver with
  | module key =>
    obtain ⟨found, known⟩ := safe key rfl
    simp [interpreterMember, Mir.memberValue, known]
  | _ => rfl

end Context

/-! ## Lanes that follow one another -/

theorem exec_below {x y : Exec σ α} (below : x.Below y) : (exec x).Below (exec y) := by
  intro state
  unfold exec
  rcases below state.store with none | same
  · rw [none]
    exact .timeout _
  · rw [same]
    exact .refl _

/-- A lane whose steps, where they meet their condition, are steps of another lane. -/
structure Follows (lane lane' : Lane σ) : Prop where
  choose : ∀ {α : Type} {safe safe' : State σ → Prop} {first second first' second' : Eval σ α},
    (∀ state, safe state → first state = second state) → first.Below first' → second.Below second' →
        (lane.choose safe first second).Below (lane'.choose safe' first' second')
  require : ∀ {α : Type} {safe : State σ → Prop} {rest : Unit → Eval σ α} {state : State σ}
    {other : Outcome Signal (State σ) α}, (safe state → (rest () state).Below other) →
      ((lane.require safe >>= rest) state).Below other
  alike : ∀ {α : Type} {first second first' second' : Exec σ α}, first.Below first' →
    second.Below second' →
      (lane.alike first second).Below (exec first') ∧ (lane.alike first second).Below (exec second')
  split : ∀ {α : Type} {first second common first' second' common' : Eval σ α},
    common.Below first' → common.Below second' →
      (lane.split first second common).Below (lane'.split first' second' common')
  callFault : ∀ fault, (lane.callFault fault).Below (lane'.callFault fault)

variable {state : State σ} {safe : State σ → Prop}

/-- A step that meets its condition is taken. -/
theorem careful_choose {first second : Eval σ α}
    (holds : safe state) : Lane.careful.choose safe first second state = first state := by
  simp only [Lane.careful, if_pos holds]

theorem careful_literal (context : Context σ) (careful : context.lane = Lane.careful)
    (fuel : Nat) (value : Value) (type : TypeNode) (state : State σ)
    (range : ∀ i, value = .int i → InRange i) :
    (meaning context (fuel + 1)).expr (.literal value type) state =
      .ok (interpreterLiteral value) state := by
  simp only [meaning, exprStep, careful]
  exact careful_choose range

/-- A condition that fails says nothing. -/
theorem careful_require {rest : Unit → Eval σ α}
    {other : Outcome Signal (State σ) α} (below : safe state → (rest () state).Below other) :
    ((Lane.careful.require safe >>= rest) state).Below other := by
  rw [bind_apply]
  simp only [Lane.require, Lane.careful]
  split
  · rename_i holds
    exact below holds
  · exact .timeout _

theorem careful_alike {first second first' second' : Exec σ α} (below : first.Below first')
    (below' : second.Below second') :
    (Lane.careful.alike first second).Below (exec first') ∧
      (Lane.careful.alike first second).Below (exec second') := by
  constructor
  · intro state
    simp only [Lane.alike, Lane.careful]
    split
    · exact exec_below below state
    · exact .timeout _
  · intro state
    simp only [Lane.alike, Lane.careful]
    split
    · rename_i same
      have ran : exec first state = exec second state := by simp only [exec, same]
      rw [ran]
      exact exec_below below' state
    · exact .timeout _

theorem careful_follows_interpreter : Follows (Lane.careful : Lane σ) Lane.interpreter where
  choose := by
    intro α safe safe' first second first' second' _ below _ state
    simp only [Lane.careful, Lane.interpreter]
    split
    · exact below state
    · exact .timeout _
  require := careful_require
  alike := careful_alike
  split below _ := below
  callFault fault := .timeout _

theorem careful_follows_lowered : Follows (Lane.careful : Lane σ) Lane.lowered where
  choose := by
    intro α safe safe' first second first' second' same _ below state
    simp only [Lane.careful, Lane.lowered]
    split
    · rename_i holds
      rw [same state holds]
      exact below state
    · exact .timeout _
  require := careful_require
  alike := careful_alike
  split _ below := below
  callFault fault := .timeout _

/-! ## Computations of the runtime -/

theorem exec_known {x : Exec σ α} {a : α}
    (known : x state.store = .ok a state.store) : exec x state = .ok a state := by
  simp only [exec, known]

/-- A computation whose outcome is known. -/
theorem bind_known {x : Eval σ α} {f : α → Eval σ β} {state' : State σ} {a : α}
    (known : x state = .ok a state') : (x >>= f) state = f a state' := by
  rw [bind_apply, known]
  rfl

/-- A reading of the runtime that says nothing where it fails. -/
theorem quietly_below {read : σ → Except Fault α} {rest : α → Eval σ β}
    {other : Outcome Signal (State σ) β}
    (below : ∀ a, read state.store.host = .ok a → (rest a state).Below other) :
    ((quietly (askLift read) >>= rest) state).Below other := by
  simp only [bind_apply, quietly, askLift]
  cases known : read state.store.host with
  | error fault => exact .timeout _
  | ok a => exact below a known

/-- Callers that say at most what others say. -/
def CallsBelow (call call' : Caller σ) : Prop :=
  ∀ moduleKey name arguments, (call moduleKey name arguments).Below (call' moduleKey name arguments)

variable {call call' : Caller σ}

section

variable (calls : CallsBelow call call')

include calls

theorem run_below (primitive : Prim σ) : (primitive.run call).Below (primitive.run call') := by
  induction primitive with
  | done result host => cases result <;> exact .refl _
  | call moduleKey name arguments host resume ih =>
    intro store
    simp only [Prim.run]
    rcases calls moduleKey name arguments { store with host := host } with none | same
    · rw [none]
      exact .timeout _
    · rw [same]
      cases call' moduleKey name arguments { store with host := host } with
      | ok value store' => exact ih (.ok value) store'.host store'
      | raise fault store' => exact ih (.error fault) store'.host store'
      | timeout => exact .refl _

theorem runPrim_below
    (primitive : σ → Prim σ) : (runPrim call primitive).Below (runPrim call' primitive) :=
  fun store => run_below calls (primitive store.host) store

theorem invoke_below (runtime : Runtime σ) (callee : Value) (arguments : List Value) :
    (invoke runtime call callee arguments).Below (invoke runtime call' callee arguments) := by
  cases callee with
  | function moduleKey name => exact calls moduleKey name arguments
  | _ => exact runPrim_below calls _

theorem invokeCapability_below (runtime : Runtime σ) (receiver : Value) (arguments : List Value)
    (capabilityType method canonicalEffect powerDomain : String) :
    (Mir.invokeCapability runtime call receiver arguments capabilityType method canonicalEffect
      powerDomain).Below
      (Mir.invokeCapability runtime call' receiver arguments capabilityType method
        canonicalEffect powerDomain) :=
  .bind (.refl _) fun _ => .bind (.refl _) fun _ => runPrim_below calls _

end

/-! ## Evaluation -/

/-- What is computed with some fuel says at most what something else says. -/
structure Meaning.Below (m m' : Meaning σ) : Prop where
  expr : ∀ e, (m.expr e).Below (m'.expr e)
  stmt : ∀ s, (m.stmt s).Below (m'.stmt s)
  whileLoop : ∀ condition body result,
    (m.whileLoop condition body result).Below (m'.whileLoop condition body result)

theorem inScope_below {x y : Eval σ α} (below : x.Below y) : (inScope x).Below (inScope y) := by
  intro state
  exact Comp.Below.finallyDo below _ _

/-- The same place of evaluation with another lane and another caller. -/
def Context.follow (context : Context σ) (lane : Lane σ) (call : Caller σ) : Context σ :=
  { context with lane := lane, call := call }

section Step

variable {context : Context σ} {lane' : Lane σ} {call' : Caller σ} {m m' : Meaning σ}
  (follows : Follows context.lane lane') (calls : CallsBelow context.call call')
  (below : m.Below m')

include below in
theorem evaluateAll_below (es : List Expr) : (evaluateAll m es).Below (evaluateAll m' es) := by
  induction es with
  | nil => exact .refl _
  | cons e es ih => exact .bind (below.expr e) fun _ => .bind ih fun _ => .refl _

include below in
theorem executeStatements_below (statements : List Stmt) (result : Value) :
    (executeStatements m statements result).Below (executeStatements m' statements result) := by
  induction statements generalizing result with
  | nil => exact .refl _
  | cons statement rest ih => exact .bind (below.stmt statement) fun value => ih value

include below in
theorem executeBlock_below (statements : List Stmt) :
    (executeBlock m statements).Below (executeBlock m' statements) :=
  inScope_below (executeStatements_below below statements .unit)

/-- A condition that both computations test. -/
theorem ite_below {P : Prop} [Decidable P] {x y x' y' : Eval σ α} (first : x.Below x')
    (second : y.Below y') : (if P then x else y : Eval σ α).Below (if P then x' else y') := by
  split
  · exact first
  · exact second

/-! ### Interpolation and container literals -/

include follows below in
theorem commonParts_interpreter (parts : List Expr) : (commonParts context m parts).Below
      (interpreterParts (context.follow lane' call') m' parts) := by
  induction parts with
  | nil => exact .refl _
  | cons part rest ih =>
    refine .bind (below.expr part) fun value state => quietly_below fun text known => ?_
    have read : exec (askLift fun host =>
        (context.follow lane' call').runtime.toText host value) state = .ok text state := by
      simp only [exec, askLift, Context.follow, known]
    rw [bind_known read]
    exact Comp.Below.bind ih (fun texts state => follows.require fun _ => .refl _) state

theorem renderAll_follow (context : Context σ) (lane : Lane σ) (call : Caller σ)
    (values : List Value) :
    renderAll (context.follow lane call) values = renderAll context values := by
  induction values with
  | nil => rfl
  | cons value values ih =>
    simp only [renderAll, ih]
    rfl

variable {s : Store σ}

theorem renderAll_cons {values : List Value} {text texts : String}
    (first : context.runtime.toText s.host value = .ok text)
    (rest : renderAll context values s = .ok texts s) :
    renderAll context (value :: values) s = .ok (text ++ texts) s := by
  refine andThen_eq_ok.mpr ⟨text, s, by simp only [askLift, first], ?_⟩
  exact andThen_eq_ok.mpr ⟨texts, s, rest, rfl⟩

include follows below in
theorem commonParts_lowered (parts : List Expr) {f : String → Eval σ α}
    {g : List Value → Eval σ α}
    (continues : ∀ values texts state, renderAll context values state.store =
      .ok texts state.store → (f texts state).Below (g values state)) :
    (commonParts context m parts >>= f).Below (evaluateAll m' parts >>= g) := by
  induction parts generalizing f g with
  | nil => exact fun state => continues [] "" state rfl
  | cons part rest ih =>
    simp only [commonParts, evaluateAll, Comp.bind_assoc]
    refine .bind (below.expr part) fun value state => quietly_below fun text known => ?_
    refine ih ?_ state
    intro values texts state' rendered
    refine follows.require fun kept => ?_
    exact continues _ _ _ (renderAll_cons kept rendered)

include follows below in
theorem commonList_interpreter (es : List Expr) (items : List Value) :
    (commonList context m es items).Below
      (interpreterList (context.follow lane' call') m' es items) := by
  induction es generalizing items with
  | nil => exact fun state => follows.require fun _ => .refl _
  | cons e es ih =>
    refine .bind (below.expr e) fun value state => follows.require fun plain => ?_
    have read : exec (ask fun host =>
        (context.follow lane' call').runtime.containsCapability host value) state =
          .ok false state := by
      simp only [exec, ask, Context.follow, plain.2]
    rw [if_neg (by simp [plain.1]), bind_known read]
    exact ih _ state

variable {runtime : Runtime σ}

theorem anyCapability_none {items : List Value}
    (plain : ∀ item ∈ items, runtime.containsCapability s.host item = false) :
    Mir.anyCapability runtime items s = .ok false s := by
  induction items with
  | nil => rfl
  | cons item items ih =>
    have rest := ih (forall_mem_cons.mp plain).2
    simp only [Mir.anyCapability, bind_apply, ask, plain item mem_cons_self,
      andThen, false_eq_true, if_false, rest]

include follows below in
theorem commonList_lowered (es : List Expr) (items : List Value) :
    (commonList context m es items).Below (do
      let values ← evaluateAll m' es
      exec (Mir.makeList context.runtime (items ++ values))) := by
  induction es generalizing items with
  | nil =>
    refine fun state => follows.require fun plain => ?_
    have made : exec (Mir.makeList context.runtime (items ++ [])) state =
        .ok (.list items) state := by
      rw [append_nil]
      simp only [exec, Mir.makeList, bind_apply, anyCapability_none plain,
        andThen, false_eq_true, if_false, pure_apply]
    rw [evaluateAll, Comp.pure_bind, made]
    exact .refl _
  | cons e es ih =>
    simp only [commonList, evaluateAll, Comp.bind_assoc, Comp.pure_bind]
    refine .bind (below.expr e) fun value state => follows.require fun _ => ?_
    have rest := ih (items ++ [value]) state
    simpa only [append_assoc, singleton_append] using rest

include follows below in
theorem commonMap_interpreter (entries : List (Expr × Expr)) (made : List (String × Value)) :
    (commonMap context m entries made).Below
      (interpreterMap (context.follow lane' call') m' entries made) := by
  induction entries generalizing made with
  | nil => exact .refl _
  | cons entry entries ih =>
    obtain ⟨keyExpression, valueExpression⟩ := entry
    refine .bind (below.expr keyExpression) fun key state => ?_
    cases key with
    | error message => exact .refl _
    | str text =>
      refine follows.require fun fresh => ?_
      simp only [fresh, false_eq_true, if_false]
      refine Comp.Below.bind (below.expr valueExpression) (fun value => ite_below (.refl _) ?_)
        state
      refine fun state => follows.require fun plain => ?_
      have read : exec (ask fun host =>
          (context.follow lane' call').runtime.containsCapability host value) state =
            .ok false state := by
        simp only [exec, ask, Context.follow, plain]
      rw [bind_known read]
      exact ih _ state
    | _ => exact .timeout _

include follows below in
theorem commonMap_lowered (entries : List (Expr × Expr)) (made : List (String × Value)) :
    (commonMap context m entries made).Below
      (loweredMap (context.follow lane' call') m' entries made) := by
  induction entries generalizing made with
  | nil => exact .refl _
  | cons entry entries ih =>
    obtain ⟨keyExpression, valueExpression⟩ := entry
    refine .bind (below.expr keyExpression) fun key state => ?_
    cases key with
    | error message => exact .refl _
    | str text =>
      refine follows.require fun fresh => ?_
      refine Comp.Below.bind (below.expr valueExpression) (fun value => ite_below (.refl _) ?_)
        state
      refine fun state => follows.require fun plain => ?_
      have inserts : exec (askLift fun host =>
          Mir.insertEntry (context.follow lane' call').runtime host made (.str text) value)
            state = .ok (made ++ [(text, value)]) state := by
        simp only [exec, askLift, Mir.insertEntry, fresh, false_eq_true, if_false,
          Runtime.text_plain, Context.follow, plain, Bool.or_self]
      rw [bind_known inserts]
      exact ih _ state
    | _ => exact .timeout _

variable {declaration : StructDeclaration} {required : List String} {concrete : List TypeNode}

theorem setField_ok {host : σ} {fields fields' : List (String × Value)} {name : String}
    (admitted : Mir.setField runtime host declaration required concrete fields name value =
      .ok fields') :
    ∃ field, (declaration.fields.reverse.find? fun field => field.name == name) = some field := by
  unfold Mir.setField at admitted
  split at admitted
  · cases admitted
  · split at admitted
    · cases admitted
    · split at admitted
      · cases admitted
      · exact ⟨_, ‹_›⟩

include follows below in
theorem commonFields_interpreter {declaration : StructDeclaration} (required : List String)
    (concrete : List TypeNode) (plain : declaration.typeParameters.isEmpty = true)
    (fields : List (String × Expr)) (made : List (String × Value)) :
    (commonFields context m declaration required concrete fields made).Below
      (interpreterFields (context.follow lane' call') m' declaration.name (some declaration) fields
        made) := by
  induction fields generalizing made with
  | nil =>
    refine fun state => follows.require fun finished => ?_
    obtain ⟨-, none⟩ := finished
    rw [if_pos plain] at none
    subst none
    exact .refl _
  | cons field fields ih =>
    obtain ⟨name, expression⟩ := field
    refine fun state => follows.require fun fresh => ?_
    refine Comp.Below.bind (below.expr expression) (fun value => ite_below (.refl _) ?_) state
    refine fun state => follows.require fun safe => ?_
    obtain ⟨field, found⟩ := setField_ok safe.1
    have asked : exec (ask fun host => (context.follow lane' call').runtime.matchesType host
        value field.names [] (some [])) state = .ok (context.runtime.matchesType
          state.store.host value field.names [] (some [])) state := rfl
    simp only [bind_some, found]
    rw [bind_known asked, if_pos (safe.2 plain field found)]
    have added : setPlainField made name value = made ++ [(name, value)] := by
      simp only [setPlainField, Mir.replaceEntry, fresh.1, false_eq_true, if_false]
    rw [added]
    exact ih _ state

include follows below in
theorem commonFields_generic {declaration : StructDeclaration} (required : List String)
    (concrete : List TypeNode) (generic : declaration.typeParameters.isEmpty = false)
    (fields : List (String × Expr)) (made : List (String × Value)) :
    (commonFields context m declaration required concrete fields made).Below
      (interpreterGenericFields (context.follow lane' call') m' declaration fields made) := by
  induction fields generalizing made with
  | nil =>
    refine fun state => follows.require fun finished => ?_
    obtain ⟨-, complete⟩ := finished
    rw [if_neg (by simp [generic])] at complete
    obtain ⟨complete, inferred⟩ := complete
    have none : ((declaration.fields.map StructField.name).filter fun name =>
        !made.any fun entry => entry.1 == name) = [] := by
      rw [filter_eq_nil_iff]
      intro name inside
      simp [all_eq_true.mp complete name inside]
    have asked : exec (askLift ((context.follow lane' call').inference.structContract
        declaration made)) state = .ok (concrete.map TypeNode.render) state := by
      simp only [exec, askLift, Context.follow, inferred]
    simp only [interpreterGenericFields, none, List.isEmpty_nil, if_true]
    rw [bind_known asked]
    exact .refl _
  | cons field fields ih =>
    obtain ⟨name, expression⟩ := field
    refine fun state => follows.require fun fresh => ?_
    simp only [interpreterGenericFields, fresh.1, fresh.2, false_eq_true, if_false, Bool.not_true]
    refine Comp.Below.bind (below.expr expression) (fun value => ite_below (.refl _) ?_) state
    exact fun state => follows.require fun _ => ih _ state

include follows below in
theorem commonFields_lowered (declaration : StructDeclaration) (required : List String)
    (concrete : List TypeNode) (fields : List (String × Expr)) (made : List (String × Value)) :
    (commonFields context m declaration required concrete fields made).Below
      (loweredFields (context.follow lane' call') m' declaration required concrete fields
        made) := by
  induction fields generalizing made with
  | nil =>
    refine fun state => follows.require fun finished => ?_
    have lifted : exec (lift (Mir.finishFields declaration required made)) state =
        .ok made state := by
      simp only [exec, finished.1, lift, pure_apply]
    rw [loweredFields, bind_known lifted]
    exact .refl _
  | cons field fields ih =>
    obtain ⟨name, expression⟩ := field
    refine fun state => follows.require fun _ => ?_
    refine Comp.Below.bind (below.expr expression) (fun value => ite_below (.refl _) ?_) state
    refine fun state => follows.require fun safe => ?_
    have set : exec (askLift fun host => Mir.setField (context.follow lane' call').runtime host
        declaration required concrete made name value) state =
          .ok (made ++ [(name, value)]) state := by
      simp only [exec, askLift, Context.follow, safe.1]
    rw [bind_known set]
    exact ih _ state

theorem builderContract_ok {typeName : String} {type : TypeNode}
    (contract : Mir.builderContract runtime typeName required type = .ok (declaration, concrete)) :
    runtime.structs typeName = some declaration := by
  unfold Mir.builderContract at contract
  split at contract
  · cases contract
  · rename_i declared known
    split at contract
    · cases contract
    · split at contract
      · cases contract
      · split at contract
        · cases contract
        · split at contract
          · cases contract
          · cases contract
            exact known

include follows below in
theorem commonStruct_interpreter (typeName : String) (fields : List (String × Expr))
    (required : List String) (type : TypeNode) :
    (commonStruct context m typeName fields required type).Below
      (interpreterStruct (context.follow lane' call') m' typeName fields) := by
  unfold commonStruct
  split
  · exact .timeout _
  · rename_i declaration concrete contract
    refine fun state => follows.require fun named => ?_
    subst named
    have known : (context.follow lane' call').runtime.structs declaration.name =
        some declaration := builderContract_ok contract
    simp only [interpreterStruct, known]
    cases generic : declaration.typeParameters.isEmpty with
    | true => exact commonFields_interpreter follows below required concrete generic fields [] state
    | false => exact commonFields_generic follows below required concrete generic fields [] state

include follows below in
theorem commonStruct_lowered (typeName : String) (fields : List (String × Expr))
    (required : List String) (type : TypeNode) :
    (commonStruct context m typeName fields required type).Below
      (loweredStruct (context.follow lane' call') m' typeName fields required type) := by
  unfold commonStruct
  split
  · exact .timeout _
  · rename_i declaration concrete contract
    refine fun state => follows.require fun _ => ?_
    have lifted : exec (lift (Mir.builderContract (context.follow lane' call').runtime typeName
        required type)) state = .ok (declaration, concrete) state := by
      simp only [exec, Context.follow, contract, lift, pure_apply]
    rw [loweredStruct, bind_known lifted]
    exact commonFields_lowered follows below declaration required concrete fields [] state

/-! ### Assignments and calls -/

include follows below in
theorem commonAssignField_interpreter (object : String) (objectType : TypeNode) (field : String)
    (value : Expr) :
    (commonAssignField context m object objectType field value).Below
      (interpreterAssignField (context.follow lane' call') m' object field value) := by
  intro state
  simp only [commonAssignField, withState_apply]
  cases found : resolve state.scopes object with
  | none => exact .timeout _
  | some cell =>
    refine follows.require fun safe => ?_
    obtain ⟨isMutable, -, typeName, fields, arguments, parts, present⟩ := safe
    have reads {state : State σ} (found : resolve state.scopes object = some cell) :
        (readName object : Eval σ Cell) state = .ok cell state := by
      simp only [readName, withState_apply, found, pure_apply]
    have asks {state : State σ} {parts : Option (String × List (String × Value) × List String)}
        (known : context.runtime.structParts state.store.host cell.value = parts) :
        exec (ask fun host => (context.follow lane' call').runtime.structParts host cell.value)
          state = .ok parts state := by
      simp only [exec, ask, Context.follow, known]
    rw [interpreterAssignField, bind_known (reads found), if_neg (by simp [isMutable]),
      bind_known (asks parts)]
    simp only [present, Bool.not_true, false_eq_true, if_false]
    refine Comp.Below.bind (below.expr value) (fun result => ?_) state
    refine fun state => follows.require fun safe => ?_
    obtain ⟨found, typeName, fields, arguments, declaration, declared, parts, known, field,
      -, -, -, admits, -⟩ := safe
    have matched : exec (ask fun host => (context.follow lane' call').runtime.matchesType host
        result declared.names [] none) state = .ok (context.runtime.matchesType state.store.host
          result declared.names [] none) state := rfl
    rw [bind_known (reads found), bind_known (asks parts)]
    have known' : (context.follow lane' call').runtime.structs typeName = some declaration := known
    simp only [known', bind_some, field]
    rw [bind_known matched, Comp.pure_bind, if_pos admits]
    exact .refl _

include follows below in
theorem commonAssignField_lowered (object : String) (objectType : TypeNode) (field : String)
    (value : Expr) :
    (commonAssignField context m object objectType field value).Below (do
      let receiver ← (context.follow lane' call').loweredIdent object objectType
      let result ← m'.expr value
      exec (Mir.structFieldSet (context.follow lane' call').runtime receiver field result)) := by
  intro state
  simp only [commonAssignField, withState_apply]
  cases found : resolve state.scopes object with
  | none => exact .timeout _
  | some cell =>
    refine follows.require fun safe => ?_
    have reads : (context.follow lane' call').loweredIdent object objectType state =
        .ok cell.value state := by
      have noVariant : (context.follow lane' call').constructs object objectType = none :=
        safe.2.1.1
      simp only [Context.loweredIdent, noVariant, Context.loweredName, withState_apply,
        found, pure_apply]
    rw [bind_known reads]
    refine Comp.Below.bind (below.expr value) (fun result => ?_) state
    refine fun state => follows.require fun safe => ?_
    obtain ⟨-, typeName, fields, arguments, declaration, declared, parts, known, field,
      present, plain, arity, -, admits⟩ := safe
    simp only [exec, Context.follow, Mir.structFieldSet, withState_apply, parts, known,
      field, present, not_true_eq_false, if_false, bind_apply, ask, andThen, plain,
      false_eq_true, arity, ne_eq, admits, if_true, onHost, pure_apply]
    exact .refl _

include follows calls below in
theorem commonConstruct_interpreter (name : String) (arguments : List Expr) (type : TypeNode) :
    (commonConstruct context m name arguments type).Below
      (constructorCall (context.follow lane' call') m' name arguments) := by
  unfold commonConstruct
  split
  · exact .timeout _
  · intro state
    simp only [withState_apply]
    cases known : context.interpreterName name state with
    | ok function state' =>
      refine follows.require fun same => ?_
      subst same
      have known' : (context.follow lane' call').interpreterName name state' =
          .ok function state' := known
      rw [constructorCall, bind_known known']
      exact Comp.Below.bind (evaluateAll_below below arguments) (fun values =>
        (follows.alike (invoke_below calls context.runtime function values) (.refl _)).1) state'
    | _ => exact .timeout _

include follows calls below in
theorem commonConstruct_lowered (name : String) (callee : Expr) (arguments : List Expr)
    (type : TypeNode) :
    (commonConstruct context m name arguments type).Below
      (loweredConstruct (context.follow lane' call') m' name callee arguments type) := by
  unfold commonConstruct loweredConstruct
  cases constructIdentity type name with
  | none => exact .timeout _
  | some canonical =>
    intro state
    simp only [withState_apply]
    cases context.interpreterName name state with
    | ok function state' =>
      refine follows.require fun _ => ?_
      exact Comp.Below.bind (evaluateAll_below below arguments) (fun values =>
        (follows.alike (invoke_below calls context.runtime function values) (.refl _)).2) state
    | _ => exact .timeout _

include follows calls below in
theorem commonMember_interpreter (object : Expr) (name : String) (arguments : List Expr)
    (operation : Value → List Value → Exec σ Value) :
    (commonMember context m object name arguments operation).Below
      (memberCall (context.follow lane' call') m' object name arguments) := by
  refine .bind (below.expr object) fun receiver state => quietly_below fun function known => ?_
  have read : exec ((context.follow lane' call').interpreterMember receiver name) state =
      .ok function state := by
    cases receiver with
    | module key => cases known
    | _ => simp only [exec, Context.interpreterMember, askLift, Context.follow, known]
  rw [bind_known read]
  exact Comp.Below.bind (evaluateAll_below below arguments) (fun values =>
    (follows.alike (invoke_below calls context.runtime function values) (.refl _)).1) state

include follows calls below in
theorem commonMember_lowered (object : Expr) (name : String) (arguments : List Expr)
    {operation operation' : Value → List Value → Exec σ Value}
    (operations : ∀ receiver values,
      (operation receiver values).Below (operation' receiver values)) :
    (commonMember context m object name arguments operation).Below (do
      let receiver ← m'.expr object
      let values ← evaluateAll m' arguments
      exec (operation' receiver values)) := by
  refine .bind (below.expr object) fun receiver state => quietly_below fun function known => ?_
  exact Comp.Below.bind (evaluateAll_below below arguments) (fun values =>
    (follows.alike (invoke_below calls context.runtime function values)
      (operations receiver values)).2) state

include calls below in
theorem plainCall_below (callee : Expr) (arguments : List Expr) :
    (plainCall context m callee arguments).Below
      (plainCall (context.follow lane' call') m' callee arguments) :=
  .bind (below.expr callee) fun function => .bind (evaluateAll_below below arguments) fun values =>
    exec_below (invoke_below calls context.runtime function values)

include follows calls below in
theorem callStep_below (callee : Expr) (arguments : List Expr) (resolution : CallResolution)
    (type : TypeNode) :
    (callStep context m callee arguments resolution type).Below
      (callStep (context.follow lane' call') m' callee arguments resolution type) := by
  unfold callStep
  have same : callForm (context.follow lane' call').runtime.host callee resolution =
      callForm context.runtime.host callee resolution := rfl
  rw [same]
  cases callForm context.runtime.host callee resolution with
  | plain => exact plainCall_below calls below callee arguments
  | construct name =>
    exact follows.split (commonConstruct_interpreter follows calls below name arguments type)
      (commonConstruct_lowered follows calls below name callee arguments type)
  | capability object name capabilityType method canonicalEffect powerDomain =>
    exact follows.split (commonMember_interpreter follows calls below object name arguments _)
      (commonMember_lowered follows calls below object name arguments fun receiver values =>
        invokeCapability_below calls context.runtime receiver values _ _ _ _)
  | mapMethod object name method =>
    exact follows.split (commonMember_interpreter follows calls below object name arguments _)
      (commonMember_lowered follows calls below object name arguments fun _ _ => .refl _)

include follows below in
theorem shortCircuit_below (conjunction : Bool) (left right : Expr) :
    (shortCircuit context m conjunction left right).Below
      (shortCircuit (context.follow lane' call') m' conjunction left right) := by
  refine .bind (below.expr left) fun leftValue => ite_below (.refl _) (ite_below ?_ ?_)
  · refine .bind (below.expr right) fun rightValue => ?_
    exact follows.choose (fun _ same => by rw [same]) (.refl _) (.refl _)
  · exact follows.choose (fun _ same => by rw [same]) (.refl _) (.refl _)

include follows below in
theorem strictStep_below (operator : BinaryOperator) (left right : Expr) :
    (strictStep context m operator left right).Below
      (strictStep (context.follow lane' call') m' operator left right) := by
  refine .bind (below.expr left) fun leftValue => ite_below ?_ ?_
  · exact follows.choose (fun _ never => never.elim) (.refl _)
      (.bind (below.expr right) fun _ => .refl _)
  · refine .bind (below.expr right) fun rightValue => ite_below (.refl _) (ite_below (.refl _) ?_)
    exact follows.choose (fun _ safe => by rw [interpreterStrict_eq _ safe]) (.refl _) (.refl _)

include follows below in
theorem binaryStep_below (operator : BinaryOperator) (left right : Expr) :
    (binaryStep context m operator left right).Below
      (binaryStep (context.follow lane' call') m' operator left right) := by
  cases operator with
  | and => exact shortCircuit_below follows below true left right
  | or => exact shortCircuit_below follows below false left right
  | _ => exact strictStep_below follows below _ left right

include follows below in
theorem unaryStep_below (operator : UnaryOperator) (operand : Expr) :
    (unaryStep context m operator operand).Below
      (unaryStep (context.follow lane' call') m' operator operand) := by
  have general : Comp.Below (do
        let value ← m.expr operand
        context.lane.choose (fun _ => ¬ (operator = .neg ∧ value = .int intMin))
          (exec (interpreterUnary context.runtime operator value))
          (exec (Mir.unaryValue context.runtime operator value)))
      (do
        let value ← m'.expr operand
        lane'.choose (fun _ => ¬ (operator = .neg ∧ value = .int intMin))
          (exec (interpreterUnary context.runtime operator value))
          (exec (Mir.unaryValue context.runtime operator value))) := by
    refine .bind (below.expr operand) fun value => ?_
    exact follows.choose (fun _ safe => by rw [interpreterUnary_eq _ safe]) (.refl _) (.refl _)
  unfold unaryStep
  cases operator with
  | not => exact general
  | neg =>
    cases negatedLiteral operand with
    | none => exact general
    | some value =>
      exact follows.choose (fun _ never => never.elim) (.refl _)
        (.bind (below.expr operand) fun _ => .refl _)

include follows below in
theorem matchStep_below (value : Expr) (arms : List Arm) : (matchStep context m value arms).Below
      (matchStep (context.follow lane' call') m' value arms) := by
  refine .bind (below.expr value) fun scrutinee => ?_
  refine .bind (follows.choose (fun _ same => by rw [same]) (.refl _) (.refl _)) fun taken => ?_
  obtain ⟨arm, payload⟩ := taken
  refine inScope_below (.bind (.refl _) fun _ => ?_)
  cases arm with
  | expression variant canonical binding body => exact below.expr body
  | block variant canonical binding body => exact executeBlock_below below body

include follows calls below in
theorem exprStep_below (e : Expr) :
    (exprStep context m e).Below (exprStep (context.follow lane' call') m' e) := by
  cases e with
  | literal value type =>
    exact follows.choose (fun _ safe => by rw [interpreterLiteral_eq safe]) (.refl _) (.refl _)
  | ident name type =>
    exact follows.choose (fun _ safe => context.interpreterName_eq safe) (.refl _) (.refl _)
  | interpolated parts type =>
    exact follows.split (.bind (commonParts_interpreter follows below parts) fun _ => .refl _)
      (commonParts_lowered follows below parts fun values texts state rendered => by
        rw [renderAll_follow, bind_known (exec_known rendered)]
        exact .refl _)
  | list items type =>
    refine follows.split (fun state => follows.require fun _ =>
      commonList_interpreter follows below items [] state)
      fun state => follows.require fun typed => ?_
    obtain ⟨item, known⟩ := isSome_iff_exists.mp typed
    simp only [loweredList, known]
    exact commonList_lowered follows below items [] state
  | map entries type =>
    exact follows.split (commonMap_interpreter follows below entries [])
      (commonMap_lowered follows below entries [])
  | struct typeName fields required type =>
    exact follows.split (commonStruct_interpreter follows below typeName fields required type)
      (commonStruct_lowered follows below typeName fields required type)
  | member object name type =>
    refine .bind (below.expr object) fun receiver => ?_
    exact follows.choose (fun _ safe => by rw [context.interpreterMember_eq safe]) (.refl _)
      (.refl _)
  | call callee arguments resolution type =>
    exact callStep_below follows calls below callee arguments resolution type
  | assign name value type => exact .bind (below.expr value) fun _ => .refl _
  | assignField object objectType field value type =>
    exact follows.split
      (commonAssignField_interpreter follows below object objectType field value)
      (commonAssignField_lowered follows below object objectType field value)
  | binary left operator right type => exact binaryStep_below follows below operator left right
  | unary operator operand type => exact unaryStep_below follows below operator operand
  | orReturn value error type =>
    refine .bind (below.expr value) fun result => ?_
    cases result.unwrapFallible with
    | mk success payload =>
      cases success with
      | true => exact .refl _
      | false =>
        cases error with
        | none => exact .refl _
        | some error => exact .bind (below.expr error) fun _ => .refl _
  | orElse value fallback type =>
    refine .bind (below.expr value) fun result => ?_
    cases result.unwrapFallible with
    | mk success payload =>
      cases success with
      | true => exact .refl _
      | false => exact below.expr fallback
  | orBlock value handler type =>
    refine .bind (below.expr value) fun result => ?_
    cases result.unwrapFallible with
    | mk success payload =>
      cases success with
      | true => exact .refl _
      | false => exact executeBlock_below below handler
  | matchOn value arms _ _ => exact matchStep_below follows below value arms

theorem turn_below {x y : Eval σ Value} (body : x.Below y) : (turn x).Below (turn y) :=
  .handle (.bind body fun _ => .refl _) fun _ => .refl _

include below in
theorem whileStep_below (condition : Expr) (body : List Stmt) (result : Value) :
    (whileStep context m condition body result).Below
      (whileStep (context.follow lane' call') m' condition body result) := by
  refine .bind (below.expr condition) fun value => ite_below (.refl _) (ite_below ?_ (.refl _))
  refine .bind (turn_below (executeBlock_below below body)) fun ended => ?_
  cases ended with
  | done value => exact ite_below (.refl _) (below.whileLoop condition body value)
  | continued => exact below.whileLoop condition body result
  | broken => exact .refl _

include below in
theorem forItems_below (name : String) (body : List Stmt) (items : List Value) (result : Value) :
    (forItems m name body items result).Below (forItems m' name body items result) := by
  induction items generalizing result with
  | nil => exact .refl _
  | cons item items ih =>
    refine .bind (turn_below (inScope_below (.bind (.refl _) fun _ =>
      executeStatements_below below body .unit))) fun ended => ?_
    cases ended with
    | done value => exact ite_below (.refl _) (ih value)
    | continued => exact ih result
    | broken => exact .refl _

include below in
theorem forStep_below (name : String) (iterable : Expr) (body : List Stmt) :
    (forStep m name iterable body).Below (forStep m' name iterable body) := by
  refine .bind (below.expr iterable) fun value => ?_
  cases value with
  | list items => exact forItems_below below name body items .unit
  | _ => exact .refl _

include follows below in
theorem stmtStep_below (s : Stmt) :
    (stmtStep context m s).Below (stmtStep (context.follow lane' call') m' s) := by
  cases s with
  | letIn name isMutable value => exact .bind (below.expr value) fun _ => .refl _
  | ret value =>
    cases value with
    | none => exact .refl _
    | some value => exact .bind (below.expr value) fun _ => .refl _
  | expression e => exact below.expr e
  | ifThen s =>
    obtain ⟨condition, thenBlock, elseBranch⟩ := s
    refine .bind (below.expr condition) fun value => ite_below (.refl _) (ite_below ?_ ?_)
    · exact executeBlock_below below thenBlock
    · cases elseBranch with
      | nothing => exact .refl _
      | block statements => exact executeBlock_below below statements
      | elseIf s => exact below.stmt (.ifThen s)
  | whileDo condition body _ => exact below.whileLoop condition body .unit
  | forIn name iterable body _ =>
    refine ite_below (forStep_below below name iterable body) ?_
    exact follows.choose (fun _ never => never.elim) (forStep_below below name iterable body)
      (.refl _)
  | breakLoop => exact .refl _
  | continueLoop => exact .refl _

end Step

variable {context : Context σ} {lane' : Lane σ}

theorem meaning_below
    (follows : Follows context.lane lane') (calls : CallsBelow context.call call') (fuel : Nat) :
    (meaning context fuel).Below (meaning (context.follow lane' call') fuel) := by
  induction fuel with
  | zero => exact ⟨fun _ => .refl _, fun _ => .refl _, fun _ _ _ => .refl _⟩
  | succ fuel ih =>
    exact ⟨exprStep_below follows calls ih, stmtStep_below follows ih, whileStep_below ih⟩

/-! ## Calls -/

theorem asCall_ok (lane : Lane σ) {scopes : List Scope} {x : Eval σ Value} {store : Store σ}
    (done : x ⟨store, scopes⟩ = .ok value state) :
    asCall lane scopes x store = .ok value state.store := by
  simp only [asCall, done]

variable {lane : Lane σ}

theorem asCall_below (follows : Follows lane lane') (scopes : List Scope)
    {x y : Eval σ Value} (below : x.Below y) :
    (asCall lane scopes x).Below (asCall lane' scopes y) := by
  intro store
  unfold asCall
  rcases below ⟨store, scopes⟩ with none | same
  · rw [none]
    exact .timeout _
  · rw [same]
    cases y ⟨store, scopes⟩ with
    | ok value state => exact .refl _
    | timeout => exact .refl _
    | raise signal state =>
      cases signal with
      | fault fault => exact follows.callFault fault state.store
      | ret value => exact .refl _
      | brk => exact follows.callFault _ state.store
      | cont => exact follows.callFault _ state.store

theorem bodyResult_below
    {m m' : Meaning σ} (follows : Follows context.lane lane') (below : m.Below m')
    (body : List Stmt) :
    (bodyResult context m body).Below (bodyResult (context.follow lane' call') m' body) := by
  refine .handle (.bind (executeStatements_below below body .unit) fun value => ?_) fun _ => .refl _
  exact follows.choose (fun _ same => by rw [same]) (.refl _) (.refl _)

/-- Arguments that pass both checks pass them alike. -/
theorem argumentsSafe_eq (setting : Setting σ) {function : FunctionDeclaration}
    {arguments : List Value} (state : State σ)
    (safe : ArgumentsSafe setting function arguments state) :
    (exec do
      let _ ← interpreterArguments setting function arguments
      pure ()) state = (exec do
      let _ ← loweredArguments setting function arguments
      pure ()) state := by
  obtain ⟨⟨names, first⟩, bindings, second⟩ := safe
  simp only [exec, bind_apply, first, second, andThen, pure_apply]

theorem callBody_below (setting : Setting σ)
    {m m' : Meaning σ} (follows : Follows context.lane lane')
    (below : m.Below m') (function : FunctionDeclaration) (arguments : List Value) :
    (callBody setting context m function arguments).Below
      (callBody setting (context.follow lane' call') m' function arguments) := by
  refine ite_below (.refl _) (.withState fun state => ?_)
  refine .bind (follows.choose (argumentsSafe_eq setting) (.refl _) (.refl _)) fun _ =>
    ite_below (.refl _) ?_
  refine .finallyDo (.bind (.refl _) fun _ => ?_) _
  refine .bind (bodyResult_below follows below function.body) fun result => ?_
  exact follows.choose (fun _ safe => by simp only [exec, safe.1, safe.2]) (.refl _) (.refl _)

theorem callFunction_below (follows : Follows lane lane') (setting : Setting σ) (fuel : Nat) :
    CallsBelow (callFunction lane setting fuel) (callFunction lane' setting fuel) := by
  induction fuel with
  | zero => exact fun _ _ _ => .refl _
  | succ fuel ih =>
    intro moduleKey name arguments
    simp only [callFunction]
    cases setting.program.moduleFunction moduleKey name with
    | error fault => exact follows.callFault fault
    | ok found =>
      obtain ⟨module, function⟩ := found
      refine asCall_below follows _ ?_
      exact callBody_below setting follows (meaning_below follows ih fuel) function arguments

end Koschei.Ast
