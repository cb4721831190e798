import Koschei.Ast.Guarded
import Koschei.Lanes.Arithmetic
import Koschei.Lib.Invariance

/-!
# What every step keeps, every run keeps

A property of values and an invariant of the host state, of which the value
runtime and the operators keep what the steps' conditions promise, hold along
every run of the interpreter: of every value in a scope, every result, every
value that is returned early, and of the host state. `Upholds` is what has to be
shown of the runtime; the theorem about runs is `guardedCall_keeps`.
-/

namespace Koschei.Ast

open Lib

variable {σ α : Type}

/-! ## What the runtime has to keep -/

/-- The operation of the host behind an operator. -/
def arithOf : BinaryOperator → Option ArithOp
  | .add => some .add
  | .sub => some .sub
  | .mul => some .mul
  | .div => some .div
  | _ => none

/-- A run of a primitive ends with a value of the property and calls functions with such
values only, whatever the calls give back; a run that is stopped stays so. -/
def PrimKeeps (stop : Fault) (V : Value → Prop) (W : σ → Prop) : Prim σ → Prop
  | .done result host => (∀ value, result = .ok value → V value) ∧ W host
  | .call _ _ arguments host resume =>
    (∀ argument ∈ arguments, V argument) ∧ W host ∧
      (∀ host', resume (.error stop) host' = .done (.error stop) host') ∧
      ∀ result host', (∀ value, result = .ok value → V value) → W host' →
        PrimKeeps stop V W (resume result host')

/-- A property of values that follows their structure, and that Ints in range have. -/
structure Hereditary (V : Value → Prop) : Prop where
  unit : V .unit
  bool : ∀ b, V (.bool b)
  float : ∀ bits, V (.float bits)
  str : ∀ text, V (.str text)
  error : ∀ message, V (.error message)
  noPayload : V .noPayload
  function : ∀ key name, V (.function key name)
  module : ∀ key, V (.module key)
  int : ∀ i, InRange i → V (.int i)
  intOut : (∀ i, V (.int i)) ∨ ∀ i, V (.int i) → InRange i
  list : ∀ items, V (.list items) ↔ ∀ item ∈ items, V item
  map : ∀ entries, V (.map entries) ↔ ∀ entry ∈ entries, V entry.2
  enum : ∀ enumName variant payload typeArguments,
    V (.enum enumName variant payload typeArguments) ↔ ∀ value, payload = some value → V value

/-- The runtime keeps a property of values and an invariant of the host state, if the steps
meet their conditions. -/
structure Upholds (conditions : Conditions σ) (runtime : Runtime σ) (V : Value → Prop)
    (W : σ → Prop) : Prop where
  values : Hereditary V
  constructor : ∀ name value, runtime.constructor name = some value → V value
  member : ∀ host receiver name value, W host → V receiver →
    runtime.member host receiver name = .ok value → V value
  invoke : ∀ host callee arguments, W host → V callee → (∀ argument ∈ arguments, V argument) →
    conditions.invoke host callee arguments →
      PrimKeeps conditions.stop V W (runtime.invoke callee arguments host)
  arith : ∀ operator op left right value, arithOf operator = some op →
    conditions.operands operator left right → NotBothInts left right → V left → V right →
      runtime.host.arithValue op left right = .ok value → V value
  newStruct : ∀ host typeName fields typeArguments, W host → (∀ field ∈ fields, V field.2) →
    V (runtime.newStruct typeName fields typeArguments host).1 ∧
      W (runtime.newStruct typeName fields typeArguments host).2
  write : ∀ host receiver field value, W host → V receiver → V value →
    conditions.write host receiver field value → W (runtime.writeField receiver field value host)

namespace Hereditary

variable {V : Value → Prop} (values : Hereditary V)

include values

theorem literal {value : Value} (literal : IsLiteral value) : V (interpreterLiteral value) := by
  cases value with
  | int i =>
    simp only [interpreterLiteral]
    split
    · rename_i range
      exact values.int i range
    · exact values.error _
  | bool b => exact values.bool b
  | float bits => exact values.float bits
  | str text => exact values.str text
  | _ => exact literal.elim

theorem unwrapped {value payload : Value} {success : Bool} (holds : V value)
    (unwrapped : value.unwrapFallible = (success, payload)) : V payload := by
  unfold Value.unwrapFallible at unwrapped
  have carried (found : Option Value) (inside : ∀ v, found = some v → V v) :
      V (Value.ofPayload found) := by
    cases found with
    | none => exact values.noPayload
    | some v => exact inside v rfl
  split at unwrapped
  · cases unwrapped
    exact holds
  · cases unwrapped
    exact carried _ ((values.enum _ _ _ _).mp holds)
  · cases unwrapped
    exact holds
  · cases unwrapped
    exact carried _ ((values.enum _ _ _ _).mp holds)
  · cases unwrapped
    exact holds
  · cases unwrapped
    exact holds

/-- A number that is in range if its operands are. -/
theorem int_of {i : Int} (inside : (∀ j, V (.int j) → InRange j) → InRange i) : V (.int i) := by
  rcases values.intOut with all | inRange
  · exact all i
  · exact values.int i (inside inRange)

end Hereditary

/-! ## Stores, states and signals -/

/-- The host state of a store has the invariant. -/
def StoreKept (W : σ → Prop) (store : Store σ) : Prop := W store.host

/-- So has that of a state, and every value in scope has the property. -/
def StateKept (V : Value → Prop) (W : σ → Prop) (state : State σ) : Prop :=
  W state.store.host ∧ ∀ scope ∈ state.scopes, ∀ entry ∈ scope, V entry.2.value

/-- A value that is returned early has the property. -/
def SignalKept (V : Value → Prop) : Signal → Prop
  | .ret value => V value
  | _ => True

/-- A computation of the shared runtime keeps the invariant. -/
abbrev ExecKeeps (stop : Fault) (W : σ → Prop) (Q : α → Prop) (x y : Exec σ α) : Prop :=
  Comp.Keeps stop (StoreKept W) (fun _ => True) Q x y

abbrev EvalKeeps (stop : Fault) (V : Value → Prop) (W : σ → Prop) (Q : α → Prop) (x y : Eval σ α) : Prop :=
  Comp.Keeps (.fault stop) (StateKept V W) (SignalKept V) Q x y

/-- An evaluation from one state. -/
abbrev EvalKeepsAt (stop : Fault) (V : Value → Prop) (W : σ → Prop) (Q : α → Prop) (x y : Eval σ α)
    (state : State σ) : Prop :=
  Comp.KeepsAt (.fault stop) (StateKept V W) (SignalKept V) Q x y state

def CallKeeps (stop : Fault) (V : Value → Prop) (W : σ → Prop) (call call' : Caller σ) : Prop :=
  ∀ key name arguments, (∀ argument ∈ arguments, V argument) →
    ExecKeeps stop W V (call key name arguments) (call' key name arguments)

variable {stop : Fault} {V : Value → Prop} {W : σ → Prop} {Q : α → Prop} {state : State σ}
  {x y : Exec σ α}

theorem exec_keepsAt (start : StateKept V W state)
    (kept : Comp.KeepsAt stop (StoreKept W) (fun _ => True) Q x y state.store) :
    EvalKeepsAt stop V W Q (exec x) (exec y) state := by
  rcases kept with ⟨store, stopped⟩ | ⟨same, satisfied⟩
  · exact .inl ⟨{ state with store := store }, by simp only [exec, stopped]⟩
  · simp only [Comp.KeepsAt, exec, ← same]
    cases ended : x state.store with
    | timeout => exact .inr ⟨trivial, trivial⟩
    | ok a store =>
      rw [ended] at satisfied
      exact .inr ⟨trivial, satisfied.1, satisfied.2, start.2⟩
    | raise fault store =>
      rw [ended] at satisfied
      exact .inr ⟨trivial, trivial, satisfied.2, start.2⟩

theorem exec_keeps (kept : ExecKeeps stop W Q x y) : EvalKeeps stop V W Q (exec x) (exec y) :=
  fun state start => exec_keepsAt start (kept state.store start.1)

theorem fail_keeps (fault : Fault) : EvalKeeps stop V W Q (fail fault) (fail fault) :=
  .raise trivial

theorem lift_keeps {result : Except Fault α} (holds : ∀ a, result = .ok a → Q a) :
    ExecKeeps stop W Q (lift result) (lift result) := by
  cases result with
  | ok a => exact .pure (holds a rfl)
  | error fault => exact .raise trivial

theorem ask_keeps {read : σ → α} (holds : ∀ host, W host → Q (read host)) :
    ExecKeeps stop W Q (ask read) (ask read) :=
  fun store start => .of_satisfies ⟨holds store.host start, start⟩

variable {read : σ → Except Fault α}

theorem askLift_keeps (holds : ∀ host a, W host → read host = .ok a → Q a) :
    ExecKeeps stop W Q (askLift read) (askLift read) := by
  intro store start
  refine .of_satisfies ?_
  simp only [askLift]
  cases known : read store.host with
  | ok a => exact ⟨holds store.host a start known, start⟩
  | error fault => exact ⟨trivial, start⟩

theorem asked_keeps {read : σ → α} : ExecKeeps stop W (fun _ => True) (ask read) (ask read) :=
  ask_keeps fun _ _ => trivial

theorem askedLift_keeps : ExecKeeps stop W (fun _ => True) (askLift read) (askLift read) :=
  askLift_keeps fun _ _ _ _ => trivial

theorem onHost_keeps {change : σ → α × σ}
    (holds : ∀ host, W host → Q (change host).1 ∧ W (change host).2) :
    ExecKeeps stop W Q (onHost change) (onHost change) :=
  fun store start => .of_satisfies (holds store.host start)

/-- Running a primitive, by its calls one after the other. -/
theorem run_keeps {call call' : Caller σ} (calls : CallKeeps stop V W call call')
    (primitive : Prim σ) (kept : PrimKeeps stop V W primitive) (store : Store σ) :
    Comp.KeepsAt stop (StoreKept W) (fun _ => True) V (primitive.run call) (primitive.run call')
      store := by
  induction primitive generalizing store with
  | done result host =>
    cases result with
    | ok value => exact .of_satisfies ⟨kept.1 value rfl, kept.2⟩
    | error fault => exact .of_satisfies ⟨trivial, kept.2⟩
  | call key name arguments host resume ih =>
    obtain ⟨holds, start, passed, resumes⟩ := kept
    simp only [Comp.KeepsAt, Prim.run]
    rcases calls key name arguments holds { store with host := host } start with
      ⟨store', stopped⟩ | ⟨same, satisfied⟩
    · refine .inl ⟨store', ?_⟩
      simp only [stopped, passed, Prim.run]
    · rw [← same]
      cases ended : call key name arguments { store with host := host } with
      | timeout => exact .inr ⟨rfl, trivial⟩
      | ok value store' =>
        rw [ended] at satisfied
        exact ih (.ok value) store'.host
          (resumes (.ok value) store'.host (by rintro _ ⟨⟩; exact satisfied.1) satisfied.2)
          store'
      | raise fault store' =>
        rw [ended] at satisfied
        exact ih (.error fault) store'.host
          (resumes (.error fault) store'.host (by rintro _ ⟨⟩) satisfied.2) store'

/-! ## Scopes -/

variable {name : String} {cell : Cell} {scopes : List Scope} {scope : Scope} {entry : String × Cell}

theorem mem_bindName (member : scope ∈ bindName name cell scopes) (inside : entry ∈ scope) :
    entry = (name, cell) ∨ ∃ scope ∈ scopes, entry ∈ scope := by
  cases scopes with
  | nil =>
    simp only [bindName, mem_singleton] at member
    subst member
    exact .inl (mem_singleton.mp inside)
  | cons first rest =>
    rcases mem_cons.mp member with rfl | later
    · rcases mem_cons.mp inside with same | earlier
      · exact .inl same
      · exact .inr ⟨first, mem_cons_self, earlier⟩
    · exact .inr ⟨scope, mem_cons_of_mem _ later, inside⟩

theorem mem_of_resolve
    (found : resolve scopes name = some cell) : ∃ scope ∈ scopes, (name, cell) ∈ scope := by
  unfold resolve at found
  obtain ⟨before, after, whole, -⟩ := lookup_eq_some_iff.mp found
  exact List.mem_flatten.mp (whole ▸ mem_append_right _ mem_cons_self)

variable {value : Value}

theorem mem_updateScope {scope' : Scope} (updated : updateScope name value scope = some scope')
    (inside : entry ∈ scope') : entry.2.value = value ∨ entry ∈ scope := by
  induction scope generalizing scope' with
  | nil => cases updated
  | cons first rest ih =>
    obtain ⟨other, cell⟩ := first
    simp only [updateScope] at updated
    split at updated
    · cases updated
      rcases mem_cons.mp inside with rfl | later
      · exact .inl rfl
      · exact .inr (mem_cons_of_mem _ later)
    · obtain ⟨rest', done, rfl⟩ := map_eq_some_iff.mp updated
      rcases mem_cons.mp inside with rfl | later
      · exact .inr mem_cons_self
      · exact (ih done later).imp_right (mem_cons_of_mem _)

theorem mem_updateScopes {scopes' : List Scope}
    (updated : updateScopes name value scopes = some scopes') (member : scope ∈ scopes')
    (inside : entry ∈ scope) : entry.2.value = value ∨ ∃ scope ∈ scopes, entry ∈ scope := by
  induction scopes generalizing scopes' with
  | nil => cases updated
  | cons first rest ih =>
    simp only [updateScopes] at updated
    cases here : updateScope name value first with
    | some first' =>
      rw [here] at updated
      cases updated
      rcases mem_cons.mp member with rfl | later
      · exact (mem_updateScope here inside).imp_right fun old =>
          ⟨first, mem_cons_self, old⟩
      · exact .inr ⟨scope, mem_cons_of_mem _ later, inside⟩
    | none =>
      rw [here] at updated
      obtain ⟨rest', done, rfl⟩ := map_eq_some_iff.mp updated
      rcases mem_cons.mp member with rfl | later
      · exact .inr ⟨scope, mem_cons_self, inside⟩
      · rcases ih done later with new | ⟨old, among, within⟩
        · exact .inl new
        · exact .inr ⟨old, mem_cons_of_mem _ among, within⟩

theorem define_keeps (holds : V cell.value) :
    EvalKeeps (σ := σ) stop V W (fun _ => True) (define name cell) (define name cell) := by
  refine .modify fun state start => ⟨start.1, fun scope member entry inside => ?_⟩
  rcases mem_bindName member inside with rfl | ⟨old, among, within⟩
  · exact holds
  · exact start.2 old among entry within

theorem readName_keeps (name : String) :
    EvalKeeps (σ := σ) stop V W (fun cell => V cell.value) (readName name) (readName name) := by
  refine .withState fun state start => ?_
  cases found : resolve state.scopes name with
  | none => exact fail_keeps _ state start
  | some cell =>
    obtain ⟨scope, member, inside⟩ := mem_of_resolve found
    exact .pure (start.2 scope member _ inside) start

theorem assignName_keeps (holds : V value) :
    EvalKeeps (σ := σ) stop V W V (assignName name value) (assignName name value) := by
  refine .bind (readName_keeps name) fun cell _ => ?_
  split
  · refine .bind (.modify fun state start => ⟨start.1, fun scope member entry inside => ?_⟩)
      fun _ _ => .pure holds
    cases updated : updateScopes name value state.scopes with
    | none =>
      rw [updated] at member
      exact start.2 scope member entry inside
    | some scopes =>
      rw [updated] at member
      rcases mem_updateScopes updated member inside with new | ⟨old, among, within⟩
      · rw [new]
        exact holds
      · exact start.2 old among entry within
  · exact fail_keeps _

theorem inScope_keeps {x y : Eval σ α} (kept : EvalKeeps stop V W Q x y) :
    EvalKeeps stop V W Q (inScope x) (inScope y) := by
  intro state start
  refine Comp.KeepsAt.finallyDo (kept _ ⟨start.1, fun scope member entry inside => ?_⟩)
    fun t inner => ⟨inner.1, fun scope member => inner.2 scope (List.mem_of_mem_tail member)⟩
  rcases mem_cons.mp member with rfl | outer
  · cases inside
  · exact start.2 scope outer entry inside

/-! ## Operators -/

variable {left right : Value} {runtime : Runtime σ} {operator : BinaryOperator}
  {conditions : Conditions σ} {op : ArithOp}

section

variable (met : conditions.operands operator left right)

include met

section

variable (upholds : Upholds conditions runtime V W)

include upholds

theorem arithValue_keeps (behind : arithOf operator = some op) (other : NotBothInts left right)
    (first : V left) (second : V right) :
    ExecKeeps stop W V (lift (runtime.host.arithValue op left right))
      (lift (runtime.host.arithValue op left right)) :=
  lift_keeps fun value done =>
    upholds.arith operator op left right value behind met other first second done

theorem interpreterArith_keeps
    (behind : arithOf operator = some op) (text : String) (first : V left) (second : V right) :
    ExecKeeps stop W V (interpreterArith runtime op text left right)
      (interpreterArith runtime op text left right) := by
  have fallback (other : NotBothInts left right) :
      ExecKeeps stop W V (lift (runtime.host.arithValue op left right))
        (lift (runtime.host.arithValue op left right)) :=
    arithValue_keeps met upholds behind other first second
  cases left with
  | int i =>
    cases right with
    | int j =>
      have clamped (result : Int) : ExecKeeps (σ := σ) stop W V
            (if intMin ≤ result ∧ result ≤ intMax then pure (.int result)
              else pure (intOverflow text))
            (if intMin ≤ result ∧ result ≤ intMax then pure (.int result)
              else pure (intOverflow text)) := by
        split
        · rename_i range
          exact .pure (upholds.values.int _ range)
        · exact .pure (upholds.values.error _)
      exact clamped _
    | _ => exact fallback (by rintro _ _ ⟨⟩ ⟨⟩)
  | _ => exact fallback (by rintro _ _ ⟨⟩)

theorem interpreterStrict_keeps (first : V left) (second : V right) :
    ExecKeeps stop W V (interpreterStrict runtime operator left right)
      (interpreterStrict runtime operator left right) := by
  have values := upholds.values
  have truth (read : σ → Except Fault Bool) (change : Bool → Bool) :
      ExecKeeps stop W V (do pure (.bool (change (← askLift read))))
        (do pure (.bool (change (← askLift read)))) :=
    .bind askedLift_keeps fun b _ =>
      .pure (values.bool _)
  cases operator with
  | add => exact interpreterArith_keeps met upholds rfl "+" first second
  | sub => exact interpreterArith_keeps met upholds rfl "-" first second
  | mul => exact interpreterArith_keeps met upholds rfl "*" first second
  | div =>
    refine .bind askedLift_keeps fun zero _ => ?_
    cases zero with
    | true => exact .pure (values.error _)
    | false =>
      simp only [false_eq_true, if_false]
      split
      · rename_i i j
        split
        · exact .pure (values.error _)
        · rename_i fits
          exact .pure (values.int_of fun inRange =>
            Lanes.inRange_truncatedQuotient (inRange i first) fits)
      · rename_i other
        exact arithValue_keeps met upholds rfl
          (fun i j same same' => other i j same same') first second
  | rem =>
    simp only [interpreterStrict]
    split
    · rename_i i j
      split
      · exact .pure (values.error _)
      · rename_i nonzero
        split
        · exact .pure (values.error _)
        · exact .pure (values.int_of fun inRange =>
            Lanes.inRange_remainder (inRange j second) nonzero)
    · exact .pure (values.error _)
  | eq => exact truth (fun host => runtime.equal host left right) id
  | ne => exact truth (fun host => runtime.equal host left right) (!·)
  | lt => exact truth (fun host => runtime.compare host .lt left right) id
  | le => exact truth (fun host => runtime.compare host .le left right) id
  | gt => exact truth (fun host => runtime.compare host .gt left right) id
  | ge => exact truth (fun host => runtime.compare host .ge left right) id
  | and => exact .raise trivial
  | or => exact .raise trivial

end

end

variable {operand : Value}

theorem negateValue_keeps (values : Hereditary V) {host : Host}
    (noInt : ∀ i, operand ≠ .int i) (done : host.negateValue operand = .ok value) : V value := by
  unfold Host.negateValue at done
  cases operand with
  | bool b =>
    cases done
    refine values.int _ ?_
    cases b <;> decide
  | int i => exact absurd rfl (noInt i)
  | float bits =>
    cases done
    exact values.float _
  | _ => cases done

theorem interpreterUnary_keeps (values : Hereditary V) (runtime : Runtime σ)
    (operator : UnaryOperator) (holds : V operand) :
    ExecKeeps stop W V (interpreterUnary runtime operator operand)
      (interpreterUnary runtime operator operand) := by
  unfold interpreterUnary
  split
  · exact .pure (values.error _)
  · cases operator with
    | not => exact .pure (values.bool _)
    | neg =>
      dsimp only
      split
      · rename_i i _
        split
        · exact .pure (values.error _)
        · rename_i other
          refine .pure (values.int_of fun inRange => ?_)
          have range := inRange i holds
          unfold InRange intMin intMax at *
          omega
      · rename_i noInt
        exact lift_keeps fun value done => negateValue_keeps values noInt done

theorem negatedLiteral_keeps (values : Hereditary V) {operand : Expr}
    (negated : negatedLiteral operand = some value) : V value := by
  unfold negatedLiteral at negated
  split at negated
  · split at negated
    · cases negated
      exact values.int _ (by decide)
    · split at negated
      · cases negated
        exact values.error _
      · cases negated
  · cases negated

/-! ## Evaluation step by step -/

/-- Where the interpreter evaluates. -/
@[reducible] def interpreterContext (setting : Setting σ) (module : Module) (call : Caller σ) :
    Context σ :=
  ⟨setting.runtime, setting.inference, Lane.interpreter, setting.program, module, call⟩

/-- What is computed with some fuel keeps the invariant. -/
structure MeaningKeeps (stop : Fault) (V : Value → Prop) (W : σ → Prop) (m m' : Meaning σ) : Prop where
  expr : ∀ e, e.Parsed → EvalKeeps stop V W V (m.expr e) (m'.expr e)
  stmt : ∀ s, s.Parsed → EvalKeeps stop V W V (m.stmt s) (m'.stmt s)
  whileLoop : ∀ condition body result, condition.Parsed → ParsedStmts body → V result →
    EvalKeeps stop V W V (m.whileLoop condition body result) (m'.whileLoop condition body result)

section Step

variable {conditions : Conditions σ} {setting : Setting σ} {module : Module}
  {call call' : Caller σ} {m m' : Meaning σ}
  (upholds : Upholds conditions setting.runtime V W) (calls : CallKeeps conditions.stop V W call call')
  (kept : MeaningKeeps conditions.stop V W m m')

section Blocks

include kept

theorem evaluateAll_keeps (es : List Expr) (parsed : ParsedAll es) :
    EvalKeeps conditions.stop V W (fun values => ∀ value ∈ values, V value) (evaluateAll m es)
      (evaluateAll m' es) := by
  induction es with
  | nil => exact .pure (by simp)
  | cons e rest ih =>
    exact .bind (kept.expr e parsed.1) fun value holds =>
      .bind (ih parsed.2) fun values others =>
        .pure (forall_mem_cons.mpr ⟨holds, others⟩)

theorem executeStatements_keeps (statements : List Stmt) (parsed : ParsedStmts statements)
    {result : Value} (holds : V result) :
    EvalKeeps conditions.stop V W V (executeStatements m statements result)
      (executeStatements m' statements result) := by
  induction statements generalizing result with
  | nil => exact .pure holds
  | cons statement rest ih =>
    exact .bind (kept.stmt statement parsed.1) fun value holds => ih parsed.2 holds

theorem executeBlock_keeps (values : Hereditary V) (statements : List Stmt)
    (parsed : ParsedStmts statements) :
    EvalKeeps conditions.stop V W V (executeBlock m statements) (executeBlock m' statements) :=
  inScope_keeps (executeStatements_keeps kept statements parsed values.unit)

theorem interpreterParts_keeps (parts : List Expr) (parsed : ParsedAll parts) :
    EvalKeeps conditions.stop V W (fun _ => True)
      (interpreterParts (interpreterContext setting module call) m parts)
      (interpreterParts (interpreterContext setting module call') m' parts) := by
  induction parts with
  | nil => exact .pure trivial
  | cons part rest ih =>
    exact .bind (kept.expr part parsed.1) fun value _ =>
      .bind (exec_keeps askedLift_keeps) fun text _ =>
        .bind (ih parsed.2) fun texts _ => .pure trivial

end Blocks

/-! ### Literals of containers -/

variable {entries : List (String × Value)}

theorem mem_replaceEntry {key : String} {item : Value}
    {entry : String × Value} (member : entry ∈ Mir.replaceEntry entries key item) :
    entry ∈ entries ∨ entry.2 = item := by
  unfold Mir.replaceEntry at member
  split at member
  · obtain ⟨old, among, rfl⟩ := mem_map.mp member
    split
    · exact .inr rfl
    · exact .inl among
  · rcases mem_append.mp member with old | new
    · exact .inl old
    · exact .inr (by rw [mem_singleton.mp new])

section Containers

include upholds kept

theorem interpreterList_keeps (es : List Expr) (parsed : ParsedAll es) {items : List Value}
    (holds : ∀ item ∈ items, V item) :
    EvalKeeps conditions.stop V W V (interpreterList (interpreterContext setting module call) m es items)
      (interpreterList (interpreterContext setting module call') m' es items) := by
  induction es generalizing items with
  | nil => exact .pure ((upholds.values.list items).mpr holds)
  | cons e rest ih =>
    refine .bind (kept.expr e parsed.1) fun value valueHolds => ?_
    split
    · exact .pure valueHolds
    · refine .bind (exec_keeps asked_keeps) fun carries _ => ?_
      split
      · exact fail_keeps _
      · refine ih parsed.2 ?_
        simp only [mem_append, mem_singleton]
        rintro item (old | rfl)
        · exact holds item old
        · exact valueHolds

theorem interpreterMap_keeps (es : List (Expr × Expr)) (parsed : ParsedEntries es)
    (holds : ∀ entry ∈ entries, V entry.2) :
    EvalKeeps conditions.stop V W V (interpreterMap (interpreterContext setting module call) m es entries)
      (interpreterMap (interpreterContext setting module call') m' es entries) := by
  induction es generalizing entries with
  | nil => exact .pure ((upholds.values.map entries).mpr holds)
  | cons e rest ih =>
    obtain ⟨keyExpression, valueExpression⟩ := e
    obtain ⟨keyParsed, valueParsed, restParsed⟩ := parsed
    refine .bind (kept.expr keyExpression keyParsed) fun key _ => ?_
    split
    · exact .pure (upholds.values.error _)
    · rename_i text
      split
      · exact fail_keeps _
      · refine .bind (kept.expr valueExpression valueParsed) fun value valueHolds => ?_
        split
        · exact .pure valueHolds
        · refine .bind (exec_keeps asked_keeps) fun carries _ => ?_
          split
          · exact fail_keeps _
          · refine ih restParsed ?_
            simp only [mem_append, mem_singleton]
            rintro entry (old | rfl)
            · exact holds entry old
            · exact valueHolds
    · exact .bind (exec_keeps asked_keeps) fun name _ =>
        fail_keeps _

variable {fields : List (String × Value)}

/-- The literal of a struct without type parameters. -/
theorem interpreterFields_keeps (typeName : String) (declaration : Option StructDeclaration)
    (es : List (String × Expr)) (parsed : ParsedFields es) (holds : ∀ field ∈ fields, V field.2) :
    EvalKeeps conditions.stop V W V
      (interpreterFields (interpreterContext setting module call) m typeName declaration es fields)
      (interpreterFields (interpreterContext setting module call') m' typeName declaration es
        fields) := by
  induction es generalizing fields with
  | nil =>
    exact exec_keeps (onHost_keeps fun host start =>
      upholds.newStruct host typeName fields [] start holds)
  | cons e rest ih =>
    obtain ⟨name, expression⟩ := e
    refine .bind (kept.expr expression parsed.1) fun value valueHolds => ?_
    have next : ∀ field ∈ setPlainField fields name value, V field.2 :=
      fun field member => (mem_replaceEntry member).elim (holds field) fun same => by
        rw [same]
        exact valueHolds
    split
    · exact .pure valueHolds
    · dsimp only
      split
      · exact ih parsed.2 next
      · refine .bind (exec_keeps asked_keeps) fun matched _ => ?_
        split
        · exact ih parsed.2 next
        · exact .bind (exec_keeps asked_keeps) fun actual _ => fail_keeps _

/-- The literal of a struct with type parameters. -/
theorem interpreterGenericFields_keeps (declaration : StructDeclaration)
    (es : List (String × Expr)) (parsed : ParsedFields es) (holds : ∀ field ∈ fields, V field.2) :
    EvalKeeps conditions.stop V W V
      (interpreterGenericFields (interpreterContext setting module call) m declaration es fields)
      (interpreterGenericFields (interpreterContext setting module call') m' declaration es
        fields) := by
  induction es generalizing fields with
  | nil =>
    simp only [interpreterGenericFields]
    split
    · refine .bind (exec_keeps askedLift_keeps) fun arguments _ => ?_
      exact exec_keeps (onHost_keeps fun host start =>
        upholds.newStruct host declaration.name fields arguments start holds)
    · exact fail_keeps _
  | cons e rest ih =>
    obtain ⟨name, expression⟩ := e
    simp only [interpreterGenericFields]
    split
    · exact fail_keeps _
    · split
      · exact fail_keeps _
      · refine .bind (kept.expr expression parsed.1) fun value valueHolds => ?_
        split
        · exact .pure valueHolds
        · refine ih parsed.2 ?_
          simp only [mem_append, mem_singleton]
          rintro field (old | rfl)
          · exact holds field old
          · exact valueHolds

theorem interpreterStruct_keeps (typeName : String) (es : List (String × Expr))
    (parsed : ParsedFields es) :
    EvalKeeps conditions.stop V W V (interpreterStruct (interpreterContext setting module call) m typeName es)
      (interpreterStruct (interpreterContext setting module call') m' typeName es) := by
  have none : ∀ field ∈ ([] : List (String × Value)), V field.2 := by simp
  unfold interpreterStruct
  dsimp only
  split
  · split
    · exact interpreterFields_keeps upholds kept typeName _ es parsed none
    · exact interpreterGenericFields_keeps upholds kept _ es parsed none
  · exact interpreterFields_keeps upholds kept typeName _ es parsed none

end Containers

/-! ### Names, members and calls -/

include upholds in
theorem interpreterName_keeps (name : String) :
    EvalKeeps conditions.stop V W V ((interpreterContext setting module call).interpreterName name)
      ((interpreterContext setting module call').interpreterName name) := by
  have values := upholds.values
  simp only [Context.interpreterName, Context.isFunction]
  split
  · exact .pure (values.str _)
  · split
    · exact .pure (values.function _ _)
    · split
      · rename_i value known
        exact .pure (upholds.constructor name value known)
      · split
        · exact .pure (values.str _)
        · split
          · exact .pure (values.module _)
          · exact .bind (readName_keeps name) fun cell holds => .pure holds

include upholds in
theorem interpreterMember_keeps {receiver : Value} (holds : V receiver) (name : String) :
    ExecKeeps conditions.stop W V ((interpreterContext setting module call).interpreterMember receiver name)
      ((interpreterContext setting module call').interpreterMember receiver name) := by
  unfold Context.interpreterMember
  split
  · dsimp only
    split
    · exact .pure (upholds.values.function _ _)
    · exact .raise trivial
  · exact askLift_keeps fun host value start done =>
      upholds.member host receiver name value start holds done

/-- The receiver of a call that the checker resolved to an operation is parsed. -/
def CallForm.ObjectParsed : CallForm → Prop
  | .capability object _ _ _ _ _ => object.Parsed
  | .mapMethod object _ _ => object.Parsed
  | _ => True

theorem callForm_objectParsed (host : Host) {callee : Expr} (resolution : CallResolution)
    (parsed : callee.Parsed) : (callForm host callee resolution).ObjectParsed := by
  unfold callForm
  split
  · split
    · trivial
    · trivial
  · split
    · exact parsed
    · exact parsed
    · trivial
  · trivial

section Calls

include upholds calls

variable {callee : Value}

theorem invoke_keepsAt {arguments : List Value} {store : Store σ}
    (start : StoreKept W store) (holds : V callee) (others : ∀ argument ∈ arguments, V argument)
    (met : conditions.invoke store.host callee arguments) :
    Comp.KeepsAt conditions.stop (StoreKept W) (fun _ => True) V (invoke setting.runtime call callee arguments)
      (invoke setting.runtime call' callee arguments) store := by
  have primitive := run_keeps calls _
    (upholds.invoke store.host callee arguments start holds others met) store
  cases callee with
  | function key name => exact calls key name arguments others store start
  | _ => exact primitive

include kept

theorem invocation_keepsAt (holds : V callee) (arguments : List Expr)
    (parsed : ParsedAll arguments) (start : StateKept V W state)
    (met : ∀ values after, evaluateAll m arguments state = .ok values after →
      conditions.invoke after.store.host callee values) :
    EvalKeepsAt conditions.stop V W V (do
        let values ← evaluateAll m arguments
        exec (invoke setting.runtime call callee values))
      (do
        let values ← evaluateAll m' arguments
        exec (invoke setting.runtime call' callee values)) state :=
  .bind (evaluateAll_keeps kept arguments parsed state start) fun values after done others inner =>
    exec_keepsAt inner (invoke_keepsAt upholds calls inner.1 holds others (met values after done))

theorem callStep_keepsAt (callee : Expr) (arguments : List Expr) (resolution : CallResolution)
    (type : TypeNode) (calleeParsed : callee.Parsed) (parsed : ParsedAll arguments)
    (start : StateKept V W state) (met : Meets conditions (interpreterContext setting module call) m
      (.call callee arguments resolution type) state) :
    EvalKeepsAt conditions.stop V W V
      (callStep (interpreterContext setting module call) m callee arguments resolution type)
      (callStep (interpreterContext setting module call') m' callee arguments resolution type)
      state := by
  have invocation {function : Value} {before : State σ} (holds : V function)
      (inner : StateKept V W before)
      (found : calleeValue (interpreterContext setting module call) m callee resolution state =
        .ok function before) :=
    invocation_keepsAt upholds calls kept holds arguments parsed inner
      fun values after => met function before values after found
  have member (object : Expr) (name : String) (objectParsed : object.Parsed)
      (same : calleeValue (interpreterContext setting module call) m callee resolution = do
        let receiver ← m.expr object
        exec ((interpreterContext setting module call).interpreterMember receiver name)) :
      EvalKeepsAt conditions.stop V W V (memberCall (interpreterContext setting module call) m object name arguments)
        (memberCall (interpreterContext setting module call') m' object name arguments) state := by
    refine .bind (kept.expr object objectParsed state start) fun receiver middle read holds inner =>
      .bind (exec_keeps (interpreterMember_keeps upholds holds name) middle inner)
        fun function before looked functionHolds inner => invocation functionHolds inner ?_
    rw [same, Comp.bind_of_ok read, looked]
  have receiver := callForm_objectParsed setting.runtime.host resolution calleeParsed
  unfold callStep
  unfold calleeValue at invocation member
  cases form : callForm setting.runtime.host callee resolution with
  | plain =>
    rw [form] at invocation
    exact .bind (kept.expr callee calleeParsed state start) fun function before found holds inner =>
      invocation holds inner found
  | construct name =>
    rw [form] at invocation
    exact .bind (interpreterName_keeps upholds name state start)
      fun function before found holds inner => invocation holds inner found
  | capability object name =>
    rw [form] at member receiver
    exact member object name receiver rfl
  | mapMethod object name =>
    rw [form] at member receiver
    exact member object name receiver rfl

end Calls

/-! ### Assignments and operators -/

theorem readName_ok {after : State σ} (found : readName name state = .ok cell after) :
    after = state ∧ resolve state.scopes name = some cell := by
  unfold readName at found
  rw [withState_apply] at found
  cases known : resolve state.scopes name with
  | none =>
    rw [known] at found
    cases found
  | some other =>
    rw [known] at found
    cases found
    exact ⟨rfl, rfl⟩

theorem exec_ask_ok {read : σ → α} {a : α} {state after : State σ}
    (looked : exec (ask read) state = .ok a after) : a = read state.store.host ∧ after = state := by
  cases looked
  exact ⟨rfl, rfl⟩

section Operators

include upholds kept

variable {state : State σ}

theorem interpreterAssignField_keepsAt (object field : String) (objectType type : TypeNode)
    (value : Expr) (parsed : value.Parsed) (start : StateKept V W state)
    (met : Meets conditions (interpreterContext setting module call) m
      (.assignField object objectType field value type) state) :
    EvalKeepsAt conditions.stop V W V
      (interpreterAssignField (interpreterContext setting module call) m object field value)
      (interpreterAssignField (interpreterContext setting module call') m' object field value)
      state := by
  unfold interpreterAssignField
  refine .bind (readName_keeps object state start) fun cell _ found _ inner => ?_
  obtain ⟨rfl, -⟩ := readName_ok found
  split
  · exact fail_keeps _ _ inner
  · refine .bind (exec_keeps asked_keeps _ inner) fun parts _ looked _ inner => ?_
    obtain ⟨-, rfl⟩ := exec_ask_ok looked
    split
    · exact fail_keeps _ _ inner
    · split
      · exact fail_keeps _ _ inner
      · refine .bind (kept.expr value parsed _ inner) fun result after evaluated holds inner => ?_
        refine .bind (readName_keeps object after inner) fun cell _ found receiver inner => ?_
        obtain ⟨rfl, resolved⟩ := readName_ok found
        refine .bind (exec_keeps asked_keeps _ inner) fun parts last looked _ inner => ?_
        obtain ⟨-, rfl⟩ := exec_ask_ok looked
        split
        · exact fail_keeps _ _ inner
        · rename_i typeName _ _
          have write (admitted : Bool) : EvalKeepsAt conditions.stop V W V (if admitted then do
                exec (onHost fun host =>
                  ((), setting.runtime.writeField cell.value field result host))
                pure result
              else fail ⟨"KS3106", "'" ++ typeName ++ "." ++ field ++ "' alan ataması"⟩)
              (if admitted then do
                exec (onHost fun host =>
                  ((), setting.runtime.writeField cell.value field result host))
                pure result
              else fail ⟨"KS3106", "'" ++ typeName ++ "." ++ field ++ "' alan ataması"⟩) last := by
            split
            · refine .bind (exec_keepsAt inner (Q := fun _ => True) (.of_satisfies ⟨trivial, ?_⟩))
                fun _ _ _ _ inner => .pure holds inner
              exact upholds.write _ _ _ _ inner.1 receiver holds
                (met result _ cell evaluated resolved)
            · exact fail_keeps _ _ inner
          dsimp only
          split
          · exact write true
          · refine .bind (exec_keeps asked_keeps _ inner) fun matched _ looked _ _ => ?_
            obtain ⟨-, rfl⟩ := exec_ask_ok looked
            exact write matched.1

theorem shortCircuit_keeps (conjunction : Bool) (left right : Expr) (first : left.Parsed)
    (second : right.Parsed) :
    EvalKeeps conditions.stop V W V
      (shortCircuit (interpreterContext setting module call) m conjunction left right)
      (shortCircuit (interpreterContext setting module call') m' conjunction left right) := by
  refine .bind (kept.expr left first) fun value holds => ?_
  split
  · exact .pure holds
  · split
    · refine .bind (kept.expr right second) fun other otherHolds => ?_
      show EvalKeeps conditions.stop V W V (pure (Mir.asCondition setting.runtime other))
        (pure (Mir.asCondition setting.runtime other))
      refine .pure ?_
      unfold Mir.asCondition
      split
      · exact otherHolds
      · exact upholds.values.bool _
    · exact .pure (upholds.values.bool _)

theorem strictStep_keepsAt (operator : BinaryOperator) (left right : Expr) (type : TypeNode)
    (first : left.Parsed) (second : right.Parsed) (start : StateKept V W state)
    (met : Meets conditions (interpreterContext setting module call) m
      (.binary left operator right type) state) :
    EvalKeepsAt conditions.stop V W V
      (strictStep (interpreterContext setting module call) m operator left right)
      (strictStep (interpreterContext setting module call') m' operator left right) state := by
  refine .bind (kept.expr left first state start) fun value before evaluated holds inner => ?_
  split
  · exact .pure holds inner
  · refine .bind (kept.expr right second before inner) fun other after evaluated' otherHolds inner =>
      ?_
    split
    · exact .pure holds inner
    · split
      · exact .pure otherHolds inner
      · exact exec_keeps (interpreterStrict_keeps (met value before other after evaluated evaluated') upholds holds otherHolds) after inner

theorem binaryStep_keepsAt (operator : BinaryOperator) (left right : Expr) (type : TypeNode)
    (first : left.Parsed) (second : right.Parsed) (start : StateKept V W state)
    (met : Meets conditions (interpreterContext setting module call) m
      (.binary left operator right type) state) :
    EvalKeepsAt conditions.stop V W V
      (binaryStep (interpreterContext setting module call) m operator left right)
      (binaryStep (interpreterContext setting module call') m' operator left right) state := by
  have strict : EvalKeepsAt conditions.stop V W V
      (strictStep (interpreterContext setting module call) m operator left right)
      (strictStep (interpreterContext setting module call') m' operator left right) state :=
    strictStep_keepsAt upholds kept operator left right type first second start met
  cases operator with
  | and => exact shortCircuit_keeps upholds kept true left right first second state start
  | or => exact shortCircuit_keeps upholds kept false left right first second state start
  | _ => exact strict

theorem unaryStep_keeps (operator : UnaryOperator) (operand : Expr) (parsed : operand.Parsed) :
    EvalKeeps conditions.stop V W V
      (unaryStep (interpreterContext setting module call) m operator operand)
      (unaryStep (interpreterContext setting module call') m' operator operand) := by
  have evaluated : EvalKeeps conditions.stop V W V (do
        let value ← m.expr operand
        exec (interpreterUnary setting.runtime operator value))
      (do
        let value ← m'.expr operand
        exec (interpreterUnary setting.runtime operator value)) :=
    .bind (kept.expr operand parsed) fun value holds =>
      exec_keeps (interpreterUnary_keeps upholds.values setting.runtime operator holds)
  unfold unaryStep
  split
  · rename_i value negated
    exact .pure (negatedLiteral_keeps upholds.values negated)
  · exact evaluated

/-! ### Match -/

omit upholds kept in
/-- The arm the interpreter takes is one of the arms, and its payload is the value's. -/
theorem interpreterArm_ok {value : Value} {arms : List Arm} {arm : Arm}
    {payload : Option Value} (taken : interpreterArm value arms = .ok (arm, payload)) :
    arm ∈ arms ∧ ∀ item, payload = some item → ∃ enumName variant typeArguments,
      value = .enum enumName variant (some item) typeArguments := by
  unfold interpreterArm at taken
  split at taken
  · rename_i enumName variant found typeArguments
    split at taken
    · cases taken
    · rename_i other among
      have member := mem_of_find?_eq_some among
      split at taken
      · cases taken
        exact ⟨member, by rintro _ ⟨⟩⟩
      · cases taken
        refine ⟨member, ?_⟩
        rintro item ⟨⟩
        exact ⟨enumName, variant, typeArguments, rfl⟩
      · cases taken
  · cases taken

theorem armBody_keeps {arm : Arm} (parsed : arm.Parsed) {payload : Option Value}
    (holds : ∀ item, payload = some item → V item) :
    EvalKeeps conditions.stop V W V (armBody m arm payload) (armBody m' arm payload) := by
  refine inScope_keeps (.bind (P := fun _ => True) ?_ fun _ _ => ?_)
  · unfold bindPayload
    split
    · exact define_keeps (holds _ rfl)
    · exact .pure trivial
  · cases arm with
    | expression => exact kept.expr _ parsed
    | block => exact executeBlock_keeps kept upholds.values _ parsed

theorem matchStep_keeps (value : Expr) (arms : List Arm) (valueParsed : value.Parsed)
    (parsed : ParsedArms arms) :
    EvalKeeps conditions.stop V W V (matchStep (interpreterContext setting module call) m value arms)
      (matchStep (interpreterContext setting module call') m' value arms) := by
  refine .bind (kept.expr value valueParsed) fun scrutinee holds => ?_
  refine .bind (exec_keeps (lift_keeps (Q := fun taken : Arm × Option Value =>
    taken.1 ∈ arms ∧ ∀ item, taken.2 = some item → V item) fun taken done => ?_))
    fun taken inside => armBody_keeps upholds kept (parsedArms_iff.mp parsed _ inside.1) inside.2
  obtain ⟨member, carried⟩ := interpreterArm_ok done
  refine ⟨member, fun item same => ?_⟩
  obtain ⟨enumName, variant, typeArguments, rfl⟩ := carried item same
  exact (upholds.values.enum _ _ _ _).mp holds item rfl

end Operators

/-! ### Expressions and statements -/

section Expressions

include upholds calls kept

theorem exprStep_keepsAt (e : Expr) (parsed : e.Parsed) (start : StateKept V W state)
    (met : Meets conditions (interpreterContext setting module call) m e state) :
    EvalKeepsAt conditions.stop V W V (exprStep (interpreterContext setting module call) m e)
      (exprStep (interpreterContext setting module call') m' e) state := by
  have values := upholds.values
  cases e with
  | literal value type => exact .pure (values.literal parsed) start
  | ident name type => exact interpreterName_keeps upholds name state start
  | interpolated parts type =>
    exact (Comp.Keeps.bind (interpreterParts_keeps kept parts parsed)
      fun text _ => .pure (values.str text)) state start
  | list items type =>
    exact interpreterList_keeps upholds kept items parsed (by simp) state start
  | map entries type =>
    exact interpreterMap_keeps upholds kept entries parsed (by simp) state start
  | struct typeName fields required type =>
    exact interpreterStruct_keeps upholds kept typeName fields parsed state start
  | member object name type =>
    exact (Comp.Keeps.bind (kept.expr object parsed) fun receiver holds =>
      exec_keeps (interpreterMember_keeps upholds holds name)) state start
  | call callee arguments resolution type =>
    exact callStep_keepsAt upholds calls kept callee arguments resolution type parsed.1 parsed.2
      start met
  | assign name value type =>
    exact (Comp.Keeps.bind (kept.expr value parsed) fun result holds =>
      assignName_keeps holds) state start
  | assignField object objectType field value type =>
    exact interpreterAssignField_keepsAt upholds kept object field objectType type value parsed
      start met
  | binary left operator right type =>
    exact binaryStep_keepsAt upholds kept operator left right type parsed.1 parsed.2 start met
  | unary operator operand type => exact unaryStep_keeps upholds kept operator operand parsed state start
  | orReturn value error type =>
    cases error with
    | none =>
      refine .bind (kept.expr value parsed state start) fun result after _ holds inner => ?_
      split
      · rename_i payload unwrapped
        exact .pure (values.unwrapped holds unwrapped) inner
      · exact .raise holds inner
      · rename_i impossible
        cases impossible
    | some error =>
      refine .bind (kept.expr value parsed.1 state start) fun result after _ holds inner => ?_
      split
      · rename_i payload unwrapped
        exact .pure (values.unwrapped holds unwrapped) inner
      · rename_i impossible
        cases impossible
      · rename_i same
        cases same
        exact (Comp.Keeps.bind (kept.expr error parsed.2) fun returned returnedHolds =>
          Comp.Keeps.raise (e := Signal.ret returned) returnedHolds) after inner
  | orElse value fallback type =>
    refine .bind (kept.expr value parsed.1 state start) fun result after _ holds inner => ?_
    split
    · rename_i payload unwrapped
      exact .pure (values.unwrapped holds unwrapped) inner
    · exact kept.expr fallback parsed.2 after inner
  | orBlock value handler type =>
    refine .bind (kept.expr value parsed.1 state start) fun result after _ holds inner => ?_
    split
    · rename_i payload unwrapped
      exact .pure (values.unwrapped holds unwrapped) inner
    · exact executeBlock_keeps kept values handler parsed.2 after inner
  | matchOn value arms exhaustive type =>
    exact matchStep_keeps upholds kept value arms parsed.1 parsed.2 state start

end Expressions

/-- What a turn of a loop hands on has the property. -/
def TurnKept (V : Value → Prop) : Turn → Prop
  | .done value => V value
  | _ => True

theorem turn_keeps {x y : Eval σ Value} (body : EvalKeeps conditions.stop V W V x y) :
    EvalKeeps conditions.stop V W (TurnKept V) (turn x) (turn y) := by
  refine .handle (.bind body fun value holds => .pure holds) rfl fun signal holds => ?_
  cases signal with
  | brk => exact .pure trivial
  | cont => exact .pure trivial
  | fault fault => exact .raise trivial
  | ret value => exact .raise holds

section Statements

include upholds kept

variable {result : Value}

theorem whileStep_keeps (condition : Expr) (body : List Stmt)
    (conditionParsed : condition.Parsed) (parsed : ParsedStmts body) (holds : V result) :
    EvalKeeps conditions.stop V W V (whileStep (interpreterContext setting module call) m condition body result)
      (whileStep (interpreterContext setting module call') m' condition body result) := by
  refine .bind (kept.expr condition conditionParsed) fun value valueHolds => ?_
  split
  · exact .pure valueHolds
  · split
    · refine .bind (turn_keeps (executeBlock_keeps kept upholds.values body parsed))
        fun turned turnedHolds => ?_
      cases turned with
      | done value =>
        dsimp only
        split
        · exact .pure turnedHolds
        · exact kept.whileLoop condition body value conditionParsed parsed turnedHolds
      | continued => exact kept.whileLoop condition body result conditionParsed parsed holds
      | broken => exact .pure holds
    · exact .pure holds

theorem forItems_keeps (name : String) (body : List Stmt) (parsed : ParsedStmts body)
    {items : List Value} (among : ∀ item ∈ items, V item) (holds : V result) :
    EvalKeeps conditions.stop V W V (forItems m name body items result) (forItems m' name body items result) := by
  induction items generalizing result with
  | nil => exact .pure holds
  | cons item rest ih =>
    obtain ⟨itemHolds, others⟩ := forall_mem_cons.mp among
    refine .bind (turn_keeps (inScope_keeps (.bind (define_keeps itemHolds) fun _ _ => executeStatements_keeps kept body parsed upholds.values.unit)))
      fun turned turnedHolds => ?_
    cases turned with
    | done value =>
      dsimp only
      split
      · exact .pure turnedHolds
      · exact ih others turnedHolds
    | continued => exact ih others holds
    | broken => exact .pure holds

theorem forStep_keeps (name : String) (iterable : Expr) (body : List Stmt)
    (iterableParsed : iterable.Parsed) (parsed : ParsedStmts body) :
    EvalKeeps conditions.stop V W V (forStep m name iterable body) (forStep m' name iterable body) := by
  refine .bind (kept.expr iterable iterableParsed) fun value holds => ?_
  split
  · exact .pure holds
  · exact forItems_keeps upholds kept name body parsed ((upholds.values.list _).mp holds)
      upholds.values.unit
  · exact fail_keeps _

theorem stmtStep_keeps (s : Stmt) (parsed : s.Parsed) :
    EvalKeeps conditions.stop V W V (stmtStep (interpreterContext setting module call) m s)
      (stmtStep (interpreterContext setting module call') m' s) := by
  have values := upholds.values
  cases s with
  | letIn name isMutable value =>
    exact .bind (kept.expr value parsed) fun result holds =>
      .bind (define_keeps holds) fun _ _ => .pure values.unit
  | ret value =>
    cases value with
    | none => exact Comp.Keeps.raise (e := Signal.ret .unit) values.unit
    | some value =>
      exact .bind (kept.expr value parsed) fun result holds =>
        Comp.Keeps.raise (e := Signal.ret result) holds
  | expression expression => exact kept.expr expression parsed
  | ifThen statement =>
    obtain ⟨condition, thenBlock, elseBranch⟩ := statement
    obtain ⟨conditionParsed, thenParsed, elseParsed⟩ := parsed
    refine .bind (kept.expr condition conditionParsed) fun value holds => ?_
    split
    · exact .pure holds
    · split
      · exact executeBlock_keeps kept values thenBlock thenParsed
      · cases elseBranch with
        | nothing => exact .pure values.unit
        | block statements => exact executeBlock_keeps kept values statements elseParsed
        | elseIf statement => exact kept.stmt (.ifThen statement) elseParsed
  | whileDo condition body bodyType =>
    exact kept.whileLoop condition body .unit parsed.1 parsed.2 values.unit
  | forIn name iterable body bodyType =>
    have loop := forStep_keeps upholds kept name iterable body parsed.1 parsed.2
    simp only [stmtStep]
    split
    · exact loop
    · exact loop
  | breakLoop => exact Comp.Keeps.raise (e := Signal.brk) trivial
  | continueLoop => exact Comp.Keeps.raise (e := Signal.cont) trivial

end Statements

end Step

/-! ## Runs -/

section Runs

variable {conditions : Conditions σ} {setting : Setting σ}
  (upholds : Upholds conditions setting.runtime V W)

include upholds

omit upholds in
theorem watched_keepsAt {watch : Watch σ} (states : ∀ state, StateKept V W state → watch.state state)
    (values : ∀ value, V value → watch.value value) {x y : Eval σ Value} {state : State σ}
    (start : StateKept V W state) (kept : EvalKeepsAt conditions.stop V W V x y state) :
    EvalKeepsAt conditions.stop V W V x (watched watch y) state := by
  rcases kept with stopped | ⟨same, satisfied⟩
  · exact .inl stopped
  · refine .inr ⟨?_, satisfied⟩
    simp only [watched, states state start, if_true, ← same]
    cases ended : x state with
    | timeout => rfl
    | ok value after =>
      rw [ended] at satisfied
      simp only [values value satisfied.1, states after satisfied.2, and_self, if_true]
    | raise signal after =>
      rw [ended] at satisfied
      simp only [states after satisfied.2, if_true]

variable {module : Module} {call call' : Caller σ} {watch : Watch σ}

theorem guardedMeaning_keeps (states : ∀ state, StateKept V W state → watch.state state)
    (values : ∀ value, V value → watch.value value)
    (calls : CallKeeps conditions.stop V W call call') (fuel : Nat) :
    MeaningKeeps conditions.stop V W (guardedMeaning conditions (interpreterContext setting module call) fuel)
      (watchedMeaning watch (interpreterContext setting module call') fuel) := by
  induction fuel with
  | zero => exact ⟨fun _ _ => .timeout, fun _ _ => .timeout, fun _ _ _ _ _ _ => .timeout⟩
  | succ fuel ih =>
    refine ⟨fun e parsed state start => watched_keepsAt states values start ?_,
      fun s parsed state start =>
        watched_keepsAt states values start (stmtStep_keeps upholds ih s parsed state start),
      fun condition body result first parsed holds =>
        whileStep_keeps upholds ih condition body first parsed holds⟩
    by_cases met : meets conditions (interpreterContext setting module call)
      (guardedMeaning conditions (interpreterContext setting module call) fuel) e state
    · have step := exprStep_keepsAt upholds calls ih e parsed start (meets_of_eq_true met)
      simp only [EvalKeepsAt, Comp.KeepsAt, guardedMeaning, met, if_true]
      exact step
    · exact .stopped (t := state) (by simp only [guardedMeaning, if_neg met])

theorem bodyResult_keeps {m m' : Meaning σ}
    (kept : MeaningKeeps conditions.stop V W m m') (body : List Stmt) (parsed : ParsedStmts body) :
    EvalKeeps conditions.stop V W V (bodyResult (interpreterContext setting module call) m body)
      (bodyResult (interpreterContext setting module call') m' body) := by
  refine .handle (.bind (executeStatements_keeps kept body parsed upholds.values.unit)
    fun value holds => .pure holds) rfl fun signal holds => ?_
  cases signal with
  | ret value => exact .pure holds
  | fault fault => exact .raise trivial
  | brk => exact .raise trivial
  | cont => exact .raise trivial

omit upholds in
theorem checkNames_keeps (function : FunctionDeclaration)
    (entries : List (List String × Value)) :
    ExecKeeps conditions.stop W (fun _ => True) (interpreterArguments.checkNames setting function entries)
      (interpreterArguments.checkNames setting function entries) := by
  induction entries with
  | nil => exact .pure trivial
  | cons entry rest ih =>
    refine .bind asked_keeps fun matched _ => ?_
    split
    · exact ih
    · exact .raise trivial

omit upholds in
theorem interpreterArguments_keeps (function : FunctionDeclaration) (arguments : List Value) :
    ExecKeeps conditions.stop W (fun _ => True) (interpreterArguments setting function arguments)
      (interpreterArguments setting function arguments) := by
  have rest (contract : List (List String) × Option (List String)) :
      ExecKeeps conditions.stop W (fun _ => True) (do
          interpreterArguments.checkNames setting function (contract.1.zip arguments)
          pure contract.2)
        (do
          interpreterArguments.checkNames setting function (contract.1.zip arguments)
          pure contract.2) :=
    .bind (checkNames_keeps function _) fun _ _ => .pure trivial
  unfold interpreterArguments
  split
  · exact rest _
  · exact .bind askedLift_keeps fun contract _ =>
      rest contract

omit upholds in
theorem interpreterReturn_keeps (function : FunctionDeclaration) (names : Option (List String))
    {result : Value} (holds : V result) :
    ExecKeeps conditions.stop W V (interpreterReturn setting function names result)
      (interpreterReturn setting function names result) := by
  unfold interpreterReturn
  split
  · exact .pure holds
  · refine .bind asked_keeps fun matched _ => ?_
    split
    · exact .pure holds
    · exact .raise trivial

theorem callBody_keeps {m m' : Meaning σ}
    (kept : MeaningKeeps conditions.stop V W m m') (function : FunctionDeclaration)
    (parsed : ParsedStmts function.body) (arguments : List Value) :
    EvalKeeps conditions.stop V W V
      (callBody setting (interpreterContext setting module call) m function arguments)
      (callBody setting (interpreterContext setting module call') m' function arguments) := by
  unfold callBody
  split
  · exact fail_keeps _
  · refine .withState fun state start => ?_
    refine .bind (exec_keeps (.bind (interpreterArguments_keeps function arguments)
      fun _ _ => Comp.Keeps.pure (Q := fun _ => True) trivial) state start)
      fun _ after _ _ inner => ?_
    dsimp only
    split
    · exact fail_keeps _ after inner
    · refine .finallyDo (J := StateKept V W) ?_ fun t ended => ended
      have deeper : EvalKeeps (σ := σ) conditions.stop V W (fun _ => True) (Comp.modify (changeDepth (· + 1)))
          (Comp.modify (changeDepth (· + 1))) := .modify fun t ended => ended
      exact (Comp.Keeps.bind deeper fun _ _ =>
        .bind (bodyResult_keeps upholds kept function.body parsed) fun result holds =>
          exec_keeps (interpreterReturn_keeps function _ holds)) after inner

omit upholds in
theorem asCall_keeps {x y : Eval σ Value} (kept : EvalKeeps conditions.stop V W V x y) {scopes : List Scope}
    (within : ∀ scope ∈ scopes, ∀ entry ∈ scope, V entry.2.value) :
    ExecKeeps conditions.stop W V (asCall Lane.interpreter scopes x) (asCall Lane.interpreter scopes y) := by
  intro store start
  rcases kept ⟨store, scopes⟩ ⟨start, within⟩ with ⟨state, stopped⟩ | ⟨same, satisfied⟩
  · refine .inl ⟨state.store, ?_⟩
    simp only [asCall, stopped]
    rfl
  · simp only [Comp.KeepsAt, asCall, ← same]
    cases ended : x ⟨store, scopes⟩ with
    | timeout => exact .inr ⟨trivial, trivial⟩
    | ok value state =>
      rw [ended] at satisfied
      exact .inr ⟨trivial, satisfied.1, satisfied.2.1⟩
    | raise signal state =>
      rw [ended] at satisfied
      cases signal with
      | fault fault => exact .inr ⟨trivial, trivial, satisfied.2.1⟩
      | ret value => exact .inr ⟨trivial, satisfied.1, satisfied.2.1⟩
      | brk => exact .inr ⟨trivial, trivial, satisfied.2.1⟩
      | cont => exact .inr ⟨trivial, trivial, satisfied.2.1⟩

omit upholds in
theorem parameterScope_holds (parameters : List Parameter) {arguments : List Value}
    (holds : ∀ argument ∈ arguments, V argument) :
    ∀ entry ∈ parameterScope parameters arguments, V entry.2.value := by
  intro entry member
  unfold parameterScope at member
  obtain ⟨pair, inside, rfl⟩ := mem_map.mp (mem_reverse.mp member)
  exact holds _ (of_mem_zip inside).2

/-- A run whose steps meet their conditions keeps the invariant, and is the watched run. -/
theorem guardedCall_watched (states : ∀ state, StateKept V W state → watch.state state)
    (values : ∀ value, V value → watch.value value) (parsed : setting.program.Parsed) (fuel : Nat) :
    CallKeeps conditions.stop V W (guardedCall conditions setting fuel) (watchedCall watch setting fuel) := by
  induction fuel with
  | zero => exact fun _ _ _ _ => .timeout
  | succ fuel ih =>
    intro key name arguments holds
    simp only [guardedCall, watchedCall]
    cases found : setting.program.moduleFunction key name with
    | error fault => exact .raise trivial
    | ok pair =>
      obtain ⟨module, function⟩ := pair
      refine asCall_keeps ?_ (by simpa using parameterScope_holds _ holds)
      exact callBody_keeps upholds (guardedMeaning_keeps upholds states values ih fuel)
        function (parsed.body found) arguments

/-- A run whose steps meet their conditions is the interpreter's, and keeps the invariant. -/
theorem guardedCall_keeps (parsed : setting.program.Parsed) (fuel : Nat) :
    CallKeeps conditions.stop V W (guardedCall conditions setting fuel)
      (callFunction Lane.interpreter setting fuel) := by
  have kept : CallKeeps conditions.stop V W (guardedCall conditions setting fuel)
      (watchedCall Watch.anything setting fuel) :=
    guardedCall_watched upholds (fun _ _ => trivial) (fun _ _ => trivial) parsed fuel
  rwa [watchedCall_anything] at kept

end Runs

end Koschei.Ast
