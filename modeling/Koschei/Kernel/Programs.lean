import Koschei.Kernel.Domains
import Koschei.Lib.Lookup

/-!
# Lowered graphs

A graph that has been evaluated is lowered to a `main` that binds its witnesses in
order and returns the resolved one. The kernel keeps its operations, as `+`, `-` and
`*`; a value graph is lowered with `native_value_domain_backend_alignment_v1.py`
installed, which binds the values themselves. `SemanticChecker` then checks what was
made. A graph whose numbers are signed 64-bit numbers always passes.
-/

namespace Koschei.Kernel

open Lib Lib.DepthFirst

/-- The expressions of lowered graphs: `Literal`, `Identifier`, `BinaryExpression`. -/
inductive LoweredExpression where
  | literal (value : NativeValue)
  | identifier (name : String)
  | binary (left : LoweredExpression) (operator : String) (right : LoweredExpression)
  deriving DecidableEq

/-- `LetStatement`: never mutable, with its type. -/
structure LetStatement where
  name : String
  value : LoweredExpression
  annotation : Domain
  deriving DecidableEq

/-- The `Program` of a lowered graph: the body of its `main`, which returns a name. -/
structure LoweredProgram where
  lets : List LetStatement
  result : String
  returnType : Domain
  deriving DecidableEq

/-- The name of the type of a domain in `_type_ref`. -/
def Domain.typeName : Domain → String
  | .whole => "Int"
  | .truth => "Bool"
  | .glyphs => "String"

/-! ## The checks of `SemanticChecker` on lowered graphs -/

def semanticFault (code message : String) : Fault := .semantic code message

/-- `COMPARISON_OPERATORS`. -/
def comparisonOperators : List String := ["==", "!=", "<", "<=", ">", ">="]

/-- `_check_binary`: the operands have types. A lowered graph has no other operators. -/
def checkBinary (operator : String) (left right : Domain) : Checked Domain :=
  if operator ∈ comparisonOperators then do
    raiseIf (left ≠ right) (semanticFault "KS1301" ("'" ++ operator
      ++ "' iki farklı tipi karşılaştıramaz: " ++ left.typeName ++ " ve " ++ right.typeName ++ "."))
    .ok .truth
  else do
    raiseIf (left ≠ right) (semanticFault "KS1301" ("'" ++ operator
      ++ "' iki farklı tipe uygulanamaz: " ++ left.typeName ++ " ve " ++ right.typeName ++ "."))
    match left with
    | .glyphs => do
      raiseIf (operator ≠ "+") (semanticFault "KS1301"
        ("String yalnızca '+' ile birleştirilebilir; '" ++ operator ++ "' geçersiz."))
      .ok .glyphs
    | .truth => .error (semanticFault "KS1301" ("'" ++ operator ++ "' işleci Bool tipine uygulanamaz."))
    | .whole => .ok .whole

/-- `_check_expression`. -/
def checkExpression (scope : List (String × Domain)) : LoweredExpression → Checked Domain
  | .literal (.whole value) => do
    raiseIf (¬ Int64 value) (semanticFault "KS1302" ("Int literal işaretli 64-bit aralığın dışında: "
      ++ toString value ++ ". Geçerli aralık -9223372036854775808..9223372036854775807."))
    .ok .whole
  | .literal (.truth _) => .ok .truth
  | .literal (.glyphs _) => .ok .glyphs
  | .identifier name =>
    match scope.lookup name with
    | some type => .ok type
    | none => .error (semanticFault "KS1101" ("Tanımsız isim: '" ++ name ++ "'."))
  | .binary left operator right => do
    let leftType ← checkExpression scope left
    let rightType ← checkExpression scope right
    checkBinary operator leftType rightType

/-- `_require_assignable`, for the types of lowered graphs. -/
def requireAssignable (expected actual : Domain) (subject : String) : Checked Unit :=
  raiseIf (expected ≠ actual) (semanticFault "KS1301"
    (subject ++ " " ++ expected.typeName ++ " bekler, " ++ actual.typeName ++ " bulundu."))

/-- `_check_statement` on the bindings, one after the other, in the scope of `main`. -/
def checkLets : List (String × Domain) → List LetStatement → Checked (List (String × Domain))
  | scope, [] => .ok scope
  | scope, statement :: statements => do
    let actual ← checkExpression scope statement.value
    requireAssignable statement.annotation actual ("'" ++ statement.name ++ "' yerel tip anotasyonu")
    raiseIf (statement.name ∈ scope.map fst)
      (semanticFault "KS1102" ("'" ++ statement.name ++ "' bu scope içinde zaten tanımlı."))
    checkLets ((statement.name, statement.annotation) :: scope) statements

/-- `SemanticReport`. -/
structure SemanticReport where
  functionCount : Nat
  variableCount : Nat
  capabilityCount : Nat
  deriving DecidableEq

/-- `SemanticChecker(program).check()`. -/
def semanticCheck (program : LoweredProgram) : Checked SemanticReport := do
  let scope ← checkLets [] program.lets
  let actual ← checkExpression scope (.identifier program.result)
  requireAssignable program.returnType actual "'main' dönüş değeri"
  .ok ⟨1, program.lets.length, 0⟩

/-! ## Lowering -/

/-- `by_name[name]`. -/
def witnessOf {V : Type} (graph : Graph V) (name : String) : Checked (Witness V) :=
  match graph.byName name with
  | some witness => .ok witness
  | none => .error .key

/-- `_lower_atom`. -/
def lowerAtom : Atom Int → LoweredExpression
  | .literal value => .literal (.whole value)
  | .witness name => .identifier name

/-- `operators[operation]`. -/
def backendOperator (operation : String) : Checked String := if operation = "sum" then .ok "+"
  else if operation = "difference" then .ok "-"
  else if operation = "product" then .ok "*"
  else .error .key

/-- The expression of a term in `lower_native_kernel`. -/
def lowerTerm (term : Term Int) : Checked LoweredExpression := match term.operation, term.atoms with
  | none, atom :: _ => .ok (lowerAtom atom)
  | some operation, first :: second :: _ => do
    let operator ← backendOperator operation
    .ok (.binary (lowerAtom first) operator (lowerAtom second))
  | _, _ => .error .index

/-- The binding of a witness in `lower_native_kernel`. -/
def lowerWitness (kernel : Graph Int) (name : String) : Checked LetStatement := do
  let witness ← witnessOf kernel name
  let value ← lowerTerm witness.term
  .ok ⟨witness.name, value, .whole⟩

/-- `lower_native_kernel`. -/
def lowerNativeKernel (host : Host) (kernel : Graph Int) : Checked LoweredProgram := do
  let order ← dependencyOrder host kernel
  let lets ← order.mapM (lowerWitness kernel)
  .ok ⟨lets, kernel.resolve, .whole⟩

/-- `NativeKernelCheck`. -/
structure NativeKernelCheck where
  kernel : Graph Int
  dependencyOrder : List String
  value : Int
  lowered : LoweredProgram
  semantic : SemanticReport
  deriving DecidableEq

/-- What `check_native_kernel` does with a parsed kernel. -/
def checkKernel (host : Host) (kernel : Graph Int) : Checked NativeKernelCheck := do
  let lowered ← lowerNativeKernel host kernel
  let semantic ← semanticCheck lowered
  let order ← dependencyOrder host kernel
  let value ← evaluateNativeKernel host kernel
  .ok ⟨kernel, order, value, lowered, semantic⟩

/-- `check_native_kernel`. -/
def checkNativeKernel (host : Host) (source : String) : Checked NativeKernelCheck := do
  let kernel ← parseNativeKernel host source
  checkKernel host kernel

/-- What `evaluate_native_value_graph` says about operations. -/
def valueTexts (host : Host) : OperationTexts where
  coercion := fun operation line =>
    valueFault "KV1401" (operation ++ " requires whole/whole and forbids coercion") line 1
  overflow := fun operation line =>
    valueFault "KV1402" (operation ++ " exceeds signed Int64 reality") line 1
  crossDomain := fun line => valueFault "KV1403"
    "same requires identical value domains and forbids cross-domain equality coercion" line 1
  textual := fun line =>
    valueFault "KV1404" "merge requires glyphs/glyphs and forbids textual coercion" line 1
  budget := fun line => valueFault "KV1405" "merged glyphs exceeds result byte budget" line 1
  unknown := fun operation line =>
    valueFault "KV1005" ("unknown value operation " ++ host.repr operation) line 1

/-- `unicodedata.normalize("NFC", left + right)`. -/
def Host.merged (host : Host) (left right : String) : String := host.normalize (left ++ right)

/-- The value of a witness in `_evaluate_canonical_value_graph`. -/
def canonicalValue (host : Host) : Witness NativeValue → (String → Option NativeValue) →
    Checked NativeValue :=
  termValue fun witness => operate (valueTexts host) host.merged witness.line

/-- `evaluate_native_value_graph`, as `_evaluate_canonical_value_graph` leaves it. -/
def evaluateNativeValueGraph (host : Host) (graph : Graph NativeValue) :
    Checked (List (String × NativeValue)) := do
  let order ← dependencyOrderValueGraph host graph
  valuesIn (canonicalValue host) graph.witnesses order

/-- `values[name]`. -/
def valueAt (values : List (String × NativeValue)) (name : String) : Checked NativeValue :=
  match values.lookup name with
  | some value => .ok value
  | none => .error .key

/-- The binding of a witness that has been given its value. -/
def materialize (graph : Graph NativeValue) (values : List (String × NativeValue)) (name : String) :
    Checked LetStatement := do
  let witness ← witnessOf graph name
  let value ← valueAt values name
  .ok ⟨witness.name, .literal value, value.domain⟩

/-- `lower_native_value_graph`, as `_lower_canonical_value_graph` leaves it. -/
def lowerNativeValueGraph (host : Host) (graph : Graph NativeValue)
    (values : List (String × NativeValue)) : Checked LoweredProgram := do
  let order ← dependencyOrderValueGraph host graph
  let lets ← order.mapM (materialize graph values)
  let resolved ← valueAt values graph.resolve
  .ok ⟨lets, graph.resolve, resolved.domain⟩

/-- `NativeValueDomainCheck`. -/
structure NativeValueDomainCheck where
  graph : Graph NativeValue
  dependencyOrder : List String
  values : List (String × NativeValue)
  value : NativeValue
  lowered : LoweredProgram
  semantic : SemanticReport
  deriving DecidableEq

/-- What `check_native_value_domains` does with a parsed graph. -/
def checkValueGraph (host : Host) (graph : Graph NativeValue) : Checked NativeValueDomainCheck := do
  let order ← dependencyOrderValueGraph host graph
  let values ← evaluateNativeValueGraph host graph
  let lowered ← lowerNativeValueGraph host graph values
  let semantic ← semanticCheck lowered
  let value ← valueAt values graph.resolve
  .ok ⟨graph, order, values, value, lowered, semantic⟩

/-! ## What the checks say -/

/-- The names that bindings declare, the last first. -/
def declared (lets : List LetStatement) : List (String × Domain) :=
  (lets.map fun statement => (statement.name, statement.annotation)).reverse

theorem declared_cons (statement : LetStatement) (lets : List LetStatement) :
    declared (statement :: lets) = declared lets ++ [(statement.name, statement.annotation)] :=
  List.reverse_cons

variable {lets : List LetStatement} {statement : LetStatement}

theorem mem_declared (inside : statement ∈ lets) :
    (statement.name, statement.annotation) ∈ declared lets :=
  mem_reverse.mpr (mem_map_of_mem inside)

theorem names_declared (lets : List LetStatement) :
    (declared lets).map fst = (lets.map LetStatement.name).reverse := by
  unfold declared
  rw [map_reverse, map_map]
  rfl

theorem checkLets_eq_ok {scope : List (String × Domain)}
    (distinct : ((declared lets ++ scope).map fst).Nodup)
    (typed : ∀ before statement after, lets = before ++ statement :: after →
      checkExpression (declared before ++ scope) statement.value = .ok statement.annotation) :
    checkLets scope lets = .ok (declared lets ++ scope) := by
  induction lets generalizing scope with
  | nil => rfl
  | cons statement lets ih =>
    have here := typed [] statement lets rfl
    rw [declared_cons, append_assoc, singleton_append] at distinct
    have fresh : statement.name ∉ scope.map fst := by
      rw [map_append] at distinct
      exact (nodup_cons.mp (nodup_append.mp distinct).2.1).1
    rw [checkLets, bind_of_ok (show checkExpression scope statement.value = _ from here)]
    unfold requireAssignable
    rw [bind_raiseIf (not_not.mpr rfl), bind_raiseIf fresh, ih distinct, declared_cons,
      append_assoc]
    · rfl
    · intro before other after split
      have later := typed (statement :: before) other after (by rw [split]; rfl)
      rwa [declared_cons, append_assoc, singleton_append] at later

/-- A program passes when its bindings do and its result is bound with its type. -/
theorem semanticCheck_ok {program : LoweredProgram}
    (distinct : (program.lets.map LetStatement.name).Nodup)
    (typed : ∀ before statement after, program.lets = before ++ statement :: after →
      checkExpression (declared before) statement.value = .ok statement.annotation)
    (result : (program.result, program.returnType) ∈ declared program.lets) :
    ∃ report, semanticCheck program = .ok report := by
  have names : ((declared program.lets).map fst).Nodup := by
    rw [names_declared]
    exact List.nodup_reverse.mpr distinct
  have lets := @checkLets_eq_ok program.lets [] (by rwa [append_nil])
    fun before statement after split => by
      rw [append_nil]
      exact typed before statement after split
  rw [append_nil] at lets
  refine ⟨⟨1, program.lets.length, 0⟩, ?_⟩
  unfold semanticCheck
  rw [bind_of_ok lets, checkExpression, (lookup_eq_some_iff_mem names).mpr result]
  unfold requireAssignable
  exact bind_raiseIf (not_not.mpr rfl)

/-! ## Kernels -/

/-- What the kernel means: its results are signed 64-bit numbers. -/
def kernelMeaning : Meaning Int := fun operation operands =>
  match operands with
  | [left, right] =>
    match arithmetic operation with
    | some compute => if Int64 (compute left right) then some (compute left right) else none
    | none => none
  | _ => none

section Kernels

variable {host : Host} {kernel : Graph Int} {order : List String} {operation name : String}
  {witness : Witness Int} {value : Int}

theorem kernelOperation_eq_ok {left right : Int} :
    kernelOperation host witness operation left right = .ok value ↔
      kernelMeaning operation [left, right] = some value := by
  unfold kernelOperation kernelMeaning
  dsimp only
  cases arithmetic operation with
  | none =>
    constructor
    · intro impossible
      cases impossible
    · intro impossible
      cases impossible
  | some compute =>
    dsimp only
    unfold checkedInt
    by_cases fits : Int64 (compute left right)
    · rw [if_pos fits, bind_raiseIf (not_not.mpr fits)]
      simp
    · rw [if_neg fits]
      constructor
      · intro ran
        obtain ⟨_, passed, -⟩ := bind_eq_ok ran
        exact absurd (not_not.mp (raiseIf_eq_ok passed)) fits
      · intro impossible
        cases impossible

theorem kernelValue_follows (terms : ∀ witness ∈ kernel.witnesses, KernelTerm witness.term) :
    Follows (kernelValue host) kernelMeaning kernel.witnesses :=
  termValue_follows (fun _ _ _ _ _ => kernelOperation_eq_ok) fun witness inside =>
    (terms witness inside).binary

theorem evaluateNativeKernel_iff (ordered : dependencyOrder host kernel = .ok order)
    (terms : ∀ witness ∈ kernel.witnesses, KernelTerm witness.term) :
    evaluateNativeKernel host kernel = .ok value ↔ Resolves kernelMeaning kernel value := by
  obtain ⟨distinct, isOrder⟩ := dependencyOrder_eq_ok.mp ordered
  rw [← (order_of_orderOf isOrder).resolves_iff distinct (termValue_looks _) (kernelValue_follows terms)]
  unfold evaluateNativeKernel
  rw [bind_of_ok ordered]
  constructor
  · intro ran
    obtain ⟨found, evaluated, ran⟩ := bind_eq_ok ran
    refine ⟨found, evaluated, ?_⟩
    split at ran
    · rename_i other known
      cases ran
      exact known
    · cases ran
  · rintro ⟨found, evaluated, known⟩
    refine (bind_of_ok evaluated).trans ?_
    rw [known]

theorem witnessOf_eq_ok {V : Type} {graph : Graph V} {witness : Witness V} :
    witnessOf graph name = .ok witness ↔ named graph.witnesses name = some witness := by
  unfold witnessOf Graph.byName
  cases named graph.witnesses name with
  | none => simp
  | some other => simp

theorem lowerTerm_ok {term : Term Int} (shape : KernelTerm term) :
    ∃ expression, lowerTerm term = .ok expression := by
  obtain ⟨binary, known, -⟩ := shape
  cases binary with
  | atom atom => exact ⟨_, rfl⟩
  | operation operation left right =>
    have member := known operation rfl
    have translated : ∃ operator, backendOperator operation = .ok operator := by
      unfold operations at member
      rcases mem_cons.mp member with rfl | member
      · exact ⟨"+", rfl⟩
      · rcases mem_cons.mp member with rfl | member
        · exact ⟨"-", rfl⟩
        · rw [mem_singleton.mp member]
          exact ⟨"*", rfl⟩
    obtain ⟨operator, isOperator⟩ := translated
    exact ⟨_, bind_of_ok isOperator⟩

theorem backendOperator_arithmetic {operation operator : String}
    (translated : backendOperator operation = .ok operator) : operator ∉ comparisonOperators := by
  unfold backendOperator at translated
  split at translated
  · cases translated
    decide
  · split at translated
    · cases translated
      decide
    · split at translated
      · cases translated
        decide
      · cases translated

variable {scope : List (String × Domain)}

theorem checkExpression_lowerAtom {atom : Atom Int}
    (literal : ∀ value, atom = .literal value → Int64 value)
    (known : ∀ name, atom = .witness name → scope.lookup name = some .whole) :
    checkExpression scope (lowerAtom atom) = .ok .whole := by
  cases atom with
  | literal value => exact bind_raiseIf (not_not.mpr (literal value rfl))
  | witness name =>
    rw [lowerAtom, checkExpression, known name rfl]

theorem checkExpression_lowerTerm {expression : LoweredExpression} (shape : KernelTerm witness.term)
    (lowered : lowerTerm witness.term = .ok expression)
    (known : ∀ name ∈ dependencies witness, scope.lookup name = some .whole) :
    checkExpression scope expression = .ok .whole := by
  have atoms : ∀ atom ∈ witness.term.atoms, checkExpression scope (lowerAtom atom) = .ok .whole :=
    fun atom inside => checkExpression_lowerAtom
      (fun value same => shape.literals value (same ▸ inside))
      fun name same => known name (mem_dependencies.mpr (same ▸ inside))
  obtain ⟨name, term, line⟩ := witness
  dsimp only at shape lowered atoms
  obtain ⟨binary, -, -⟩ := shape
  cases binary with
  | atom atom =>
    cases lowered
    exact atoms atom mem_cons_self
  | operation operation left right =>
    obtain ⟨operator, translated, lowered⟩ := bind_eq_ok lowered
    cases lowered
    rw [checkExpression, bind_of_ok (atoms left mem_cons_self),
      bind_of_ok (atoms right (mem_cons_of_mem _ mem_cons_self))]
    unfold checkBinary
    rw [if_neg (backendOperator_arithmetic translated)]
    exact bind_raiseIf (not_not.mpr rfl)

theorem lowerWitness_eq_ok (made : lowerWitness kernel name = .ok statement) :
    statement.name = name ∧ statement.annotation = .whole ∧
      ∃ witness, named kernel.witnesses name = some witness ∧
        lowerTerm witness.term = .ok statement.value := by
  obtain ⟨witness, found, made⟩ := bind_eq_ok made
  obtain ⟨expression, lowered, made⟩ := bind_eq_ok made
  cases made
  have isNamed := witnessOf_eq_ok.mp found
  exact ⟨(mem_of_named isNamed).2, rfl, witness, isNamed, lowered⟩

variable {lets : List LetStatement} {names : List String}

theorem lets_of_lowered
    (each : Forall₂ (fun name statement => lowerWitness kernel name = .ok statement) names lets) :
    lets.map (fun statement => (statement.name, statement.annotation)) =
      names.map fun name => (name, Domain.whole) := by
  induction each with
  | nil => rfl
  | cons first _ ih =>
    obtain ⟨isName, isWhole, -⟩ := lowerWitness_eq_ok first
    rw [map_cons, map_cons, ih, isName, isWhole]

theorem names_whole (names : List String) :
    (names.map fun name => (name, Domain.whole)).map fst = names := by
  rw [map_map]
  exact (map_congr_left fun _ _ => rfl).trans (map_id names)

/-- A name that has been bound is an Int. -/
theorem lookup_declared (distinct : names.Nodup)
    (each : Forall₂ (fun name statement => lowerWitness kernel name = .ok statement) names lets)
    (inside : name ∈ names) : (declared lets).lookup name = some .whole := by
  unfold declared
  rw [lets_of_lowered each]
  refine (lookup_eq_some_iff_mem ?_).mpr (mem_reverse.mpr (mem_map_of_mem inside))
  rw [map_reverse, names_whole]
  exact List.nodup_reverse.mpr distinct

theorem semanticCheck_lowerNativeKernel (ordered : dependencyOrder host kernel = .ok order)
    (terms : ∀ witness ∈ kernel.witnesses, KernelTerm witness.term) :
    ∃ lowered report, lowerNativeKernel host kernel = .ok lowered ∧ semanticCheck lowered = .ok report := by
  have isOrdered := order_of_orderOf (dependencyOrder_eq_ok.mp ordered).2
  have each : ∀ name ∈ order, ∃ statement, lowerWitness kernel name = .ok statement := by
    intro name inside
    obtain ⟨before, after, rfl⟩ := append_of_mem inside
    obtain ⟨_, found, -⟩ := isOrdered.closed before name after rfl
    obtain ⟨witness, isNamed, -⟩ := map_eq_some_iff.mp found
    obtain ⟨expression, lowered⟩ := lowerTerm_ok (terms witness (mem_of_named isNamed).1)
    exact ⟨_, (bind_of_ok (witnessOf_eq_ok.mpr isNamed)).trans (bind_of_ok lowered)⟩
  obtain ⟨lets, mapped⟩ := exists_mapM_eq_ok each
  have related := mapM_forall₂ mapped
  have letNames : lets.map LetStatement.name = order := by
    have names := congrArg (List.map fst) (lets_of_lowered related)
    rw [map_map, names_whole] at names
    exact names
  have typed : ∀ before statement after, lets = before ++ statement :: after →
      checkExpression (declared before) statement.value = .ok statement.annotation := by
    intro before statement after split
    rw [split] at related
    obtain ⟨first, name, rest, isSplit, earlier, made⟩ := split_of_forall₂ related
    obtain ⟨-, isWhole, witness, isNamed, lowered⟩ := lowerWitness_eq_ok made
    obtain ⟨_, found, subset⟩ := isOrdered.closed first name rest isSplit
    unfold dependenciesOf at found
    rw [isNamed] at found
    cases found
    have distinct := isOrdered.nodup
    rw [isSplit] at distinct
    rw [isWhole]
    exact checkExpression_lowerTerm (terms witness (mem_of_named isNamed).1) lowered
      fun dependency needed => lookup_declared (nodup_append.mp distinct).1 earlier (subset needed)
  have result : (kernel.resolve, Domain.whole) ∈ declared lets :=
    mem_of_lookup_eq_some (lookup_declared isOrdered.nodup related isOrdered.resolve)
  obtain ⟨report, passed⟩ := @semanticCheck_ok ⟨lets, kernel.resolve, .whole⟩
    (letNames.symm ▸ isOrdered.nodup) typed result
  exact ⟨_, report, (bind_of_ok ordered).trans (bind_of_ok mapped), passed⟩

theorem kernel_of_checkKernel {check : NativeKernelCheck} (ran : checkKernel host kernel = .ok check) :
    check.kernel = kernel := by
  unfold checkKernel at ran
  obtain ⟨lowered, -, ran⟩ := bind_eq_ok ran
  obtain ⟨report, -, ran⟩ := bind_eq_ok ran
  obtain ⟨order, -, ran⟩ := bind_eq_ok ran
  obtain ⟨value, -, made⟩ := bind_eq_ok ran
  cases made
  rfl

theorem checkKernel_iff (ordered : dependencyOrder host kernel = .ok order)
    (terms : ∀ witness ∈ kernel.witnesses, KernelTerm witness.term) :
    (∃ check, checkKernel host kernel = .ok check ∧ check.value = value) ↔
      Resolves kernelMeaning kernel value := by
  rw [← evaluateNativeKernel_iff ordered terms]
  obtain ⟨lowered, report, isLowered, passed⟩ := semanticCheck_lowerNativeKernel ordered terms
  unfold checkKernel
  rw [bind_of_ok isLowered, bind_of_ok passed, bind_of_ok ordered]
  constructor
  · rintro ⟨check, ran, rfl⟩
    obtain ⟨value, evaluated, made⟩ := bind_eq_ok ran
    cases made
    exact evaluated
  · exact fun evaluated => ⟨_, bind_of_ok evaluated, rfl⟩

end Kernels

/-! ## Value graphs -/

section ValueGraphs

variable {host : Host} {graph : Graph NativeValue} {order : List String}
  {values : List (String × NativeValue)}

section

variable (terms : ∀ witness ∈ graph.witnesses, ValueTerm witness.term)

include terms

theorem canonicalValue_follows :
    Follows (canonicalValue host) (valueMeaning host.merged) graph.witnesses :=
  termValue_follows (fun _ _ _ _ _ => operate_eq_ok) fun witness inside => (terms witness inside).binary

variable {value : NativeValue}

/-- A value graph evaluates to values of which the resolved one is what it resolves to. -/
theorem evaluateNativeValueGraph_iff (ordered : dependencyOrderValueGraph host graph = .ok order)
    (distinct : (graph.witnesses.map Witness.name).Nodup) :
    (∃ values, evaluateNativeValueGraph host graph = .ok values ∧
      values.lookup graph.resolve = some value) ↔ Resolves (valueMeaning host.merged) graph value := by
  rw [← (order_of_orderOf ordered).resolves_iff distinct (termValue_looks _)
    (canonicalValue_follows terms)]
  unfold evaluateNativeValueGraph
  rw [bind_of_ok ordered]
  rfl

theorem model_of_evaluate (ordered : dependencyOrderValueGraph host graph = .ok order)
    (distinct : (graph.witnesses.map Witness.name).Nodup)
    (evaluated : evaluateNativeValueGraph host graph = .ok values) :
    Model (valueMeaning host.merged) graph fun name => values.lookup name := by
  unfold evaluateNativeValueGraph at evaluated
  rw [bind_of_ok ordered] at evaluated
  exact (order_of_orderOf ordered).model_of_valuesIn distinct (termValue_looks _)
    (canonicalValue_follows terms) evaluated

omit terms in
theorem valueAt_eq_ok {name : String} :
    valueAt values name = .ok value ↔ values.lookup name = some value := by
  unfold valueAt
  cases values.lookup name with
  | none => simp
  | some other => simp

omit terms in
theorem materialize_eq_ok {name : String} {statement : LetStatement}
    (made : materialize graph values name = .ok statement) :
    statement.name = name ∧ ∃ value, values.lookup name = some value ∧
      statement.value = .literal value ∧ statement.annotation = value.domain := by
  obtain ⟨witness, found, made⟩ := bind_eq_ok made
  obtain ⟨value, looked, made⟩ := bind_eq_ok made
  cases made
  exact ⟨(mem_of_named (witnessOf_eq_ok.mp found)).2, value, valueAt_eq_ok.mp looked, rfl, rfl⟩

omit terms in
theorem checkExpression_literal {scope : List (String × Domain)}
    (bounded : value.Bounded) : checkExpression scope (.literal value) = .ok value.domain := by
  cases value with
  | whole value => exact bind_raiseIf (not_not.mpr bounded)
  | truth value => rfl
  | glyphs text => rfl

theorem semanticCheck_lowerNativeValueGraph (ordered : dependencyOrderValueGraph host graph = .ok order)
    (distinct : (graph.witnesses.map Witness.name).Nodup)
    (evaluated : evaluateNativeValueGraph host graph = .ok values) :
    ∃ lowered report value, lowerNativeValueGraph host graph values = .ok lowered ∧
      semanticCheck lowered = .ok report ∧ values.lookup graph.resolve = some value := by
  have isOrdered := order_of_orderOf ordered
  have model := model_of_evaluate terms ordered distinct evaluated
  have bounded := isOrdered.model_all model (fun witness inside => (terms witness inside).literals)
    fun _ _ _ _ => valueMeaning_bounded
  have each : ∀ name ∈ order, ∃ statement, materialize graph values name = .ok statement := by
    intro name inside
    obtain ⟨before, after, rfl⟩ := append_of_mem inside
    obtain ⟨_, found, -⟩ := isOrdered.closed before name after rfl
    obtain ⟨witness, isNamed, -⟩ := map_eq_some_iff.mp found
    obtain ⟨member, rfl⟩ := mem_of_named isNamed
    obtain ⟨value, -, known⟩ := model witness member
    refine ⟨⟨witness.name, .literal value, value.domain⟩, ?_⟩
    refine (bind_of_ok (witnessOf_eq_ok.mpr isNamed)).trans ?_
    rw [bind_of_ok (valueAt_eq_ok.mpr known)]
  obtain ⟨lets, mapped⟩ := exists_mapM_eq_ok each
  have related := mapM_forall₂ mapped
  have letNames : lets.map LetStatement.name = order :=
    (forall₂_map_eq related fun name statement made => (materialize_eq_ok made).1.symm).symm
  have typed : ∀ before statement after, lets = before ++ statement :: after →
      checkExpression (declared before) statement.value = .ok statement.annotation := by
    intro before statement after split
    obtain ⟨name, inside, made⟩ := exists_left_of_forall₂ related
      (split ▸ mem_append_right before mem_cons_self)
    obtain ⟨-, value, known, isLiteral, isDomain⟩ := materialize_eq_ok made
    rw [isLiteral, isDomain]
    exact checkExpression_literal (bounded name inside value known)
  obtain ⟨statement, isStatement, made⟩ := exists_right_of_forall₂ related isOrdered.resolve
  obtain ⟨isResolve, value, known, -, isDomain⟩ := materialize_eq_ok made
  obtain ⟨report, passed⟩ := @semanticCheck_ok ⟨lets, graph.resolve, value.domain⟩
    (letNames.symm ▸ isOrdered.nodup) typed (isResolve ▸ isDomain ▸ mem_declared isStatement)
  exact ⟨_, report, value, (bind_of_ok ordered).trans ((bind_of_ok mapped).trans
    (bind_of_ok (valueAt_eq_ok.mpr known))), passed, known⟩

theorem checkValueGraph_iff (ordered : dependencyOrderValueGraph host graph = .ok order)
    (distinct : (graph.witnesses.map Witness.name).Nodup) {value : NativeValue} :
    (∃ check, checkValueGraph host graph = .ok check ∧ check.value = value) ↔
      Resolves (valueMeaning host.merged) graph value := by
  rw [← evaluateNativeValueGraph_iff terms ordered distinct]
  unfold checkValueGraph
  rw [bind_of_ok ordered]
  constructor
  · rintro ⟨check, ran, rfl⟩
    obtain ⟨values, evaluated, ran⟩ := bind_eq_ok ran
    obtain ⟨lowered, -, ran⟩ := bind_eq_ok ran
    obtain ⟨report, -, ran⟩ := bind_eq_ok ran
    obtain ⟨value, resolved, made⟩ := bind_eq_ok ran
    cases made
    exact ⟨values, evaluated, valueAt_eq_ok.mp resolved⟩
  · rintro ⟨values, evaluated, resolved⟩
    obtain ⟨lowered, report, -, isLowered, passed, -⟩ :=
      semanticCheck_lowerNativeValueGraph terms ordered distinct evaluated
    refine ⟨⟨graph, order, values, value, lowered, report⟩, ?_, rfl⟩
    rw [bind_of_ok evaluated, bind_of_ok isLowered, bind_of_ok passed,
      bind_of_ok (valueAt_eq_ok.mpr resolved)]

end

end ValueGraphs

end Koschei.Kernel
