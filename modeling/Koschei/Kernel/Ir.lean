import Koschei.Kernel.Decisions

/-!
# Native IR

`native_ir_v1.py` and `native_decision_ir_v1.py` lower a graph to its witnesses in
order, without the syntax of the host language; a `settle` keeps its condition and the
selected candidate. Their executors evaluate the lowered witnesses one after the
other. They join texts as they are, where the evaluators of the graphs normalize what
they join: the values agree exactly where every text that is joined is normal.
-/

namespace Koschei.Kernel

open Lib Lib.DepthFirst

/-- `NativeIrWitnessV1`. -/
structure IrWitness where
  name : String
  operation : Option String
  atoms : List (Atom NativeValue)
  deriving DecidableEq

/-- `NativeIrRealityV1`. -/
structure IrReality where
  witnesses : List IrWitness
  resolve : String
  deriving DecidableEq

/-! ## Lowering -/

/-- A witness in `lower_value_graph_to_native_ir_v1`. -/
def lowerValueWitness (graph : Graph NativeValue) (name : String) : Checked IrWitness := do
  let witness ← witnessOf graph name
  .ok ⟨name, witness.term.operation, witness.term.atoms⟩

/-- `lower_value_graph_to_native_ir_v1`. -/
def lowerValueGraphToNativeIr (host : Host) (graph : Graph NativeValue) : Checked IrReality := do
  let order ← dependencyOrderValueGraph host graph
  let lowered ← order.mapM (lowerValueWitness graph)
  .ok ⟨lowered, graph.resolve⟩

/-- A witness in `lower_decision_graph_to_native_ir_v1`. -/
def lowerDecisionWitness (graph : Graph NativeValue) (values : List (String × NativeValue))
    (name : String) : Checked IrWitness := do
  let witness ← witnessOf graph name
  let atoms ← activeAtoms (fun name => values.lookup name) witness
  .ok ⟨name, witness.term.operation, atoms⟩

/-- `lower_decision_graph_to_native_ir_v1`. -/
def lowerDecisionGraphToNativeIr (host : Host) (source : String) : Checked IrReality := do
  let graph ← parseNativeDecisionGraph host source
  let values ← evaluateNativeDecisionGraph host graph
  let order ← activeOrder host graph values
  let lowered ← order.mapM (lowerDecisionWitness graph values)
  .ok ⟨lowered, graph.resolve⟩

/-! ## Execution -/

/-- `atom_value`: the message is about a witness without a value. -/
def irAtomValue (unavailable : String) (values : String → Option NativeValue) :
    Atom NativeValue → Checked NativeValue
  | .literal value => .ok value
  | .witness name =>
    match values name with
    | some value => .ok value
    | none => .error (.ir unavailable)

/-- The errors of operations in an executor. -/
def irTexts (unsupported : String → String) : OperationTexts where
  coercion := fun operation _ => .ir (operation ++ " requires whole/whole")
  overflow := fun operation _ => .ir (operation ++ " exceeds signed Int64 reality")
  crossDomain := fun _ => .ir "same requires identical native domains"
  textual := fun _ => .ir "merge requires glyphs/glyphs"
  budget := fun _ => .ir "merged glyphs exceeds native byte budget"
  unknown := fun operation _ => .ir (unsupported operation)

/-- `str(left.value) + str(right.value)`. -/
def concatenated (left right : String) : String := left ++ right

/-- The value of a witness in `execute_native_ir_v1`. -/
def nativeIrValue (host : Host) (witness : IrWitness) (values : String → Option NativeValue) :
    Checked NativeValue := do
  raiseIf (witness.atoms = []) (.ir "native IR witness has no atoms")
  let atom := irAtomValue "native IR references an unavailable witness" values
  match witness.operation with
  | none =>
    match witness.atoms with
    | [only] => atom only
    | _ => .error (.ir "native IR literal/reference witness has invalid arity")
  | some operation =>
    match witness.atoms with
    | [first, second] => do
      let left ← atom first
      let right ← atom second
      operate (irTexts fun operation => "unsupported native IR operation " ++ host.repr operation)
        concatenated 0 operation left right
    | _ => .error (.ir "native IR operation witness has invalid arity")

/-- The value of a witness in `execute_native_decision_ir_v1`. -/
def decisionIrValue (host : Host) (witness : IrWitness) (values : String → Option NativeValue) :
    Checked NativeValue :=
  let atom := irAtomValue "native decision IR references an unavailable witness" values
  match witness.operation with
  | none =>
    match witness.atoms with
    | [only] => atom only
    | _ => .error (.ir "native decision literal/reference witness has invalid arity")
  | some operation =>
    if operation = settle then
      match witness.atoms with
      | [first, second] => do
        let condition ← atom first
        let selected ← atom second
        raiseIf (condition.domain ≠ .truth) (.ir "settle condition must be truth")
        .ok selected
      | _ => .error (.ir "settle realization requires condition plus selected candidate")
    else
      match witness.atoms with
      | [first, second] => do
        let left ← atom first
        let right ← atom second
        operate (irTexts fun operation =>
          "unsupported native decision IR operation " ++ host.repr operation)
          concatenated 0 operation left right
      | _ => .error (.ir "native decision operation witness has invalid arity")

/-- The witnesses of an IR one after the other. -/
def executeWitnesses (duplicate : String)
    (valueOf : IrWitness → (String → Option NativeValue) → Checked NativeValue) :
    List IrWitness → List (String × NativeValue) → Checked (List (String × NativeValue))
  | [], values => .ok values
  | witness :: witnesses, values => do
    raiseIf (witness.name ∈ values.map fst) (.ir duplicate)
    let value ← valueOf witness fun name => values.lookup name
    executeWitnesses duplicate valueOf witnesses ((witness.name, value) :: values)

/-- The values that `execute_native_ir_v1` gives the witnesses. -/
def nativeIrValues (host : Host) (ir : IrReality) : Checked (List (String × NativeValue)) :=
  executeWitnesses "native IR contains duplicate witness identity" (nativeIrValue host) ir.witnesses []

/-- The values that `execute_native_decision_ir_v1` gives the witnesses. -/
def decisionIrValues (host : Host) (ir : IrReality) : Checked (List (String × NativeValue)) :=
  executeWitnesses "native decision IR contains duplicate witness identity" (decisionIrValue host)
    ir.witnesses []

def resolvedValue (unavailable : String) (ir : IrReality) (values : List (String × NativeValue)) :
    Checked NativeValue :=
  match values.lookup ir.resolve with
  | some value => .ok value
  | none => .error (.ir unavailable)

/-- `execute_native_ir_v1`. -/
def executeNativeIr (host : Host) (ir : IrReality) : Checked NativeValue := do
  let values ← nativeIrValues host ir
  resolvedValue "native IR resolve witness is unavailable" ir values

/-- `execute_native_decision_ir_v1`. -/
def executeNativeDecisionIr (host : Host) (ir : IrReality) : Checked NativeValue := do
  let values ← decisionIrValues host ir
  resolvedValue "native decision IR resolve witness is unavailable" ir values

/-! ## An IR as a graph -/

def IrWitness.asWitness (witness : IrWitness) : Witness NativeValue :=
  ⟨witness.name, ⟨witness.operation, witness.atoms⟩, 0⟩

def IrReality.graph (ir : IrReality) : Graph NativeValue :=
  ⟨ir.witnesses.map IrWitness.asWitness, ir.resolve, 0⟩

/-- An executor as an evaluator of graphs. -/
def viaIr (valueOf : IrWitness → (String → Option NativeValue) → Checked NativeValue)
    (witness : Witness NativeValue) (values : String → Option NativeValue) : Checked NativeValue :=
  valueOf ⟨witness.name, witness.term.operation, witness.term.atoms⟩ values

theorem IrReality.names (ir : IrReality) :
    ir.graph.witnesses.map Witness.name = ir.witnesses.map IrWitness.name := by
  unfold IrReality.graph
  rw [map_map]
  rfl

section Execution

variable {valueOf : IrWitness → (String → Option NativeValue) → Checked NativeValue}

theorem executeWitnesses_eq_ok {duplicate : String} {all : List IrWitness}
    (distinct : ((all.map IrWitness.asWitness).map Witness.name).Nodup)
    {witnesses : List IrWitness} (among : witnesses ⊆ all)
    (nodup : (witnesses.map IrWitness.name).Nodup) {values found : List (String × NativeValue)}
    (fresh : ∀ witness ∈ witnesses, witness.name ∉ values.map fst) :
    executeWitnesses duplicate valueOf witnesses values = .ok found ↔
      Equations.fill (equation (viaIr valueOf) (all.map IrWitness.asWitness))
        (witnesses.map IrWitness.name) values = .ok found := by
  induction witnesses generalizing values with
  | nil => exact Iff.rfl
  | cons witness witnesses ih =>
    have member := mem_map_of_mem (f := IrWitness.asWitness) (among mem_cons_self)
    have same : equation (viaIr valueOf) (all.map IrWitness.asWitness) witness.name
        (fun name => values.lookup name) = valueOf witness fun name => values.lookup name := by
      unfold equation
      rw [show named (all.map IrWitness.asWitness) witness.name = some witness.asWitness from
        named_of_mem distinct member]
      rfl
    rw [map_cons, nodup_cons] at nodup
    rw [executeWitnesses, bind_raiseIf (fresh witness mem_cons_self), map_cons,
      Equations.fill, same]
    cases valueOf witness fun name => values.lookup name with
    | error fault =>
      constructor
      · intro impossible
        cases impossible
      · intro impossible
        cases impossible
    | ok value =>
      refine ih (fun other inside => among (mem_cons_of_mem _ inside)) nodup.2 ?_
      intro other inside
      rw [map_cons, mem_cons, not_or]
      exact ⟨fun same => nodup.1 (mem_map.mpr ⟨other, inside, same⟩),
        fresh other (mem_cons_of_mem _ inside)⟩

theorem irValues_eq_ok {ir : IrReality} {duplicate : String} {found : List (String × NativeValue)}
    (ordered : Order ir.graph (ir.witnesses.map IrWitness.name)) :
    executeWitnesses duplicate valueOf ir.witnesses [] = .ok found ↔
      valuesIn (viaIr valueOf) ir.graph.witnesses (ir.witnesses.map IrWitness.name) = .ok found :=
  executeWitnesses_eq_ok (ir.names ▸ ordered.nodup) (Subset.refl _) ordered.nodup
    fun _ _ inside => by cases inside

theorem resolvedValue_eq_ok {unavailable : String} {ir : IrReality}
    {values : List (String × NativeValue)} {value : NativeValue} :
    resolvedValue unavailable ir values = .ok value ↔ values.lookup ir.resolve = some value := by
  unfold resolvedValue
  cases values.lookup ir.resolve with
  | none => simp
  | some other => simp

end Execution

variable {atom : Atom NativeValue}

theorem irAtomValue_eq_ok {unavailable : String} {values : String → Option NativeValue}
    {value : NativeValue} :
    irAtomValue unavailable values atom = .ok value ↔ AtomDenotes values atom value := by
  rw [← atomValue_eq_ok]
  cases atom with
  | literal other => exact Iff.rfl
  | witness name =>
    unfold irAtomValue atomValue
    dsimp only
    cases values name with
    | none => simp
    | some other => simp

theorem irAtomValue_congr {unavailable : String} {first second : String → Option NativeValue}
    (agree : ∀ name, atom = .witness name → first name = second name) :
    irAtomValue unavailable first atom = irAtomValue unavailable second atom := by
  cases atom with
  | literal value => rfl
  | witness name => simp only [irAtomValue, agree name rfl]

/-- What the operations of a lowered decision mean. -/
def activeMeaning (joined : String → String → String) : Meaning NativeValue := fun operation operands =>
  if operation = settle then
    match operands with
    | [.truth _, selected] => some selected
    | _ => none
  else valueMeaning joined operation operands

section Executors

variable {host : Host} {witnesses : List (Witness NativeValue)}

theorem atoms_agree {witness : Witness NativeValue} {unavailable : String}
    {first second : String → Option NativeValue}
    (agree : ∀ name ∈ dependencies witness, first name = second name) :
    ∀ atom ∈ witness.term.atoms,
      irAtomValue unavailable first atom = irAtomValue unavailable second atom :=
  fun _ inside => irAtomValue_congr fun name isName =>
    agree name (mem_dependencies.mpr (isName ▸ inside))

theorem nativeIr_looks : Looks (viaIr (nativeIrValue host)) := by
  intro witness first second agree
  have same := fun unavailable => @atoms_agree witness unavailable first second agree
  unfold viaIr nativeIrValue
  dsimp only
  generalize witness.term.atoms = atoms at same ⊢
  refine congrArg (raiseIf _ _ >>= ·) (funext fun _ => ?_)
  cases witness.term.operation with
  | none =>
    match atoms with
    | [] => rfl
    | [only] => exact same _ only mem_cons_self
    | _ :: _ :: _ => rfl
  | some operation =>
    match atoms with
    | [] => rfl
    | [_] => rfl
    | [left, right] =>
      dsimp only
      rw [same _ left mem_cons_self, same _ right (mem_cons_of_mem _ mem_cons_self)]
    | _ :: _ :: _ :: _ => rfl

theorem decisionIr_looks : Looks (viaIr (decisionIrValue host)) := by
  intro witness first second agree
  have same := fun unavailable => @atoms_agree witness unavailable first second agree
  unfold viaIr decisionIrValue
  dsimp only
  generalize witness.term.atoms = atoms at same ⊢
  cases witness.term.operation with
  | none =>
    match atoms with
    | [] => rfl
    | [only] => exact same _ only mem_cons_self
    | _ :: _ :: _ => rfl
  | some operation =>
    match atoms with
    | [] => rfl
    | [_] => rfl
    | [left, right] =>
      dsimp only
      rw [same _ left mem_cons_self, same _ right (mem_cons_of_mem _ mem_cons_self)]
    | _ :: _ :: _ :: _ => rfl

theorem nativeIr_follows (binary : ∀ witness ∈ witnesses, Binary witness.term) :
    Follows (viaIr (nativeIrValue host)) (valueMeaning concatenated) witnesses := by
  rintro ⟨name, term, line⟩ inside values value
  have shape := binary _ inside
  dsimp only at shape
  unfold viaIr nativeIrValue
  dsimp only
  cases shape with
  | atom atom =>
    rw [bind_raiseIf (cons_ne_nil _ _)]
    exact irAtomValue_eq_ok.trans denotes_atom.symm
  | operation operation left right =>
    rw [bind_raiseIf (cons_ne_nil _ _)]
    refine Iff.trans ?_ denotes_operation.symm
    simp only [bind_eq_ok_iff, irAtomValue_eq_ok, operate_eq_ok, exists_and_left]

theorem decisionIr_follows (binary : ∀ witness ∈ witnesses, Binary witness.term) :
    Follows (viaIr (decisionIrValue host)) (activeMeaning concatenated) witnesses := by
  rintro ⟨name, term, line⟩ inside values value
  have shape := binary _ inside
  dsimp only at shape
  unfold viaIr decisionIrValue
  dsimp only
  cases shape with
  | atom atom => exact irAtomValue_eq_ok.trans denotes_atom.symm
  | operation operation left right =>
    refine Iff.trans ?_ denotes_operation.symm
    unfold activeMeaning
    by_cases settles : operation = settle
    · simp only [if_pos settles]
      constructor
      · intro ran
        obtain ⟨first, one, ran⟩ := bind_eq_ok ran
        obtain ⟨second, other, ran⟩ := bind_eq_ok ran
        obtain ⟨_, isTruth, made⟩ := bind_eq_ok ran
        cases made
        refine ⟨first, value, irAtomValue_eq_ok.mp one, irAtomValue_eq_ok.mp other, ?_⟩
        have domain := not_not.mp (raiseIf_eq_ok isTruth)
        cases first with
        | truth chosen => rfl
        | whole number => cases domain
        | glyphs text => cases domain
      · rintro ⟨first, second, one, other, result⟩
        refine (bind_of_ok (irAtomValue_eq_ok.mpr one)).trans
          ((bind_of_ok (irAtomValue_eq_ok.mpr other)).trans ?_)
        cases first with
        | truth chosen =>
          cases result
          exact bind_raiseIf (not_not.mpr rfl)
        | whole number => cases result
        | glyphs text => cases result
    · simp only [if_neg settles]
      simp only [bind_eq_ok_iff, irAtomValue_eq_ok, operate_eq_ok, exists_and_left]

end Executors

/-! ## Texts that are joined -/

/-- If a term is a `merge`, it joins texts to a text that is normal. -/
def JoinsNormally (host : Host) (values : String → Option NativeValue) (term : Term NativeValue) : Prop :=
  ∀ first second left right, term = ⟨some "merge", [first, second]⟩ →
    AtomDenotes values first (.glyphs left) → AtomDenotes values second (.glyphs right) →
      host.normalize (left ++ right) = left ++ right

/-- A meaning of operations in which only a `merge` joins texts. -/
structure Joins (meaning : (String → String → String) → Meaning NativeValue) : Prop where
  others : ∀ {operation : String}, operation ≠ "merge" → ∀ first second : String → String → String,
    meaning first operation = meaning second operation
  merge : ∀ joined, meaning joined "merge" = valueMeaning joined "merge"

theorem valueMeaning_joins : Joins valueMeaning where
  others := by
    intro operation differs first second
    funext operands
    unfold valueMeaning
    simp only [if_neg differs]
  merge joined := rfl

theorem activeMeaning_joins : Joins activeMeaning where
  others := by
    intro operation differs first second
    funext operands
    unfold activeMeaning
    rw [valueMeaning_joins.others differs first second]
  merge joined := by
    funext operands
    exact if_neg (by decide)

theorem valueMeaning_merge {joined : String → String → String} {left right value : NativeValue} :
    valueMeaning joined "merge" [left, right] = some value ↔
      ∃ first second, left = .glyphs first ∧ right = .glyphs second ∧
        byteLength (joined first second) ≤ maxGlyphsResultBytes ∧ value = .glyphs (joined first second) := by
  constructor
  · intro result
    cases left with
    | whole _ | truth _ => cases right <;> cases (show none = some value from result)
    | glyphs first =>
      cases right with
      | whole _ | truth _ => cases (show none = some value from result)
      | glyphs second =>
        have result : (if byteLength (joined first second) ≤ maxGlyphsResultBytes then
            some (NativeValue.glyphs (joined first second)) else none) = some value := result
        split at result
        · rename_i short
          cases result
          exact ⟨first, second, rfl, rfl, short, rfl⟩
        · cases result
  · rintro ⟨first, second, rfl, rfl, short, rfl⟩
    exact if_pos short

theorem atomDenotes_unique {values : String → Option NativeValue}
    {first second : NativeValue} (one : AtomDenotes values atom first)
    (other : AtomDenotes values atom second) : first = second :=
  ok.inj ((atomValue_eq_ok.mpr one).symm.trans (atomValue_eq_ok.mpr other))

/-- **Values under which texts are normalized are values under which they are not** exactly when the
texts that are joined are normal. -/
theorem model_concatenated_iff {host : Host} {graph : Graph NativeValue}
    {values : String → Option NativeValue} {meaning : (String → String → String) → Meaning NativeValue}
    (joins : Joins meaning) (binary : ∀ witness ∈ graph.witnesses, Binary witness.term)
    (model : Model (meaning host.merged) graph values) :
    Model (meaning concatenated) graph values ↔
      ∀ witness ∈ graph.witnesses, JoinsNormally host values witness.term := by
  constructor
  · intro plain witness inside first second left right isMerge one other
    obtain ⟨value, denotes, known⟩ := model witness inside
    obtain ⟨value', denotes', known'⟩ := plain witness inside
    cases some.inj (known.symm.trans known')
    rw [isMerge, denotes_operation, joins.merge] at denotes denotes'
    obtain ⟨_, _, isLeft, isRight, result⟩ := denotes
    cases atomDenotes_unique one isLeft
    cases atomDenotes_unique other isRight
    obtain ⟨_, _, isLeft', isRight', result'⟩ := denotes'
    cases atomDenotes_unique one isLeft'
    cases atomDenotes_unique other isRight'
    obtain ⟨_, _, same, same', -, isValue⟩ := valueMeaning_merge.mp result
    cases same
    cases same'
    obtain ⟨_, _, same, same', -, isValue'⟩ := valueMeaning_merge.mp result'
    cases same
    cases same'
    exact NativeValue.glyphs.inj (isValue.symm.trans isValue')
  · intro normal witness inside
    obtain ⟨value, denotes, known⟩ := model witness inside
    refine ⟨value, ?_, known⟩
    have here := normal witness inside
    obtain ⟨name, term, line⟩ := witness
    have shape := binary _ inside
    dsimp only at shape denotes here ⊢
    cases shape with
    | atom atom => exact denotes_atom.mpr (denotes_atom.mp denotes)
    | operation operation left right =>
      rw [denotes_operation] at denotes ⊢
      obtain ⟨first, second, one, other, result⟩ := denotes
      refine ⟨first, second, one, other, ?_⟩
      by_cases isMerge : operation = "merge"
      · subst isMerge
        rw [joins.merge] at result ⊢
        obtain ⟨leftText, rightText, rfl, rfl, short, rfl⟩ := valueMeaning_merge.mp result
        have same : host.merged leftText rightText = concatenated leftText rightText :=
          here left right leftText rightText rfl one other
        rw [same] at short ⊢
        exact valueMeaning_merge.mpr ⟨_, _, rfl, rfl, short, rfl⟩
      · rw [joins.others isMerge concatenated host.merged]
        exact result

/-! ## Lowered graphs -/

/-- A lowered witness has the operation and some atoms of the witness of its name. -/
structure Keeps (graph : Graph NativeValue) (name : String) (lowered : IrWitness) : Prop where
  same : lowered.name = name
  source : ∃ witness, named graph.witnesses name = some witness ∧
    lowered.operation = witness.term.operation ∧ lowered.atoms.Sublist witness.term.atoms

theorem mem_witnessNames {V : Type} {atoms : List (Atom V)} {name : String} :
    name ∈ witnessNames atoms ↔ Atom.witness name ∈ atoms :=
  @mem_dependencies _ name ⟨name, ⟨none, atoms⟩, 0⟩

section Lowered

variable {graph : Graph NativeValue} {order active : List String} {lowered : List IrWitness}

theorem names_of_keeps (each : Forall₂ (Keeps graph) active lowered) :
    lowered.map IrWitness.name = active :=
  (forall₂_map_eq each fun _ _ keeps => keeps.same.symm).symm

/-- The lowered witnesses are in an order of their own when they keep that of the graph. -/
theorem order_of_keeps (ordered : Order graph order)
    (sublist : active.Sublist order) (each : Forall₂ (Keeps graph) active lowered)
    (resolve : graph.resolve ∈ active)
    (needed : ∀ witness ∈ lowered, ∀ name ∈ witnessNames witness.atoms, name ∈ active) :
    Order (IrReality.graph ⟨lowered, graph.resolve⟩) active := by
  have names : (lowered.map IrWitness.asWitness).map Witness.name = active :=
    (IrReality.names ⟨lowered, graph.resolve⟩).trans (names_of_keeps each)
  have nodup : active.Nodup := ordered.nodup.sublist sublist
  refine ⟨?_, nodup, resolve, fun witness inside => names ▸ mem_map_of_mem inside⟩
  refine @closed_of_rank _ _ order.idxOf _ ((pairwise_idxOf ordered.nodup).sublist sublist) ?_
  intro name inside
  obtain ⟨witness, member, keeps⟩ := exists_right_of_forall₂ each inside
  obtain ⟨isName, source, found, -, atoms⟩ := keeps
  obtain ⟨dependencies', known, before⟩ := ordered.closed.before (sublist.subset inside)
  unfold dependenciesOf at known
  rw [found] at known
  cases known
  refine ⟨witnessNames witness.atoms, ?_, fun dependency among => ⟨needed witness member _ among, ?_⟩⟩
  · unfold dependenciesOf
    have distinct : ((lowered.map IrWitness.asWitness).map Witness.name).Nodup := names.symm ▸ nodup
    have here := named_of_mem distinct (mem_map_of_mem member)
    rw [← isName]
    exact congrArg (Option.map dependencies) here
  · refine (before dependency (mem_dependencies.mpr ?_)).2
    exact atoms.subset (mem_witnessNames.mp among)

end Lowered

section ValueGraphs

variable {host : Host} {graph : Graph NativeValue} {order : List String}

theorem lowerValueWitness_keeps {name : String} {lowered : IrWitness}
    (made : lowerValueWitness graph name = .ok lowered) :
    Keeps graph name lowered ∧ ∃ witness, named graph.witnesses name = some witness ∧
      lowered = ⟨name, witness.term.operation, witness.term.atoms⟩ := by
  obtain ⟨witness, found, made⟩ := bind_eq_ok made
  cases made
  have isNamed := witnessOf_eq_ok.mp found
  exact ⟨⟨rfl, witness, isNamed, rfl, List.Sublist.refl _⟩, witness, isNamed, rfl⟩

theorem exists_lowerValueGraph (ordered : dependencyOrderValueGraph host graph = .ok order)
    (distinct : (graph.witnesses.map Witness.name).Nodup) :
    ∃ ir, lowerValueGraphToNativeIr host graph = .ok ir ∧ ir.resolve = graph.resolve ∧
      ir.witnesses.map IrWitness.name = order ∧ Order ir.graph order ∧
      ∀ entry, entry ∈ ir.graph.witnesses.map Witness.entry ↔
        entry ∈ graph.witnesses.map Witness.entry := by
  have isOrder := order_of_orderOf ordered
  have known : ∀ name ∈ order, ∃ witness, named graph.witnesses name = some witness := by
    intro name inside
    obtain ⟨witness, member, rfl⟩ := isOrder.name_mem inside
    exact ⟨witness, named_of_mem distinct member⟩
  obtain ⟨lowered, mapped⟩ := exists_mapM_eq_ok (f := lowerValueWitness graph) fun name inside => by
    obtain ⟨witness, found⟩ := known name inside
    exact ⟨_, bind_of_ok (witnessOf_eq_ok.mpr found)⟩
  have each := mapM_forall₂ mapped
  have keeps : Forall₂ (Keeps graph) order lowered :=
    each.imp fun name witness made => (lowerValueWitness_keeps made).1
  refine ⟨⟨lowered, graph.resolve⟩, (bind_of_ok ordered).trans (bind_of_ok mapped), rfl,
    names_of_keeps keeps, ?_, fun entry => ?_⟩
  · refine order_of_keeps isOrder (List.Sublist.refl _) keeps isOrder.resolve ?_
    intro witness inside name among
    obtain ⟨itsName, -, made⟩ := exists_left_of_forall₂ each inside
    obtain ⟨-, source, found, rfl⟩ := lowerValueWitness_keeps made
    exact isOrder.dependencies_mem distinct (mem_of_named found).1 among
  · constructor
    · intro inside
      obtain ⟨witness, isWitness, rfl⟩ := mem_map.mp inside
      obtain ⟨irWitness, member, rfl⟩ := mem_map.mp isWitness
      obtain ⟨itsName, -, made⟩ := exists_left_of_forall₂ each member
      obtain ⟨-, source, found, rfl⟩ := lowerValueWitness_keeps made
      obtain ⟨isSource, same⟩ := mem_of_named found
      exact mem_map.mpr ⟨source, isSource, by rw [← same]; rfl⟩
    · intro inside
      obtain ⟨witness, member, rfl⟩ := mem_map.mp inside
      obtain ⟨irWitness, isWitness, made⟩ :=
        exists_right_of_forall₂ each (isOrder.all witness member)
      obtain ⟨-, source, found, rfl⟩ := lowerValueWitness_keeps made
      rw [named_of_mem distinct member] at found
      cases found
      exact mem_map.mpr ⟨_, mem_map_of_mem isWitness, rfl⟩

theorem forall_entries {first second : List (Witness NativeValue)}
    (same : ∀ entry, entry ∈ first.map Witness.entry ↔ entry ∈ second.map Witness.entry)
    {holds : String → Term NativeValue → Prop} :
    (∀ witness ∈ first, holds witness.name witness.term) ↔
      ∀ witness ∈ second, holds witness.name witness.term := by
  have through : ∀ witnesses : List (Witness NativeValue),
      (∀ witness ∈ witnesses, holds witness.name witness.term) ↔
        ∀ entry ∈ witnesses.map Witness.entry, holds entry.1 entry.2 := by
    intro witnesses
    rw [List.forall_mem_map]
    rfl
  rw [through, through]
  exact forall_congr' fun entry => imp_congr_left (same entry)

/-- **A lowered value graph executes to the values of the graph** when its merges join texts
normally, and gives every witness its value only then. -/
theorem valueIr_agrees (ordered : dependencyOrderValueGraph host graph = .ok order)
    (distinct : (graph.witnesses.map Witness.name).Nodup)
    (terms : ∀ witness ∈ graph.witnesses, ValueTerm witness.term)
    {values : List (String × NativeValue)} (evaluated : evaluateNativeValueGraph host graph = .ok values) :
    ∃ ir value, lowerValueGraphToNativeIr host graph = .ok ir ∧
      values.lookup graph.resolve = some value ∧
      ((∃ found, nativeIrValues host ir = .ok found ∧ ∀ witness ∈ graph.witnesses,
          found.lookup witness.name = values.lookup witness.name) ↔
        ∀ witness ∈ graph.witnesses,
          JoinsNormally host (fun name => values.lookup name) witness.term) ∧
      ((∀ witness ∈ graph.witnesses,
          JoinsNormally host (fun name => values.lookup name) witness.term) →
        executeNativeIr host ir = .ok value) := by
  have model := model_of_evaluate terms ordered distinct evaluated
  obtain ⟨ir, lowered, isResolve, names, isOrder, entries⟩ := exists_lowerValueGraph ordered distinct
  obtain ⟨resolve, isWitness, isName⟩ := (order_of_orderOf ordered).resolve_named
  obtain ⟨value, -, known⟩ := model resolve isWitness
  rw [isName] at known
  have models : ∀ meaning values, Model meaning ir.graph values ↔ Model meaning graph values :=
    fun meaning values => @forall_entries _ _ entries fun name term =>
      ∃ value, Denotes meaning values term value ∧ values name = some value
  have binary : ∀ witness ∈ ir.graph.witnesses, Binary witness.term :=
    (@forall_entries _ _ entries fun _ term => Binary term).mpr
      fun witness inside => (terms witness inside).binary
  have distinct' : (ir.graph.witnesses.map Witness.name).Nodup := by
    rw [ir.names, names]
    exact isOrder.nodup
  have joins := model_concatenated_iff valueMeaning_joins
    (fun witness inside => (terms witness inside).binary) model
  have follows : Follows (viaIr (nativeIrValue host)) (valueMeaning concatenated) ir.graph.witnesses :=
    nativeIr_follows binary
  have executes := fun found => @irValues_eq_ok (nativeIrValue host) ir
    "native IR contains duplicate witness identity" found (names.symm ▸ isOrder)
  have exactly := @Order.values_iff _ _ _ _ _ isOrder distinct' nativeIr_looks follows
    fun name => values.lookup name
  have agrees : (∃ found, nativeIrValues host ir = .ok found ∧ ∀ witness ∈ graph.witnesses,
      found.lookup witness.name = values.lookup witness.name) ↔ ∀ witness ∈ graph.witnesses,
          JoinsNormally host (fun name => values.lookup name) witness.term := by
    rw [← joins, ← models, ← exactly]
    refine exists_congr fun found => and_congr ?_ ?_
    · rw [← names]
      exact executes found
    · exact (@forall_entries _ _ entries fun name _ => found.lookup name = values.lookup name).symm
  refine ⟨ir, value, lowered, known, agrees, fun normal => ?_⟩
  obtain ⟨found, ran, same⟩ := agrees.mpr normal
  refine (bind_of_ok ran).trans (resolvedValue_eq_ok.mpr ?_)
  rw [isResolve, ← isName, same resolve isWitness, isName]
  exact known

end ValueGraphs

section DecisionGraphs

variable {host : Host} {graph : Graph NativeValue} {order : List String}
  {values : List (String × NativeValue)}

theorem lowerDecisionWitness_eq_ok {name : String} {lowered : IrWitness} :
    lowerDecisionWitness graph values name = .ok lowered ↔
      ∃ witness atoms, named graph.witnesses name = some witness ∧
        activeAtoms (fun name => values.lookup name) witness = .ok atoms ∧
        lowered = ⟨name, witness.term.operation, atoms⟩ := by
  simp only [lowerDecisionWitness, bind_eq_ok_iff, witnessOf_eq_ok, exists_and_left,
    ok.injEq, @eq_comm _ lowered]

theorem denotes_active {joined : String → String → String} {look : String → Option NativeValue}
    {witness : Witness NativeValue} (shaped : DecisionTerm witness.term) {atoms : List (Atom NativeValue)}
    (active : activeAtoms look witness = .ok atoms) {value : NativeValue}
    (denotes : Denotes (decisionMeaning joined) look witness.term value) :
    Binary (⟨witness.term.operation, atoms⟩ : Term NativeValue) ∧
      Denotes (activeMeaning joined) look ⟨witness.term.operation, atoms⟩ value := by
  obtain ⟨name, term, line⟩ := witness
  have shape := shaped.shape
  unfold activeAtoms at active
  dsimp only at shape active denotes ⊢
  cases shape with
  | atom atom =>
    rw [if_neg (Option.some_ne_none settle).symm] at active
    cases active
    exact ⟨.atom atom, denotes_atom.mpr (denotes_atom.mp denotes)⟩
  | operation differs left right =>
    rw [if_neg fun same => differs (some.inj same)] at active
    cases active
    refine ⟨.operation _ left right, ?_⟩
    rw [denotes_operation] at denotes ⊢
    unfold decisionMeaning at denotes
    unfold activeMeaning
    simp only [if_neg differs] at denotes ⊢
    exact denotes
  | settle condition affirmative negative =>
    rw [if_pos rfl] at active
    obtain ⟨chosen, isChosen, made⟩ := bind_eq_ok active
    obtain ⟨first, second, third, one, two, three, result⟩ := denotes_settle.mp denotes
    cases atomDenotes_unique (atomValue_eq_ok.mp isChosen) one
    cases made
    refine ⟨.operation _ condition _, denotes_operation.mpr ?_⟩
    have settles : settleMeaning [chosen, second, third] = some value := result
    unfold settleMeaning at settles
    split at settles
    · rename_i chosen affirmative' negative' operands
      cases operands
      split at settles
      · cases settles
        cases chosen with
        | true => exact ⟨_, _, one, two, rfl⟩
        | false => exact ⟨_, _, one, three, rfl⟩
      · cases settles
    · cases settles

theorem exists_lowerDecisionGraph {source : String}
    (parsed : parseNativeDecisionGraph host source = .ok graph)
    (evaluated : evaluateNativeDecisionGraph host graph = .ok values)
    (ordered : dependencyOrderValueGraph host graph = .ok order)
    (distinct : (graph.witnesses.map Witness.name).Nodup)
    (terms : ∀ witness ∈ graph.witnesses, DecisionTerm witness.term)
    (model : Model (decisionMeaning host.merged) graph fun name => values.lookup name) :
    ∃ ir active, lowerDecisionGraphToNativeIr host source = .ok ir ∧ ir.resolve = graph.resolve ∧
      ir.witnesses.map IrWitness.name = active ∧ active.Sublist order ∧ Order ir.graph active ∧
      (∀ name, name ∈ active ↔ Runs graph (fun name => values.lookup name) name) ∧
      Forall₂ (fun name lowered => lowerDecisionWitness graph values name = .ok lowered) active
        ir.witnesses := by
  have isOrder := order_of_orderOf ordered
  obtain ⟨active, isActive, sublist, runs⟩ := activeOrder_eq_ok ordered distinct terms model
  obtain ⟨lowered, mapped⟩ :=
    @exists_mapM_eq_ok _ _ _ (lowerDecisionWitness graph values) active fun name inside => by
      obtain ⟨witness, member, rfl⟩ := isOrder.name_mem (sublist.subset inside)
      obtain ⟨value, denotes, -⟩ := model witness member
      obtain ⟨atoms, isAtoms, -⟩ := exists_activeAtoms (terms witness member) denotes
      exact ⟨_, lowerDecisionWitness_eq_ok.mpr
        ⟨witness, atoms, named_of_mem distinct member, isAtoms, rfl⟩⟩
  have each := mapM_forall₂ mapped
  have keeps : Forall₂ (Keeps graph) active lowered := each.imp fun name lowered made => by
    obtain ⟨witness, atoms, found, isAtoms, rfl⟩ := lowerDecisionWitness_eq_ok.mp made
    obtain ⟨member, -⟩ := mem_of_named found
    obtain ⟨value, denotes, -⟩ := model witness member
    obtain ⟨_, isAtoms', kept⟩ := exists_activeAtoms (terms witness member) denotes
    cases isAtoms.symm.trans isAtoms'
    exact ⟨rfl, witness, found, rfl, kept⟩
  refine ⟨⟨lowered, graph.resolve⟩, active, (bind_of_ok parsed).trans ((bind_of_ok evaluated).trans
    ((bind_of_ok isActive).trans (bind_of_ok mapped))), rfl, names_of_keeps keeps, sublist, ?_, runs, each⟩
  refine order_of_keeps isOrder sublist keeps ((runs _).mpr .refl) ?_
  intro witness inside name among
  obtain ⟨itsName, isListed, made⟩ := exists_left_of_forall₂ each inside
  obtain ⟨source', atoms, found, isAtoms, rfl⟩ := lowerDecisionWitness_eq_ok.mp made
  refine (runs name).mpr (.tail ((runs itsName).mp isListed) ⟨witnessNames atoms, ?_, among⟩)
  exact (bind_of_ok (witnessOf_eq_ok.mpr found)).trans (bind_of_ok isAtoms)

/-- **A lowered decision executes to the resolved value** when the merges that run join texts
normally, and gives every witness that runs its value only then. -/
theorem decisionIr_agrees {source : String}
    (parsed : parseNativeDecisionGraph host source = .ok graph)
    (evaluated : evaluateNativeDecisionGraph host graph = .ok values) :
    ∃ ir value order, lowerDecisionGraphToNativeIr host source = .ok ir ∧
      values.lookup graph.resolve = some value ∧
      dependencyOrderValueGraph host graph = .ok order ∧
      (ir.witnesses.map IrWitness.name).Sublist order ∧
      Closed (dependenciesOf ir.graph.witnesses) (ir.witnesses.map IrWitness.name) ∧
      (∀ name, name ∈ ir.witnesses.map IrWitness.name ↔
        Runs graph (fun name => values.lookup name) name) ∧
      ((∃ found, decisionIrValues host ir = .ok found ∧ ∀ witness ∈ ir.witnesses,
          found.lookup witness.name = values.lookup witness.name) ↔
        ∀ witness ∈ graph.witnesses, Runs graph (fun name => values.lookup name) witness.name →
          JoinsNormally host (fun name => values.lookup name) witness.term) ∧
      ((∀ witness ∈ graph.witnesses, Runs graph (fun name => values.lookup name) witness.name →
          JoinsNormally host (fun name => values.lookup name) witness.term) →
        executeNativeDecisionIr host ir = .ok value) := by
  obtain ⟨distinct, ⟨order, ordered⟩, terms⟩ := order_of_parseNativeDecisionGraph parsed
  have model := model_of_evaluateDecision ordered distinct terms evaluated
  obtain ⟨ir, active, lowered, isResolve, names, sublist, isOrder, runs, each⟩ :=
    exists_lowerDecisionGraph parsed evaluated ordered distinct terms model
  obtain ⟨resolve, isWitness, isName⟩ := (order_of_orderOf ordered).resolve_named
  obtain ⟨value, -, known⟩ := model resolve isWitness
  rw [isName] at known
  have distinct' : (ir.graph.witnesses.map Witness.name).Nodup := by
    rw [ir.names, names]
    exact isOrder.nodup
  -- Each lowered witness comes from one that runs, and each that runs is lowered.
  have from' : ∀ witness ∈ ir.witnesses, ∃ source ∈ graph.witnesses, source.name = witness.name ∧
      source.name ∈ active ∧ ∃ atoms, activeAtoms (fun name => values.lookup name) source = .ok atoms ∧
        witness = ⟨source.name, source.term.operation, atoms⟩ := by
    intro witness inside
    obtain ⟨name, isListed, made⟩ := exists_left_of_forall₂ each inside
    obtain ⟨source, atoms, found, isAtoms, rfl⟩ := lowerDecisionWitness_eq_ok.mp made
    obtain ⟨member, rfl⟩ := mem_of_named found
    exact ⟨source, member, rfl, isListed, atoms, isAtoms, rfl⟩
  have into : ∀ source ∈ graph.witnesses, source.name ∈ active → ∃ atoms,
      activeAtoms (fun name => values.lookup name) source = .ok atoms ∧
        (⟨source.name, source.term.operation, atoms⟩ : IrWitness) ∈ ir.witnesses := by
    intro source member isListed
    obtain ⟨witness, inside, made⟩ := exists_right_of_forall₂ each isListed
    obtain ⟨other, atoms, found, isAtoms, rfl⟩ := lowerDecisionWitness_eq_ok.mp made
    rw [named_of_mem distinct member] at found
    cases found
    exact ⟨atoms, isAtoms, inside⟩
  have shapes : ∀ witness ∈ ir.graph.witnesses, Binary witness.term ∧ ∃ value,
      Denotes (activeMeaning host.merged) (fun name => values.lookup name) witness.term value ∧
        values.lookup witness.name = some value := by
    intro witness inside
    obtain ⟨irWitness, isIr, rfl⟩ := mem_map.mp inside
    obtain ⟨source, member, -, -, atoms, isAtoms, rfl⟩ := from' irWitness isIr
    obtain ⟨value, denotes, isValue⟩ := model source member
    obtain ⟨binary, denotes'⟩ := denotes_active (terms source member) isAtoms denotes
    exact ⟨binary, value, denotes', isValue⟩
  have binary : ∀ witness ∈ ir.graph.witnesses, Binary witness.term := fun witness inside =>
    (shapes witness inside).1
  have active' : Model (activeMeaning host.merged) ir.graph fun name => values.lookup name :=
    fun witness inside => (shapes witness inside).2
  have merges : (∀ witness ∈ ir.graph.witnesses,
      JoinsNormally host (fun name => values.lookup name) witness.term) ↔
        ∀ witness ∈ graph.witnesses, Runs graph (fun name => values.lookup name) witness.name →
          JoinsNormally host (fun name => values.lookup name) witness.term := by
    constructor
    · intro all witness member isRunning first second left right isMerge one other
      obtain ⟨atoms, isAtoms, inside⟩ := into witness member ((runs _).mpr isRunning)
      refine all _ (mem_map_of_mem inside) first second left right ?_ one other
      unfold activeAtoms at isAtoms
      rw [isMerge] at isAtoms
      dsimp only at isAtoms
      rw [if_neg (by decide)] at isAtoms
      cases isAtoms
      unfold IrWitness.asWitness
      rw [isMerge]
    · intro all witness inside first second left right isMerge one other
      obtain ⟨irWitness, isIr, rfl⟩ := mem_map.mp inside
      obtain ⟨source, member, -, isListed, atoms, isAtoms, rfl⟩ := from' irWitness isIr
      refine all source member ((runs _).mp isListed) first second left right ?_ one other
      obtain ⟨isOperation, same⟩ : source.term.operation = some "merge" ∧ atoms = [first, second] :=
        Term.mk.inj isMerge
      unfold activeAtoms at isAtoms
      rw [isOperation, if_neg (by decide), same] at isAtoms
      rw [← ok.inj isAtoms, ← isOperation]
  have agrees : (∃ found, decisionIrValues host ir = .ok found ∧ ∀ witness ∈ ir.witnesses,
      found.lookup witness.name = values.lookup witness.name) ↔
        ∀ witness ∈ graph.witnesses, Runs graph (fun name => values.lookup name) witness.name →
          JoinsNormally host (fun name => values.lookup name) witness.term := by
    rw [← merges, ← model_concatenated_iff activeMeaning_joins binary active',
      ← isOrder.values_iff distinct' decisionIr_looks (decisionIr_follows binary)]
    refine exists_congr fun found => and_congr ?_ ?_
    · rw [← names]
      exact irValues_eq_ok (names.symm ▸ isOrder)
    · exact (List.forall_mem_map (f := IrWitness.asWitness) (P := fun witness : Witness NativeValue =>
        found.lookup witness.name = values.lookup witness.name)).symm
  refine ⟨ir, value, order, lowered, known, ordered, names ▸ sublist, names ▸ isOrder.closed,
    fun name => names ▸ runs name, agrees, fun normal => ?_⟩
  obtain ⟨found, ran, same⟩ := agrees.mpr normal
  refine (bind_of_ok ran).trans (resolvedValue_eq_ok.mpr ?_)
  have listed : resolve.name ∈ active := isName ▸ (runs _).mpr .refl
  obtain ⟨atoms, -, inside⟩ := into resolve isWitness listed
  rw [isResolve, ← isName, same _ inside, isName]
  exact known

end DecisionGraphs

end Koschei.Kernel
