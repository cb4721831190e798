import Koschei.Kernel.Programs
import Koschei.Lib.Worklist

/-!
# Native decision realities

`native_decision_realities_v1.py` with `native_decision_reservation_v1.py` installed:
value graphs with a third operation shape, `settle`, which has a condition and two
candidates. Both candidates are evaluated when a graph is admitted; what runs has the
condition and the selected one only. The witnesses that run are those a walk from the
resolved witness visits.
-/

namespace Koschei.Kernel

open Lib Lib.DepthFirst

/-- `SETTLE`. -/
def settle : String := "settle"

/-- `BORROWED_KEYWORD_BLOCKLIST_V1`. -/
def borrowedKeywords : List String := legacyDebtWords ++
    ["abstract", "alias", "as", "assert", "async", "await", "case", "catch", "chan", "class", "const",
      "contract", "crate", "def", "default", "defer", "delete", "do", "dyn", "event", "except", "export",
      "extends", "external", "finally", "from", "function", "go", "goto", "impl", "implements", "include",
      "interface", "internal", "lambda", "loop", "macro", "mapping", "memory", "mod", "modifier", "module",
      "namespace", "new", "package", "pass", "payable", "private", "protected", "pub", "public", "raise",
      "range", "ref", "require", "select", "self", "static", "storage", "super", "switch", "this", "throw",
      "trait", "try", "type", "typeof", "union", "unsafe", "use", "using", "var", "view", "virtual",
      "volatile", "where", "with", "yield"]

/-- `_fail`. -/
def decisionFault (code message : String) (line column : Nat) : Fault :=
  .decision ⟨code, message, line, column⟩

/-- `except NativeValueDomainError as error: raise NativeDecisionRealityError(...)`. -/
def asDecision {α : Type} : Checked α → Checked α
  | .error (.value report) => .error (.decision report)
  | .error fault => .error fault
  | .ok value => .ok value

/-- `_decision_name`, as `_reserved_decision_name` leaves it. -/
def decisionName (host : Host) (token : String) (line : Nat) : Checked String := do
  raiseIf (token ∈ borrowedKeywords) (decisionFault "KD1004"
    (host.repr token ++ " is reserved borrowed vocabulary and cannot be a decision witness identity") line 1)
  raiseIf (token = settle)
    (decisionFault "KD1004" (host.repr token ++ " is reserved and cannot be a witness identity") line 1)
  asDecision (valueName host token line)

/-- `_decision_term`. -/
def decisionTerm (host : Host) (tokens : List String) (line : Nat) : Checked (Term NativeValue) :=
  if tokens.head? = some settle then
    match tokens.tail with
    | [condition, affirmative, negative] => do
      let condition ← plainAtom host condition line
      let affirmative ← plainAtom host affirmative line
      let negative ← plainAtom host negative line
      .ok ⟨some settle, [condition, affirmative, negative]⟩
    | _ => .error (decisionFault "KD1005"
        "settle requires exactly: settle <truth-witness> <affirmative> <negative>" line 1)
  else asDecision (valueTerm host tokens line)

/-- The clauses of `parse_native_decision_graph`. -/
def decisionGrammar (host : Host) : Grammar NativeValue where
  fault := .decision
  symbols := legacySymbols
  checkedPart := grammarPrefix
  symbolCode := "KD1006"
  symbolMessage := fun symbol =>
    "legacy punctuation " ++ host.repr symbol ++ " is not native decision grammar"
  symbolColumn := fun _ _ => 1
  name := decisionName host
  term := decisionTerm host
  clauseCode := "KD1005"
  needsTerm := "witness requires identity and term"
  duplicateCode := "KD1101"
  duplicate := fun name => "duplicate witness identity " ++ host.repr name
  tooManyCode := "KD1102"
  tooMany := "decision graph exceeds 4096 witnesses"
  resolveCode := "KD1103"
  oneResolve := "decision graph must contain exactly one resolve"
  emptyCode := "KD1104"
  noWitness := "decision graph must contain at least one witness"
  legacyWords := legacyWords
  legacyWord := fun head => "legacy grammar word " ++ host.repr head ++ " is rejected"
  unknownClause := fun head => "unknown native decision clause " ++ host.repr head

/-- `parse_native_decision_graph`. -/
def parseNativeDecisionGraph (host : Host) (source : String) : Checked (Graph NativeValue) := do
  let lines ← asDecision (canonicalLines host source)
  (decisionGrammar host).parse (fun graph => asDecision (dependencyOrderValueGraph host graph)) lines

/-! ## Evaluation -/

/-- What `evaluate_native_decision_graph` says about operations. -/
def decisionTexts (host : Host) : OperationTexts where
  coercion := fun operation line =>
    decisionFault "KD1403" (operation ++ " requires whole/whole and forbids coercion") line 1
  overflow := fun operation line =>
    decisionFault "KD1404" (operation ++ " exceeds signed Int64 reality") line 1
  crossDomain := fun line =>
    decisionFault "KD1405" "same requires identical value domains and forbids coercion" line 1
  textual := fun line =>
    decisionFault "KD1406" "merge requires glyphs/glyphs and forbids textual coercion" line 1
  budget := fun line => decisionFault "KD1407" "merged glyphs exceeds result byte budget" line 1
  unknown := fun operation line =>
    decisionFault "KD1005" ("unknown decision operation " ++ host.repr operation) line 1

/-- `bool(value.value)`. -/
def NativeValue.holds : NativeValue → Bool
  | .whole value => value != 0
  | .truth value => value
  | .glyphs text => text != ""

/-- The value of a `settle`. -/
def settleValue (line : Nat) (condition affirmative negative : NativeValue) : Checked NativeValue := do
  raiseIf (condition.domain ≠ .truth) (decisionFault "KD1401"
    "settle condition must be truth and cannot coerce another domain" line 1)
  raiseIf (affirmative.domain ≠ negative.domain)
    (decisionFault "KD1402" "settle candidates must have identical value domains" line 1)
  .ok (if condition.holds then affirmative else negative)

/-- The value of a witness in `evaluate_native_decision_graph`. -/
def decisionValue (host : Host) (witness : Witness NativeValue) (values : String → Option NativeValue) :
    Checked NativeValue :=
  match witness.term.operation, witness.term.atoms with
  | none, atom :: _ => atomValue values atom
  | some operation, first :: second :: others => do
    let left ← atomValue values first
    let right ← atomValue values second
    if operation = settle then
      match others with
      | third :: _ => do
        let negative ← atomValue values third
        settleValue witness.line left right negative
      | [] => .error .index
    else operate (decisionTexts host) host.merged witness.line operation left right
  | _, _ => .error .index

/-- `evaluate_native_decision_graph`. -/
def evaluateNativeDecisionGraph (host : Host) (graph : Graph NativeValue) :
    Checked (List (String × NativeValue)) := do
  let order ← asDecision (dependencyOrderValueGraph host graph)
  valuesIn (decisionValue host) graph.witnesses order

/-- The witnesses among some atoms. -/
def witnessNames {V : Type} (atoms : List (Atom V)) : List String := atoms.filterMap fun atom =>
    match atom with
    | .literal _ => none
    | .witness name => some name

/-- The atoms that a `settle` keeps: its condition and the selected candidate. -/
def selectedAtoms (values : String → Option NativeValue) (atoms : List (Atom NativeValue)) :
    Checked (List (Atom NativeValue)) :=
  match atoms with
  | [condition, affirmative, negative] => do
    let value ← atomValue values condition
    .ok [condition, if value.holds then affirmative else negative]
  | _ => .error .index

def activeAtoms (values : String → Option NativeValue) (witness : Witness NativeValue) :
    Checked (List (Atom NativeValue)) :=
  if witness.term.operation = some settle then selectedAtoms values witness.term.atoms
  else .ok witness.term.atoms

/-- What a witness that runs needs. -/
def activeNext (graph : Graph NativeValue) (values : String → Option NativeValue) (name : String) :
    Checked (List String) := do
  let witness ← witnessOf graph name
  let atoms ← activeAtoms values witness
  .ok (witnessNames atoms)

/-- `active_order_native_decision_graph`. -/
def activeOrder (host : Host) (graph : Graph NativeValue) (values : List (String × NativeValue)) :
    Checked (List String) := do
  let structural ← dependencyOrderValueGraph host graph
  let active ← Worklist.visit (activeNext graph fun name => values.lookup name) .fuel
    (rounds graph.witnesses) [] [graph.resolve]
  .ok (structural.filter fun name => name ∈ active)

/-! ## What is read -/

theorem asDecision_eq_ok {α : Type} {checked : Checked α} {value : α} :
    asDecision checked = .ok value ↔ checked = .ok value := by
  unfold asDecision
  split <;> simp

theorem Lineless.asDecision {α : Type} {check : Nat → Checked α} (lineless : Lineless check) :
    Lineless fun number => asDecision (check number) :=
  ⟨fun passed other => asDecision_eq_ok.mpr (lineless.same (asDecision_eq_ok.mp passed) other)⟩

section Reading

variable {host : Host}

theorem decisionName_lineless (token : String) : Lineless (decisionName host token) :=
  (Lineless.raiseIf _ _).bind fun _ => (Lineless.raiseIf _ _).bind fun _ =>
    (valueName_lineless token).asDecision

theorem decisionTerm_lineless (tokens : List String) : Lineless (decisionTerm host tokens) := by
  unfold decisionTerm
  split
  · split
    · exact (plainAtom_lineless _).bind fun condition => (plainAtom_lineless _).bind fun affirmative =>
        (plainAtom_lineless _).bind fun negative => .ok _
    · exact .error _
  · exact (valueTerm_lineless tokens).asDecision

theorem decisionGrammar_uniform : (decisionGrammar host).Uniform :=
  ⟨decisionName_lineless, decisionTerm_lineless⟩

/-- A term is one atom, an operation on two, or a `settle`. -/
inductive DecisionShape {V : Type} : Term V → Prop
  | atom (atom : Atom V) : DecisionShape ⟨none, [atom]⟩
  | operation {operation : String} (plain : operation ≠ settle) (left right : Atom V) :
      DecisionShape ⟨some operation, [left, right]⟩
  | settle (condition affirmative negative : Atom V) :
      DecisionShape ⟨some settle, [condition, affirmative, negative]⟩

/-- Terms of decision graphs: their shapes, and numbers in range. -/
structure DecisionTerm (term : Term NativeValue) : Prop where
  shape : DecisionShape term
  literals : ∀ value, Atom.literal value ∈ term.atoms → value.Bounded

variable {tokens : List String} {term : Term NativeValue}

theorem valueTerm_operation {line : Nat}
    (read : valueTerm host tokens line = .ok term) {operation : String}
    (isOperation : term.operation = some operation) : operation ∈ binaryOps := by
  unfold valueTerm at read
  split at read
  · split at read
    · split at read
      · cases read
        cases isOperation
      · cases read
    · cases read
  · split at read
    · unfold glyphsTerm at read
      split at read
      · cases read
      · simp only [bind_eq_ok_iff] at read
        obtain ⟨_, -, _, -, _, -, _, -, _, -, _, -, ⟨⟩⟩ := read
        cases isOperation
    · split at read
      · cases read
      · obtain ⟨atom, -, read⟩ := bind_eq_ok read
        cases read
        cases isOperation
      · split at read
        · rename_i known
          obtain ⟨left, -, read⟩ := bind_eq_ok read
          obtain ⟨right, -, read⟩ := bind_eq_ok read
          cases read
          cases isOperation
          exact known
        · cases read
      · cases read

theorem decisionTerm_of_ok {line : Nat}
    (read : decisionTerm host tokens line = .ok term) : DecisionTerm term := by
  unfold decisionTerm at read
  split at read
  · split at read
    · obtain ⟨condition, isCondition, read⟩ := bind_eq_ok read
      obtain ⟨affirmative, isAffirmative, read⟩ := bind_eq_ok read
      obtain ⟨negative, isNegative, read⟩ := bind_eq_ok read
      cases read
      refine ⟨.settle condition affirmative negative, fun value inside => ?_⟩
      rcases mem_cons.mp inside with same | inside
      · exact plainAtom_literal (same ▸ isCondition)
      · rcases mem_cons.mp inside with same | inside
        · exact plainAtom_literal (same ▸ isAffirmative)
        · rw [mem_singleton] at inside
          exact plainAtom_literal (inside ▸ isNegative)
    · cases read
  · have read := asDecision_eq_ok.mp read
    obtain ⟨binary, literals⟩ := valueTerm_of_ok read
    refine ⟨?_, literals⟩
    cases binary with
    | atom atom => exact .atom atom
    | operation operation left right =>
      refine .operation (fun same => ?_) left right
      have known := valueTerm_operation read rfl
      rw [same] at known
      exact absurd known (by decide)

theorem order_of_parseNativeDecisionGraph {source : String} {graph : Graph NativeValue}
    (parsed : parseNativeDecisionGraph host source = .ok graph) :
    (graph.witnesses.map Witness.name).Nodup ∧
      (∃ order, dependencyOrderValueGraph host graph = .ok order) ∧
      ∀ witness ∈ graph.witnesses, DecisionTerm witness.term := by
  obtain ⟨lines, -, parsed⟩ := bind_eq_ok parsed
  have terms := Grammar.terms_of_parse decisionGrammar_uniform (fun _ _ _ => decisionTerm_of_ok) parsed
  obtain ⟨_, -, -, -, nodup, -, -, order, ordered⟩ :=
    (Grammar.parse_eq_ok decisionGrammar_uniform).mp parsed
  exact ⟨nodup, ⟨order, asDecision_eq_ok.mp ordered⟩, terms⟩

end Reading

/-! ## What decisions mean -/

/-- What a `settle` means: its candidates are of one domain. -/
def settleMeaning : List NativeValue → Option NativeValue
  | [.truth chosen, affirmative, negative] =>
    if affirmative.domain = negative.domain then some (if chosen then affirmative else negative)
    else none
  | _ => none

/-- What the operations of decision graphs mean, when texts are joined in a way. -/
def decisionMeaning (joined : String → String → String) : Meaning NativeValue :=
  fun operation operands =>
    if operation = settle then settleMeaning operands else valueMeaning joined operation operands

variable {value : NativeValue}

theorem settleValue_eq_ok {line : Nat} {condition affirmative negative : NativeValue} :
    settleValue line condition affirmative negative = .ok value ↔
      settleMeaning [condition, affirmative, negative] = some value := by
  cases condition with
  | truth chosen =>
    unfold settleValue settleMeaning
    rw [bind_raiseIf (show ¬ (NativeValue.truth chosen).domain ≠ .truth from not_not.mpr rfl)]
    refine bind_raiseIf_iff.trans ?_
    cases chosen <;> by_cases same : affirmative.domain = negative.domain <;>
      simp [same, NativeValue.holds]
  | whole number => simp [settleValue, settleMeaning, bind_unit_iff, raiseIf_iff, NativeValue.domain]
  | glyphs text => simp [settleValue, settleMeaning, bind_unit_iff, raiseIf_iff, NativeValue.domain]

theorem denotes_settle {meaning : Meaning NativeValue} {values : String → Option NativeValue}
    {operation : String} {condition affirmative negative : Atom NativeValue} :
    Denotes meaning values ⟨some operation, [condition, affirmative, negative]⟩ value ↔
      ∃ first second third, AtomDenotes values condition first ∧ AtomDenotes values affirmative second ∧
        AtomDenotes values negative third ∧ meaning operation [first, second, third] = some value := by
  constructor
  · rintro ⟨operands, denote, means⟩
    cases denote with
    | cons one denote =>
      cases denote with
      | cons two denote =>
        cases denote with
        | cons three denote =>
          cases denote
          exact ⟨_, _, _, one, two, three, means⟩
  · rintro ⟨first, second, third, one, two, three, means⟩
    exact ⟨[first, second, third], .cons one (.cons two (.cons three .nil)), means⟩

section Meaning

variable {host : Host} {graph : Graph NativeValue} {order : List String}
  {values : List (String × NativeValue)}

theorem decisionValue_looks : Looks (decisionValue host) := by
  intro witness first second agree
  have same : ∀ atom ∈ witness.term.atoms, atomValue first atom = atomValue second atom :=
    fun atom inside => atomValue_congr fun name isName =>
      agree name (mem_dependencies.mpr (isName ▸ inside))
  unfold decisionValue
  split
  · rename_i atom others _ atoms
    exact same atom (atoms ▸ mem_cons_self)
  · rename_i operation left right others _ atoms
    rw [same left (atoms ▸ mem_cons_self), same right (atoms ▸ mem_cons_of_mem _ mem_cons_self)]
    cases others with
    | nil => rfl
    | cons third others =>
      dsimp only
      rw [same third (atoms ▸ mem_cons_of_mem _ (mem_cons_of_mem _ mem_cons_self))]
  · rfl

theorem decisionValue_follows (terms : ∀ witness ∈ graph.witnesses, DecisionTerm witness.term) :
    Follows (decisionValue host) (decisionMeaning host.merged) graph.witnesses := by
  rintro ⟨name, term, line⟩ inside values value
  have shape := (terms _ inside).shape
  dsimp only at shape
  cases shape with
  | atom atom => exact atomValue_eq_ok.trans denotes_atom.symm
  | @operation operation plain left right =>
    refine Iff.trans ?_ denotes_operation.symm
    have means : decisionMeaning host.merged operation = valueMeaning host.merged operation :=
      funext fun _ => if_neg plain
    rw [means]
    simp only [decisionValue, bind_eq_ok_iff, if_neg plain, atomValue_eq_ok, operate_eq_ok,
      exists_and_left]
  | settle condition affirmative negative =>
    refine Iff.trans ?_ denotes_settle.symm
    have means : decisionMeaning host.merged settle = settleMeaning := funext fun _ => if_pos rfl
    rw [means]
    simp only [decisionValue, bind_eq_ok_iff, if_true, atomValue_eq_ok, settleValue_eq_ok,
      exists_and_left]

theorem model_of_evaluateDecision (ordered : dependencyOrderValueGraph host graph = .ok order)
    (distinct : (graph.witnesses.map Witness.name).Nodup)
    (terms : ∀ witness ∈ graph.witnesses, DecisionTerm witness.term)
    (evaluated : evaluateNativeDecisionGraph host graph = .ok values) :
    Model (decisionMeaning host.merged) graph fun name => values.lookup name := by
  unfold evaluateNativeDecisionGraph at evaluated
  rw [bind_of_ok (asDecision_eq_ok.mpr ordered)] at evaluated
  exact (order_of_orderOf ordered).model_of_valuesIn distinct decisionValue_looks
    (decisionValue_follows terms) evaluated

end Meaning

/-! ## What runs -/

section Active

variable {joined : String → String → String} {graph : Graph NativeValue}
  {values : String → Option NativeValue} {witness : Witness NativeValue}

theorem exists_activeAtoms (shaped : DecisionTerm witness.term)
    (denotes : Denotes (decisionMeaning joined) values witness.term value) :
    ∃ atoms, activeAtoms values witness = .ok atoms ∧ atoms.Sublist witness.term.atoms := by
  obtain ⟨name, term, line⟩ := witness
  have shape := shaped.shape
  dsimp only at shape denotes ⊢
  cases shape with
  | atom atom => exact ⟨_, rfl, List.Sublist.refl _⟩
  | operation plain left right =>
    refine ⟨_, if_neg fun same => plain (some.inj same), List.Sublist.refl _⟩
  | settle condition affirmative negative =>
    obtain ⟨first, -, -, known, -⟩ := denotes_settle.mp denotes
    refine ⟨_, (if_pos rfl).trans (bind_of_ok (atomValue_eq_ok.mpr known)), ?_⟩
    cases first.holds with
    | true => exact .cons_cons _ (.cons_cons _ (.cons _ .slnil))
    | false => exact .cons_cons _ (.cons _ (.cons_cons _ .slnil))

theorem exists_activeNext (distinct : (graph.witnesses.map Witness.name).Nodup)
    (terms : ∀ witness ∈ graph.witnesses, DecisionTerm witness.term)
    (model : Model (decisionMeaning joined) graph values) (member : witness ∈ graph.witnesses) :
    ∃ needed, activeNext graph values witness.name = .ok needed ∧
      needed.Sublist (dependencies witness) := by
  obtain ⟨value, denotes, -⟩ := model witness member
  obtain ⟨atoms, isActive, sublist⟩ := exists_activeAtoms (terms witness member) denotes
  exact ⟨_, (bind_of_ok (witnessOf_eq_ok.mpr (named_of_mem distinct member))).trans (bind_of_ok isActive),
    sublist.filterMap _⟩

variable {order : List String}

/-- The walk through what runs ends within its rounds. -/
theorem exists_visit_active (ordered : Order graph order)
    (distinct : (graph.witnesses.map Witness.name).Nodup)
    (terms : ∀ witness ∈ graph.witnesses, DecisionTerm witness.term)
    (model : Model (decisionMeaning joined) graph values) :
    ∃ active, Worklist.visit (activeNext graph values) .fuel (rounds graph.witnesses) []
      [graph.resolve] = .ok active := by
  obtain ⟨resolve, isResolve, same⟩ := ordered.resolve_named
  refine @Worklist.exists_visit_eq_ok _ _ _ _ _ _ _ _ (graph.witnesses.map Witness.name) ?_ ?_ ?_
  · intro name inside
    obtain ⟨witness, member, rfl⟩ := mem_map.mp inside
    obtain ⟨needed, known, sublist⟩ := exists_activeNext distinct terms model member
    refine ⟨needed, known, fun other among => ?_⟩
    obtain ⟨found, isFound, same⟩ :=
      ordered.name_mem (ordered.dependencies_mem distinct member (sublist.subset among))
    exact mem_map.mpr ⟨found, isFound, same⟩
  · intro name inside
    rw [mem_singleton.mp inside]
    exact mem_map.mpr ⟨resolve, isResolve, same⟩
  · have each : ∀ witness ∈ graph.witnesses,
        Worklist.degree (activeNext graph values) witness.name ≤ (dependencies witness).length := by
      intro witness member
      obtain ⟨needed, known, sublist⟩ := exists_activeNext distinct terms model member
      unfold Worklist.degree
      rw [known]
      exact sublist.length_le
    have few : Worklist.remaining (activeNext graph values) (graph.witnesses.map Witness.name) [] ≤
        (graph.witnesses.map fun witness => (dependencies witness).length).sum := by
      unfold Worklist.remaining
      rw [map_map]
      exact List.sum_le_sum fun witness member => by
        rw [Function.comp, if_neg not_mem_nil]
        exact each witness member
    have total : rounds graph.witnesses =
        (graph.witnesses.map fun witness => (dependencies witness).length).sum +
          graph.witnesses.length := by
      unfold rounds
      rw [List.sum_map_add, List.map_const', List.sum_replicate_nat, Nat.mul_one]
    have some : 0 < graph.witnesses.length := List.length_pos_of_mem isResolve
    rw [length_singleton]
    omega

/-- A witness runs when it is reached from the resolved one through what runs. -/
abbrev Runs (graph : Graph NativeValue) (values : String → Option NativeValue) (name : String) : Prop :=
  Worklist.Reaches (activeNext graph values) graph.resolve name

/-- **What runs is listed in the structural order**, and is what the resolved witness reaches. -/
theorem activeOrder_eq_ok {host : Host}
    {found : List (String × NativeValue)} (ordered : dependencyOrderValueGraph host graph = .ok order)
    (distinct : (graph.witnesses.map Witness.name).Nodup)
    (terms : ∀ witness ∈ graph.witnesses, DecisionTerm witness.term)
    (model : Model (decisionMeaning joined) graph fun name => found.lookup name) :
    ∃ active, activeOrder host graph found = .ok active ∧ active.Sublist order ∧
      ∀ name, name ∈ active ↔ Runs graph (fun name => found.lookup name) name := by
  have isOrder := order_of_orderOf ordered
  obtain ⟨visited, ran⟩ := exists_visit_active isOrder distinct terms model
  refine ⟨_, (bind_of_ok ordered).trans (bind_of_ok ran), filter_sublist, fun name => ?_⟩
  have listed : Runs graph (fun name => found.lookup name) name → name ∈ order := by
    intro runs
    induction runs with
    | refl => exact isOrder.resolve
    | tail _ leads inside =>
      obtain ⟨needed, known, among⟩ := leads
      obtain ⟨witness, member, rfl⟩ := isOrder.name_mem inside
      obtain ⟨theirs, isTheirs, sublist⟩ := exists_activeNext distinct terms model member
      cases known.symm.trans isTheirs
      exact isOrder.dependencies_mem distinct member (sublist.subset among)
  rw [mem_filter, decide_eq_true_eq, Worklist.mem_visit_iff ran]
  exact ⟨fun both => both.2, fun runs => ⟨listed runs, runs⟩⟩

end Active

end Koschei.Kernel
