import Koschei.Kernel.Graph
import Koschei.Lib.Pointwise

/-!
# What a witness graph means

An operation maps the values of its operands to a value, or has none. Values of the
witnesses are a model of a graph when every witness has the value its term denotes,
and the graph resolves to a value when a model gives it to the resolved witness.
Nothing here is computed in an order. A graph with an order has at most one value,
and an evaluator that finds, for each witness, what its term denotes finds the value
of the graph.
-/

namespace Koschei.Kernel

open Lib

variable {L V : Type}

/-- What an atom denotes where the witnesses have values. -/
inductive AtomDenotes (values : String → Option V) : Atom V → V → Prop
  | literal (value : V) : AtomDenotes values (.literal value) value
  | witness {name : String} {value : V} (known : values name = some value) :
      AtomDenotes values (.witness name) value

/-- What the operations map their operands to. -/
abbrev Meaning (V : Type) : Type := String → List V → Option V

def Denotes (meaning : Meaning V) (values : String → Option V) (term : Term V) (value : V) : Prop :=
  ∃ operands, Forall₂ (AtomDenotes values) term.atoms operands ∧ match term.operation with
    | none => operands = [value]
    | some operation => meaning operation operands = some value

/-- Values under which every witness has the value of its term. -/
def Model (meaning : Meaning V) (graph : Graph V) (values : String → Option V) : Prop :=
  ∀ witness ∈ graph.witnesses, ∃ value, Denotes meaning values witness.term value ∧
    values witness.name = some value

def Resolves (meaning : Meaning V) (graph : Graph V) (value : V) : Prop :=
  ∃ values, Model meaning graph values ∧ values graph.resolve = some value

/-- The witnesses of a graph have the values that their terms denote, as an evaluator finds them. -/
def Follows (valueOf : Witness V → (String → Option V) → Checked V) (meaning : Meaning V)
    (witnesses : List (Witness V)) : Prop :=
  ∀ witness ∈ witnesses, ∀ values value,
    valueOf witness values = .ok value ↔ Denotes meaning values witness.term value

section Evaluators

variable {valueOf : Witness V → (String → Option V) → Checked V} {meaning : Meaning V}
  {graph : Graph V} {order : List String} {values : String → Option V}

theorem Follows.solves_iff (follows : Follows valueOf meaning graph.witnesses)
    : Solves valueOf graph values ↔ Model meaning graph values :=
  forall₂_congr fun witness inside => exists_congr fun value =>
    and_congr_left fun _ => follows witness inside values value

section

variable (ordered : Order graph order)

include ordered

theorem Order.name_mem {name : String} (inside : name ∈ order) :
    ∃ witness ∈ graph.witnesses, witness.name = name := by
  obtain ⟨before, after, split⟩ := append_of_mem inside
  obtain ⟨_, known, -⟩ := ordered.closed before name after split
  unfold dependenciesOf at known
  obtain ⟨witness, found, -⟩ := map_eq_some_iff.mp known
  exact ⟨witness, mem_of_named found⟩

theorem Order.resolve_named : ∃ witness ∈ graph.witnesses, witness.name = graph.resolve :=
  ordered.name_mem ordered.resolve

section

variable (distinct : (graph.witnesses.map Witness.name).Nodup)

include distinct

/-- **An evaluator that follows the terms finds the value of the graph.** -/
theorem Order.resolves_iff (looks : Looks valueOf)
    (follows : Follows valueOf meaning graph.witnesses) {value : V} :
    (∃ found, valuesIn valueOf graph.witnesses order = .ok found ∧
      found.lookup graph.resolve = some value) ↔ Resolves meaning graph value := by
  constructor
  · rintro ⟨found, ran, resolved⟩
    exact ⟨_, follows.solves_iff.mp (ordered.solves distinct looks ran), resolved⟩
  · rintro ⟨values, model, resolved⟩
    have solved := follows.solves_iff.mpr model
    obtain ⟨found, ran⟩ := (ordered.valuesIn_iff distinct looks).mpr ⟨values, solved⟩
    refine ⟨found, ran, ?_⟩
    rw [← resolved]
    exact ordered.unique distinct looks (ordered.solves distinct looks ran) solved _ ordered.resolve

/-- Evaluation that ends finds the values of the model, on every witness. -/
theorem Order.model_of_valuesIn (looks : Looks valueOf)
    (follows : Follows valueOf meaning graph.witnesses) {found : List (String × V)}
    (ran : valuesIn valueOf graph.witnesses order = .ok found) :
    Model meaning graph (fun name => found.lookup name) :=
  follows.solves_iff.mp (ordered.solves distinct looks ran)

theorem Order.dependencies_mem {witness : Witness V}
    (inside : witness ∈ graph.witnesses) : dependencies witness ⊆ order := by
  obtain ⟨needed, known, before⟩ := ordered.closed.before (ordered.all witness inside)
  unfold dependenciesOf at known
  rw [named_of_mem distinct inside] at known
  cases known
  exact fun name needed => (before name needed).1

/-- An evaluator finds some values of the witnesses exactly when they are a model. -/
theorem Order.values_iff (looks : Looks valueOf)
    (follows : Follows valueOf meaning graph.witnesses) {values : String → Option V} :
    (∃ found, valuesIn valueOf graph.witnesses order = .ok found ∧
      ∀ witness ∈ graph.witnesses, found.lookup witness.name = values witness.name) ↔
        Model meaning graph values := by
  rw [← follows.solves_iff]
  constructor
  · rintro ⟨found, ran, agree⟩ witness inside
    obtain ⟨value, solved, known⟩ := ordered.solves distinct looks ran witness inside
    refine ⟨value, ?_, (agree witness inside).symm.trans known⟩
    refine (looks witness _ _ fun name needed => ?_).symm.trans solved
    obtain ⟨other, isOther, rfl⟩ :=
      ordered.name_mem (ordered.dependencies_mem distinct inside needed)
    exact agree other isOther
  · intro solved
    obtain ⟨found, ran⟩ := (ordered.valuesIn_iff distinct looks).mpr ⟨values, solved⟩
    exact ⟨found, ran, fun witness inside => ordered.unique distinct looks
      (ordered.solves distinct looks ran) solved _ (ordered.all witness inside)⟩

theorem Order.model_unique (looks : Looks valueOf)
    (follows : Follows valueOf meaning graph.witnesses) {first second : String → Option V}
    (one : Model meaning graph first) (other : Model meaning graph second) :
    ∀ name ∈ order, first name = second name :=
  ordered.unique distinct looks (follows.solves_iff.mpr one) (follows.solves_iff.mpr other)

end

/-- What holds of the literals of a graph and is kept by its operations holds of its values. -/
theorem Order.model_all (model : Model meaning graph values) {holds : V → Prop}
    (literals : ∀ witness ∈ graph.witnesses, ∀ value, Atom.literal value ∈ witness.term.atoms → holds value)
    (kept : ∀ operation operands value, (∀ operand ∈ operands, holds operand) →
      meaning operation operands = some value → holds value) :
    ∀ name ∈ order, ∀ value, values name = some value → holds value := by
  suffices prefixes : ∀ before after, order = before ++ after →
      ∀ name ∈ before, ∀ value, values name = some value → holds value from
    prefixes order [] (append_nil order).symm
  intro before
  induction before using reverseRecOn with
  | nil =>
    intro after _ name inside
    cases inside
  | append_singleton before last ih =>
    intro after isOrder name inside value known
    have split : order = before ++ last :: after := by
      rw [isOrder, append_assoc]
      rfl
    have earlier := ih (last :: after) split
    rcases mem_append.mp inside with inside | isLast
    · exact earlier name inside value known
    · rw [mem_singleton] at isLast
      subst isLast
      obtain ⟨_, found, subset⟩ := ordered.closed before name after split
      obtain ⟨witness, isNamed, rfl⟩ := map_eq_some_iff.mp found
      obtain ⟨member, rfl⟩ := mem_of_named isNamed
      obtain ⟨other, ⟨operands, denote, result⟩, isValue⟩ := model witness member
      rw [known] at isValue
      cases isValue
      have all : ∀ operand ∈ operands, holds operand := by
        intro operand isOperand
        obtain ⟨atom, isAtom, denotes⟩ := exists_left_of_forall₂ denote isOperand
        cases denotes with
        | literal => exact literals witness member operand isAtom
        | witness looked =>
          exact earlier _ (subset (mem_dependencies.mpr isAtom)) operand looked
      split at result
      · subst result
        exact all value mem_cons_self
      · exact kept _ operands value all result

end

end Evaluators

/-! ## Terms of one or two atoms -/

/-- A term is one atom, or an operation on two. -/
inductive Binary : Term V → Prop
  | atom (atom : Atom V) : Binary ⟨none, [atom]⟩
  | operation (operation : String) (left right : Atom V) : Binary ⟨some operation, [left, right]⟩

variable {values : String → Option V} {value : V} {atom : Atom V}

theorem atomValue_eq_ok : atomValue values atom = .ok value ↔ AtomDenotes values atom value := by
  cases atom with
  | literal other =>
    constructor
    · intro found
      cases found
      exact .literal value
    · intro denotes
      cases denotes
      rfl
  | witness name =>
    unfold atomValue
    constructor
    · intro found
      dsimp only at found
      split at found
      · rename_i known
        cases found
        exact .witness known
      · cases found
    · intro denotes
      cases denotes with
      | witness known => dsimp only; rw [known]

variable {meaning : Meaning V}

theorem denotes_atom :
    Denotes meaning values ⟨none, [atom]⟩ value ↔ AtomDenotes values atom value := by
  constructor
  · rintro ⟨operands, denote, rfl⟩
    cases denote with
    | cons one _ => exact one
  · exact fun one => ⟨[value], .cons one .nil, rfl⟩

theorem denotes_operation {operation : String} {left right : Atom V} :
    Denotes meaning values ⟨some operation, [left, right]⟩ value ↔
      ∃ first second, AtomDenotes values left first ∧ AtomDenotes values right second ∧
        meaning operation [first, second] = some value := by
  constructor
  · rintro ⟨operands, denote, means⟩
    cases denote with
    | cons one denote =>
      cases denote with
      | cons other denote =>
        cases denote
        exact ⟨_, _, one, other, means⟩
  · rintro ⟨first, second, one, other, means⟩
    exact ⟨[first, second], .cons one (.cons other .nil), means⟩

theorem termValue_follows {operate : Witness V → String → V → V → Checked V}
    {witnesses : List (Witness V)} (means : ∀ witness operation left right value,
      operate witness operation left right = .ok value ↔ meaning operation [left, right] = some value)
    (binary : ∀ witness ∈ witnesses, Binary witness.term) :
    Follows (termValue operate) meaning witnesses := by
  rintro ⟨name, term, line⟩ inside values value
  have shape := binary _ inside
  dsimp only at shape
  cases shape with
  | atom atom => exact atomValue_eq_ok.trans denotes_atom.symm
  | operation operation left right =>
    refine Iff.trans ?_ denotes_operation.symm
    simp only [termValue, bind_eq_ok_iff, atomValue_eq_ok, exists_and_left, means]

/-! ## Literals filled in -/

/-- An atom with its literal replaced. -/
def Atom.map (fill : L → V) : Atom L → Atom V
  | .literal value => .literal (fill value)
  | .witness name => .witness name

/-- A term with its literals replaced. -/
def Term.map (fill : L → V) (term : Term L) : Term V := ⟨term.operation, term.atoms.map (Atom.map fill)⟩

/-- A witness with its literals replaced. -/
def Witness.map (fill : L → V) (witness : Witness L) : Witness V :=
  ⟨witness.name, witness.term.map fill, witness.line⟩

/-- A graph with its literals replaced. -/
def Graph.map (fill : L → V) (graph : Graph L) : Graph V :=
  ⟨graph.witnesses.map (Witness.map fill), graph.resolve, graph.resolveLine⟩

section Filled

variable {fill : L → V}

theorem dependencies_map (witness : Witness L) :
    dependencies (witness.map fill) = dependencies witness := by
  unfold dependencies Witness.map Term.map
  rw [List.filterMap_map]
  refine List.filterMap_congr fun atom _ => ?_
  cases atom with
  | literal value => rfl
  | witness name => rfl

section

variable (witnesses : List (Witness L))

theorem names_map :
    (witnesses.map (Witness.map fill)).map Witness.name = witnesses.map Witness.name := by
  rw [map_map]
  rfl

theorem named_map (name : String) :
    named (witnesses.map (Witness.map fill)) name = (named witnesses name).map (Witness.map fill) := by
  unfold named
  rw [← map_reverse, List.find?_map]
  rfl

theorem dependenciesOf_map :
    dependenciesOf (witnesses.map (Witness.map fill)) = dependenciesOf witnesses := by
  funext name
  unfold dependenciesOf
  rw [named_map, Option.map_map]
  exact congrArg (Option.map · (named witnesses name)) (funext dependencies_map)

theorem rounds_map : rounds (witnesses.map (Witness.map fill)) = rounds witnesses := by
  unfold rounds
  rw [map_map]
  exact congrArg List.sum (map_congr_left fun witness _ =>
    congrArg (fun names => names.length + 1) (dependencies_map witness))

theorem lineOf_map (name : String) :
    lineOf (witnesses.map (Witness.map fill)) name = lineOf witnesses name := by
  unfold lineOf
  rw [named_map]
  cases named witnesses name <;> rfl

end

theorem orderOf_map (texts : OrderTexts) (graph : Graph L) :
    orderOf texts (graph.map fill) = orderOf texts graph := by
  unfold orderOf Graph.byName Graph.map
  dsimp only
  rw [named_map, Option.isNone_map, dependenciesOf_map, rounds_map, names_map]
  simp only [lineOf_map]

end Filled

end Koschei.Kernel
