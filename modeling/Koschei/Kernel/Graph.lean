import Koschei.Lib.Equations
import Koschei.Lib.SearchRounds
import Koschei.Lib.StableSort
import Koschei.Kernel.Text
import Mathlib.Algebra.Order.Ring.Int

/-!
# Witness graphs

A graph gives each of its witnesses a term: an atom, or an operation on atoms. An
atom is a literal or the name of a witness. The frontends differ in their values and
operations and in the texts of their errors; how they order the witnesses of a graph
and how they evaluate it is the same, and is stated once.
-/

namespace Koschei.Kernel

open Lib Lib.DepthFirst

variable {V : Type}

/-- `NativeAtom`, `ValueAtom`: exactly one of a literal and a witness. -/
inductive Atom (V : Type) where
  | literal (value : V)
  | witness (name : String)
  deriving DecidableEq

/-- `NativeTerm`, `ValueTerm`. -/
structure Term (V : Type) where
  operation : Option String
  atoms : List (Atom V)
  deriving DecidableEq

/-- `NativeWitness`, `ValueWitness`: the column of the location is 1. -/
structure Witness (V : Type) where
  name : String
  term : Term V
  line : Nat
  deriving DecidableEq

/-- `NativeKernel`, `NativeValueGraph`. -/
structure Graph (V : Type) where
  witnesses : List (Witness V)
  resolve : String
  resolveLine : Nat
  deriving DecidableEq

/-- `{item.name: item for item in witnesses}`, asked for a name. -/
def named (witnesses : List (Witness V)) (name : String) : Option (Witness V) :=
  witnesses.reverse.find? fun witness => witness.name == name

def Graph.byName (graph : Graph V) (name : String) : Option (Witness V) := named graph.witnesses name

/-- `_dependencies`. -/
def dependencies (witness : Witness V) : List String := witness.term.atoms.filterMap fun atom =>
    match atom with
    | .literal _ => none
    | .witness name => some name

def dependenciesOf (witnesses : List (Witness V)) (name : String) : Option (List String) :=
  (named witnesses name).map dependencies

/-- As many rounds as a search through the witnesses can take. -/
def rounds (witnesses : List (Witness V)) : Nat :=
  (witnesses.map fun witness => (dependencies witness).length + 1).sum

/-- What a frontend says about the order of a graph. -/
structure OrderTexts where
  fault : Report → Fault
  unknownCode : String
  unknownResolve : String → String
  unknownDependency : String → String → String
  cycleCode : String
  cycle : String → String
  dormantCode : String
  dormant : String → String

def lineOf (witnesses : List (Witness V)) (name : String) : Nat := match named witnesses name with
  | some witness => witness.line
  | none => 0

/-- The witnesses of a graph in the order in which they can be evaluated. -/
def orderOf (texts : OrderTexts) (graph : Graph V) : Checked (List String) :=
  if (graph.byName graph.resolve).isNone then
    .error (texts.fault
      ⟨texts.unknownCode, texts.unknownResolve graph.resolve, graph.resolveLine, 1⟩)
  else
    match (Search.start graph.resolve).run (dependenciesOf graph.witnesses)
        (rounds graph.witnesses) with
    | .error (.missing name dependency) =>
      .error (texts.fault ⟨texts.unknownCode, texts.unknownDependency name dependency,
        lineOf graph.witnesses name, 1⟩)
    | .error (.cycle path dependency) =>
      .error (texts.fault ⟨texts.cycleCode, texts.cycle (" -> ".intercalate (path ++ [dependency])),
        lineOf graph.witnesses dependency, 1⟩)
    | .error (.unknown _) => .error .key
    | .error .fuel => .error .fuel
    | .ok search =>
      let names := (graph.witnesses.map Witness.name).dedup
      match names.filter fun name => name ∉ search.reachable with
      | [] => .ok search.ordered
      | first :: others =>
        let dormant := sortByKey id (first :: others)
        .error (texts.fault ⟨texts.dormantCode, texts.dormant (", ".intercalate dormant),
          lineOf graph.witnesses (dormant.headD first), 1⟩)

/-- An order in which a graph can be evaluated: every witness once, after those it depends on. -/
structure Order (graph : Graph V) (order : List String) : Prop where
  closed : Closed (dependenciesOf graph.witnesses) order
  nodup : order.Nodup
  resolve : graph.resolve ∈ order
  all : ∀ witness ∈ graph.witnesses, witness.name ∈ order

variable {graph : Graph V} {order : List String} {texts : OrderTexts}

theorem order_of_orderOf (ordered : orderOf texts graph = .ok order) : Order graph order := by
  unfold orderOf at ordered
  split at ordered
  · cases ordered
  · rename_i known
    obtain ⟨witness, found⟩ : ∃ witness, graph.byName graph.resolve = some witness := by
      cases found : graph.byName graph.resolve with
      | none => exact absurd (by rw [found]; rfl) known
      | some witness => exact ⟨witness, rfl⟩
    have known : dependenciesOf graph.witnesses graph.resolve = some (dependencies witness) :=
      congrArg (Option.map dependencies) found
    have start := Search.start_sound known
    split at ordered
    case h_5 search ran =>
      obtain ⟨sound, empty, holds⟩ := Search.run_sound start ran
      dsimp only at ordered
      split at ordered
      · rename_i none
        cases ordered
        refine ⟨sound.closed, sound.nodup, holds _ (.inr mem_cons_self), ?_⟩
        intro witness inside
        have reached : witness.name ∈ search.reachable := by
          by_contra unreached
          have dormant : witness.name ∈ (graph.witnesses.map Witness.name).dedup.filter
              fun name => name ∉ search.reachable :=
            mem_filter.mpr ⟨mem_dedup.mpr (mem_map_of_mem inside), decide_eq_true unreached⟩
          rw [none] at dormant
          cases dormant
        exact sound.reached_listed empty reached
      · cases ordered
    all_goals cases ordered

/-- What holds of the resolved witness and passes to dependencies holds of all that is ordered. -/
theorem mem_of_orderOf {graph : Graph V} {order : List String}
    (ordered : orderOf texts graph = .ok order) {holds : String → Prop} (resolve : holds graph.resolve)
    (passes : ∀ name dependencies, dependenciesOf graph.witnesses name = some dependencies → holds name →
      ∀ dependency ∈ dependencies, holds dependency) : ∀ name ∈ order, holds name := by
  unfold orderOf at ordered
  split at ordered
  · cases ordered
  · split at ordered
    case h_5 search ran =>
      dsimp only at ordered
      split at ordered
      · cases ordered
        intro name inside
        refine Search.run_all passes ran (fun other held => ?_) name (.inl inside)
        rcases held with inside | inside
        · cases inside
        · rw [mem_singleton.mp inside]
          exact resolve
      · cases ordered
    all_goals cases ordered

/-! ## The rounds of an order -/

variable {witnesses : List (Witness V)} {name : String} {witness : Witness V}

theorem mem_of_named
    (found : named witnesses name = some witness) : witness ∈ witnesses ∧ witness.name = name := by
  unfold named at found
  exact ⟨mem_reverse.mp (mem_of_find?_eq_some found), by simpa using find?_some found⟩

theorem named_of_mem (distinct : (witnesses.map Witness.name).Nodup)
    (inside : witness ∈ witnesses) : named witnesses witness.name = some witness := by
  have known : (named witnesses witness.name).isSome := by
    unfold named
    rw [List.find?_isSome]
    exact ⟨witness, mem_reverse.mpr inside, beq_self_eq_true _⟩
  obtain ⟨other, found⟩ := isSome_iff_exists.mp known
  obtain ⟨isOther, same⟩ := mem_of_named found
  rw [found, inj_on_of_nodup_map distinct isOther inside same]

theorem mem_names_of_dependenciesOf
    (known : (dependenciesOf witnesses name).isSome) : name ∈ witnesses.map Witness.name := by
  obtain ⟨_, isKnown⟩ := isSome_iff_exists.mp known
  obtain ⟨witness, found, -⟩ := map_eq_some_iff.mp isKnown
  obtain ⟨inside, same⟩ := mem_of_named found
  exact mem_map.mpr ⟨witness, inside, same⟩

/-- A search has as many rounds as its nodes can take. -/
theorem rounds_eq (distinct : (witnesses.map Witness.name).Nodup) :
    rounds witnesses = ((witnesses.map Witness.name).map fun name =>
      degree (dependenciesOf witnesses) name + 1).sum := by
  unfold rounds
  rw [map_map]
  refine congrArg List.sum (map_congr_left fun witness inside => ?_)
  have here : dependenciesOf witnesses witness.name = some (dependencies witness) := by
    unfold dependenciesOf
    rw [named_of_mem distinct inside]
    rfl
  unfold Function.comp degree
  dsimp only
  rw [here]
  rfl

/-! ## Evaluation -/

def atomValue (values : String → Option V) : Atom V → Checked V
  | .literal value => .ok value
  | .witness name =>
    match values name with
    | some value => .ok value
    | none => .error .key

/-- The value of a witness whose operations have two operands. -/
def termValue (operate : Witness V → String → V → V → Checked V) (witness : Witness V)
    (values : String → Option V) : Checked V :=
  match witness.term.operation, witness.term.atoms with
  | none, atom :: _ => atomValue values atom
  | some operation, first :: second :: _ => do
    let left ← atomValue values first
    let right ← atomValue values second
    operate witness operation left right
  | _, _ => .error .index

/-- The equation of a name: `by_name[name]`, and its value. -/
def equation (valueOf : Witness V → (String → Option V) → Checked V)
    (witnesses : List (Witness V)) (name : String) (values : String → Option V) : Checked V :=
  match named witnesses name with
  | some witness => valueOf witness values
  | none => .error .key

def valuesIn (valueOf : Witness V → (String → Option V) → Checked V)
    (witnesses : List (Witness V)) (order : List String) : Checked (List (String × V)) :=
  Equations.fill (equation valueOf witnesses) order []

/-- The value of a witness depends on the values of its dependencies only. -/
def Looks (valueOf : Witness V → (String → Option V) → Checked V) : Prop :=
  ∀ witness (first second : String → Option V),
    (∀ name ∈ dependencies witness, first name = second name) →
      valueOf witness first = valueOf witness second

theorem mem_dependencies :
    name ∈ dependencies witness ↔ Atom.witness name ∈ witness.term.atoms := by
  unfold dependencies
  rw [mem_filterMap]
  constructor
  · rintro ⟨atom, inside, isName⟩
    cases atom with
    | literal value => cases isName
    | witness other =>
      cases isName
      exact inside
  · exact fun inside => ⟨_, inside, rfl⟩

variable {first second : String → Option V}

theorem atomValue_congr {atom : Atom V}
    (agree : ∀ name, atom = .witness name → first name = second name) :
    atomValue first atom = atomValue second atom := by
  cases atom with
  | literal value => rfl
  | witness name =>
    simp only [atomValue, agree name rfl]

theorem termValue_looks (operate : Witness V → String → V → V → Checked V) :
    Looks (termValue operate) := by
  intro witness first second agree
  unfold termValue
  split
  · rename_i atom others _ atoms
    refine atomValue_congr fun name isName => agree name (mem_dependencies.mpr ?_)
    rw [atoms, isName]
    exact mem_cons_self
  · rename_i left right others _ atoms
    have same : ∀ atom ∈ [left, right], atomValue first atom = atomValue second atom := by
      intro atom inside
      refine atomValue_congr fun name isName => agree name (mem_dependencies.mpr ?_)
      rw [atoms, ← isName]
      rcases mem_cons.mp inside with rfl | inside
      · exact mem_cons_self
      · rw [mem_singleton.mp inside]
        exact mem_cons_of_mem _ mem_cons_self
    rw [same left mem_cons_self, same right (mem_cons_of_mem _ mem_cons_self)]
  · rfl

variable {valueOf : Witness V → (String → Option V) → Checked V}

theorem equation_local (looks : Looks valueOf) (witnesses : List (Witness V)) :
    Equations.Local (dependenciesOf witnesses) (equation valueOf witnesses) := by
  intro name known isKnown first second agree
  unfold dependenciesOf at isKnown
  unfold equation
  cases found : named witnesses name with
  | none => rfl
  | some witness =>
    rw [found] at isKnown
    cases isKnown
    exact looks witness first second agree

/-- Values that satisfy the equations of all witnesses of a graph. -/
def Solves (valueOf : Witness V → (String → Option V) → Checked V) (graph : Graph V)
    (values : String → Option V) : Prop :=
  ∀ witness ∈ graph.witnesses, ∃ value, valueOf witness values = .ok value ∧
    values witness.name = some value

section

variable (ordered : Order graph order)
  (distinct : (graph.witnesses.map Witness.name).Nodup)

include ordered distinct

theorem Order.solution_iff {values : String → Option V} :
    Equations.Solution (equation valueOf graph.witnesses) order values ↔
      Solves valueOf graph values := by
  constructor
  · intro solution witness inside
    obtain ⟨value, solved, isValue⟩ := solution witness.name (ordered.all witness inside)
    unfold equation at solved
    rw [named_of_mem distinct inside] at solved
    exact ⟨value, solved, isValue⟩
  · intro solves name inside
    obtain ⟨before, after, rfl⟩ := append_of_mem inside
    obtain ⟨_, known, -⟩ := ordered.closed before name after rfl
    unfold dependenciesOf at known
    obtain ⟨witness, found, -⟩ := map_eq_some_iff.mp known
    obtain ⟨isWitness, rfl⟩ := mem_of_named found
    obtain ⟨value, solved, isValue⟩ := solves witness isWitness
    refine ⟨value, ?_, isValue⟩
    unfold equation
    rw [found]
    exact solved

/-- **Evaluation is solving the equations.** In an order of a graph, evaluation ends exactly when there
are values that satisfy the equations of its witnesses. -/
theorem Order.valuesIn_iff
    (looks : Looks valueOf) : (∃ found, valuesIn valueOf graph.witnesses order = .ok found) ↔
      ∃ values, Solves valueOf graph values := by
  unfold valuesIn
  rw [Equations.fill_iff (equation_local looks graph.witnesses) ordered.closed ordered.nodup]
  exact exists_congr fun values => ordered.solution_iff distinct

/-- The values that evaluation finds satisfy the equations. -/
theorem Order.solves (looks : Looks valueOf)
    {found : List (String × V)} (ran : valuesIn valueOf graph.witnesses order = .ok found) :
    Solves valueOf graph fun name => found.lookup name :=
  (ordered.solution_iff distinct).mp (Equations.solution_of_fill (equation_local looks graph.witnesses)
    order [] ordered.closed ordered.nodup (fun _ inside => by cases inside) ran)

theorem Order.unique (looks : Looks valueOf) (one : Solves valueOf graph first)
    (other : Solves valueOf graph second) : ∀ name ∈ order, first name = second name :=
  Equations.Solution.unique (equation_local looks graph.witnesses) order [] ordered.closed
    ((ordered.solution_iff distinct).mpr one) ((ordered.solution_iff distinct).mpr other)
    fun _ inside => by cases inside

end

/-! ## The order of the witnesses in a graph -/

/-- What a witness is, without the line it is on. -/
def Witness.entry (witness : Witness V) : String × Term V := (witness.name, witness.term)

/-- Two graphs have the same witnesses, in any order and on any lines, and resolve the same. -/
structure Alike (first second : Graph V) : Prop where
  witnesses : (first.witnesses.map Witness.entry).Perm (second.witnesses.map Witness.entry)
  resolve : first.resolve = second.resolve

end Koschei.Kernel
