import Koschei.Kernel.Cells
import Koschei.Kernel.Ir
import Koschei.Kernel.Lines

/-!
# Executing what was admitted

What the executors of native IR give for a graph that the evaluators accept: the value
of the graph, when every text that a running `merge` joins is in normal form as it is.
Cells are evaluated as value graphs are.
-/

namespace Koschei.Kernel

open Lib Lib.DepthFirst

section Conditions

variable {host : Host} {graph : Graph NativeValue} {order : List String}
  {values : List (String × NativeValue)}

/-- Every `merge` of a value graph joins two texts whose concatenation is in normal form. -/
def MergesNormally (host : Host) (graph : Graph NativeValue) : Prop :=
  ∀ values, Model (valueMeaning host.merged) graph values →
    ∀ witness ∈ graph.witnesses, JoinsNormally host values witness.term

/-- Every `merge` of a decision graph that runs joins two texts whose concatenation is in normal
form. -/
def ActiveMergesNormally (host : Host) (graph : Graph NativeValue) : Prop :=
  ∀ values, Model (decisionMeaning host.merged) graph values →
    ∀ witness ∈ graph.witnesses, Runs graph values witness.name → JoinsNormally host values witness.term

variable {first second : String → Option NativeValue}

theorem atomDenotes_congr {atom : Atom NativeValue}
    (agree : ∀ name, atom = .witness name → first name = second name) {value : NativeValue}
    (denotes : AtomDenotes first atom value) : AtomDenotes second atom value := by
  rw [← atomValue_eq_ok] at denotes ⊢
  rwa [← atomValue_congr agree]

variable {witness : Witness NativeValue}

theorem joinsNormally_congr (agree : ∀ name ∈ dependencies witness, first name = second name)
    (normal : JoinsNormally host first witness.term) : JoinsNormally host second witness.term := by
  intro one other left right isMerge isLeft isRight
  have back : ∀ atom ∈ [one, other], ∀ value, AtomDenotes second atom value → AtomDenotes first atom value := by
    intro atom inside value denotes
    refine atomDenotes_congr (fun name isName => ?_) denotes
    refine (agree name (mem_dependencies.mpr ?_)).symm
    rw [isMerge, ← isName]
    exact inside
  exact normal one other left right isMerge (back one mem_cons_self _ isLeft)
    (back other (mem_cons_of_mem _ mem_cons_self) _ isRight)

theorem activeAtoms_congr (agree : ∀ name ∈ dependencies witness, first name = second name) :
    activeAtoms first witness = activeAtoms second witness := by
  unfold activeAtoms selectedAtoms
  split
  · split
    · rename_i condition affirmative negative atoms
      rw [atomValue_congr fun name isName => agree name (mem_dependencies.mpr (by
        rw [atoms, ← isName]
        exact mem_cons_self))]
    · rfl
  · rfl

section

variable (distinct : (graph.witnesses.map Witness.name).Nodup)

include distinct

theorem activeNext_congr (ordered : Order graph order)
    (agree : ∀ name ∈ order, first name = second name) : activeNext graph first = activeNext graph second := by
  funext name
  unfold activeNext witnessOf Graph.byName
  cases found : named graph.witnesses name with
  | none => rfl
  | some witness =>
    have same := activeAtoms_congr fun other needed =>
      agree other (ordered.dependencies_mem distinct (mem_of_named found).1 needed)
    exact congrArg (· >>= fun atoms => .ok (witnessNames atoms)) same

theorem mergesNormally_iff (ordered : dependencyOrderValueGraph host graph = .ok order)
    (terms : ∀ witness ∈ graph.witnesses, ValueTerm witness.term)
    (evaluated : evaluateNativeValueGraph host graph = .ok values) :
    MergesNormally host graph ↔ ∀ witness ∈ graph.witnesses,
      JoinsNormally host (fun name => values.lookup name) witness.term := by
  have isOrder := order_of_orderOf ordered
  have model := model_of_evaluate terms ordered distinct evaluated
  have looks : Looks (canonicalValue host) := termValue_looks _
  constructor
  · exact fun normal => normal _ model
  · intro normal other isModel witness inside
    refine joinsNormally_congr (fun name needed => ?_) (normal witness inside)
    exact isOrder.model_unique distinct looks (canonicalValue_follows terms) model isModel name
      (isOrder.dependencies_mem distinct inside needed)

theorem activeMergesNormally_iff (ordered : dependencyOrderValueGraph host graph = .ok order)
    (terms : ∀ witness ∈ graph.witnesses, DecisionTerm witness.term)
    (evaluated : evaluateNativeDecisionGraph host graph = .ok values) :
    ActiveMergesNormally host graph ↔ ∀ witness ∈ graph.witnesses,
      Runs graph (fun name => values.lookup name) witness.name →
        JoinsNormally host (fun name => values.lookup name) witness.term := by
  have isOrder := order_of_orderOf ordered
  have model := model_of_evaluateDecision ordered distinct terms evaluated
  constructor
  · exact fun normal => normal _ model
  · intro normal other isModel witness inside runs
    have agree := isOrder.model_unique distinct decisionValue_looks (decisionValue_follows terms) model
      isModel
    have isRunning : Runs graph (fun name => values.lookup name) witness.name := by
      unfold Runs
      rwa [activeNext_congr distinct isOrder agree]
    exact joinsNormally_congr (fun name needed => agree name
      (isOrder.dependencies_mem distinct inside needed)) (normal witness inside isRunning)

end

end Conditions

/-- A text with each `e` and the combining acute accent after it composed. -/
def compose : List Char → List Char
  | [] => []
  | 'e' :: '\u0301' :: text => '\u00e9' :: compose text
  | c :: text => c :: compose text

/-- A host whose normal form composes one letter with one accent. -/
def composingHost : Host :=
  ⟨fun text => "'" ++ text ++ "'", fun text => ofList (compose text.toList)⟩

theorem length_compose (text : List Char) : (compose text).length ≤ text.length := by
  induction text using compose.induct with
  | case1 => exact Nat.le_refl _
  | case2 text ih =>
    rw [compose, length_cons, length_cons, length_cons]
    omega
  | case3 c text apart ih =>
    rw [compose, length_cons, length_cons]
    · omega
    · exact apart

theorem compose_newline (before after : List Char) :
    compose (before ++ '\n' :: after) = compose before ++ '\n' :: compose after := by
  induction before using compose.induct with
  | case1 =>
    rw [nil_append, compose, compose]
    · rfl
    · intro _ same
      cases same
  | case2 text ih =>
    rw [cons_append, cons_append, compose, compose, ih, cons_append]
  | case3 c text apart ih =>
    rw [cons_append, compose, compose, ih, cons_append]
    · exact apart
    · intro rest isE isRest
      cases text with
      | nil => cases isRest
      | cons d text =>
        cases isRest
        exact apart text isE rfl

theorem compose_ascii {text : List Char} (ascii : ∀ c ∈ text, c.toNat < 128) : compose text = text := by
  induction text using compose.induct with
  | case1 => rfl
  | case2 text ih =>
    exact absurd (ascii '\u0301' (mem_cons_of_mem _ mem_cons_self)) (by decide)
  | case3 c text apart ih =>
    rw [compose, ih (forall_mem_cons.mp ascii).2]
    exact apart

theorem composingHost_normalizes : composingHost.Normalizes where
  ascii := fun text ascii => (congrArg ofList (compose_ascii ascii)).trans ofList_toList
  newline := by
    intro before after
    have same : ∀ text : String, composingHost.normalize text = text ↔ compose text.toList = text.toList :=
      fun text => by
        constructor
        · intro same
          have lists := congrArg toList same
          rwa [show (composingHost.normalize text).toList = compose text.toList from
            toList_ofList] at lists
        · exact fun same => (congrArg ofList same).trans ofList_toList
    rw [same, same, same]
    have parts : (before ++ "\n" ++ after).toList = before.toList ++ '\n' :: after.toList := by
      simp
    rw [parts, compose_newline]
    constructor
    · intro equal
      have one := length_compose before.toList
      have other := length_compose after.toList
      have lengths := congrArg List.length equal
      rw [length_append, length_append, length_cons, length_cons] at lengths
      obtain ⟨first, second⟩ := append_inj equal (by omega)
      exact ⟨first, (cons.inj second).2⟩
    · rintro ⟨first, second⟩
      rw [first, second]

/-- The lines of a source that merges a letter and its accent. -/
def composingLines : List String :=
  ["witness a glyphs 1 e", "witness b glyphs 2 \u0301", "witness c merge a b", "resolve c"]

/-- The graph of the source. -/
def composingGraph : Graph NativeValue where
  witnesses := [⟨"a", ⟨none, [.literal (.glyphs "e")]⟩, 1⟩,
    ⟨"b", ⟨none, [.literal (.glyphs "\u0301")]⟩, 2⟩,
    ⟨"c", ⟨some "merge", [.witness "a", .witness "b"]⟩, 3⟩]
  resolve := "c"
  resolveLine := 4

theorem valueLine_of_all {line : String} (visible : line ≠ "")
    (all : (line.toList.all fun c => c ∉ bidiControls ∧ c ≠ '\x00' ∧ c ≠ '\r' ∧ c ≠ '\t' ∧ c ≠ '\n' ∧
      ¬ (c.toNat < 32 ∨ 127 ≤ c.toNat ∧ c.toNat ≤ 159)) = true)
    (normal : composingHost.normalize line = line) (tight : line = stripped line)
    (single : ¬ Inside "  " line) : ValueLine composingHost line := by
  have each := fun c inside => of_decide_eq_true (all_eq_true.mp all c inside)
  exact ⟨visible, fun c inside => (each c inside).1,
    fun c inside => ⟨(each c inside).2.1, (each c inside).2.2.1, (each c inside).2.2.2.1,
      (each c inside).2.2.2.2.1⟩, normal, tight, single, fun c inside => (each c inside).2.2.2.2.2⟩

theorem canonical_composing : canonicalLines composingHost (textOf composingLines) = .ok composingLines := by
  refine (canonicalLines_eq_ok composingHost_normalizes).mpr
    ⟨rfl, cons_ne_nil _ _, fun line inside => ?_, by decide⟩
  rcases mem_cons.mp inside with rfl | inside
  · exact valueLine_of_all (by decide) (by decide) (by decide) (by decide) (by decide)
  · rcases mem_cons.mp inside with rfl | inside
    · exact valueLine_of_all (by decide) (by decide) (by decide) (by decide) (by decide)
    · rcases mem_cons.mp inside with rfl | inside
      · exact valueLine_of_all (by decide) (by decide) (by decide) (by decide) (by decide)
      · rw [mem_singleton.mp inside]
        exact valueLine_of_all (by decide) (by decide) (by decide) (by decide) (by decide)

theorem reads_composing :
    ∀ grammar ∈ [valueGrammar composingHost, decisionGrammar composingHost],
      Forall₂ grammar.Reads composingLines [.witness "a" ⟨none, [.literal (.glyphs "e")]⟩,
        .witness "b" ⟨none, [.literal (.glyphs "\u0301")]⟩,
        .witness "c" ⟨some "merge", [.witness "a", .witness "b"]⟩, .resolve "c"] := by
  intro grammar inside
  rcases List.mem_pair.mp inside with rfl | rfl
  all_goals
    refine .cons (@Grammar.Reads.witness _ _ _ "a" "glyphs" "a" _ _ 1 (by decide) rfl rfl rfl) ?_
    refine .cons (@Grammar.Reads.witness _ _ _ "b" "glyphs" "b" _ _ 1 (by decide) rfl rfl rfl) ?_
    refine .cons (@Grammar.Reads.witness _ _ _ "c" "merge" "c" _ _ 1 (by decide) rfl rfl rfl) ?_
    exact .cons (@Grammar.Reads.resolve _ _ _ "c" "c" 1 (by decide) rfl rfl) .nil

theorem parsed_composing :
    parseNativeValueGraph composingHost (textOf composingLines) = .ok composingGraph :=
  (bind_of_ok canonical_composing).trans ((Grammar.parse_eq_ok valueGrammar_uniform).mpr
    ⟨_, reads_composing _ mem_cons_self, rfl, rfl, by decide, by decide, cons_ne_nil _ _, _, rfl⟩)

theorem parsed_composing_decision :
    parseNativeDecisionGraph composingHost (textOf composingLines) = .ok composingGraph :=
  (bind_of_ok (asDecision_eq_ok.mpr canonical_composing)).trans
    ((Grammar.parse_eq_ok decisionGrammar_uniform).mpr ⟨_, reads_composing _ (by simp), rfl, rfl,
      by decide, by decide, cons_ne_nil _ _, _, rfl⟩)

/-- The values of the graph: the text that is merged is composed. -/
def composingValues : List (String × NativeValue) :=
  [("c", .glyphs "\u00e9"), ("b", .glyphs "\u0301"), ("a", .glyphs "e")]

/-- What the graph is lowered to. -/
def composingIr : IrReality :=
  ⟨[⟨"a", none, [.literal (.glyphs "e")]⟩, ⟨"b", none, [.literal (.glyphs "\u0301")]⟩,
    ⟨"c", some "merge", [.witness "a", .witness "b"]⟩], "c"⟩

end Koschei.Kernel
