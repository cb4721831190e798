import Koschei.Kernel.Programs

/-!
# Cell sources

A source of `native_cell_realities_v1.py` has the witnesses of a value graph and up to
64 of them resolved. Its witnesses are ordered by one search from each resolved one,
in the order of their names, and evaluated as those of a value graph are: whichever
witnesses are resolved, every witness has the value that it has in a value graph.
-/

namespace Koschei.Kernel

open Lib Lib.DepthFirst

/-- `MAX_CELL_COUNT_V1`. -/
def maxCellCount : Nat := 64

/-- `NativeCellSourceV1`: the resolved names with their lines. -/
structure CellSource where
  witnesses : List (Witness NativeValue)
  resolves : List (String × Nat)

/-- `str(error)` of a `NativeValueDomainError`. -/
def Report.text (report : Report) : String :=
  report.code ++ " [line " ++ toString report.line ++ ", column " ++ toString report.column ++ "]: "
    ++ report.message

/-- `except NativeValueDomainError as error: raise NativeCellRealityError(str(error))`. -/
def asCell {α : Type} : Checked α → Checked α
  | .error (.value report) => .error (.cell report.text)
  | .error fault => .error fault
  | .ok value => .ok value

/-- One line of `_parse_cell_source`. -/
def readCellLine (host : Host) (draft : CellSource) (number : Nat) (line : String) :
    Checked CellSource :=
  let tokens := split ' ' line
  match legacySymbols.find? fun symbol => Inside symbol (grammarPrefix tokens line) with
  | some symbol =>
    .error (.cell ("legacy punctuation " ++ host.repr symbol ++ " is not native cell grammar"))
  | none =>
    match tokens with
    | [] => .error .index
    | head :: rest =>
      if head = "witness" then
        match rest with
        | identity :: word :: words => do
          let name ← asCell (valueName host identity number)
          let term ← asCell (valueTerm host (word :: words) number)
          raiseIf (name ∈ draft.witnesses.map Witness.name)
            (.cell ("duplicate witness identity " ++ host.repr name))
          let witnesses := draft.witnesses ++ [⟨name, term, number⟩]
          raiseIf (maxWitnesses < witnesses.length) (.cell "cell source exceeds 4096 witnesses")
          .ok { draft with witnesses := witnesses }
        | _ => .error (.cell "witness requires identity and term")
      else if head = "resolve" then
        match rest with
        | [identity] => do
          let name ← asCell (valueName host identity number)
          raiseIf (name ∈ draft.resolves.map fst)
            (.cell ("duplicate resolved cell witness " ++ host.repr name))
          let resolves := draft.resolves ++ [(name, number)]
          raiseIf (maxCellCount < resolves.length) (.cell "cell source exceeds 64 resolved cells")
          .ok { draft with resolves := resolves }
        | _ => .error (.cell "resolve requires exactly one witness identity")
      else if head ∈ legacyWords then
        .error (.cell ("legacy grammar word " ++ host.repr head ++ " is rejected"))
      else .error (.cell ("unknown native cell clause " ++ host.repr head))

/-- The lines one after the other. -/
def readCellLines (host : Host) : CellSource → Nat → List String → Checked CellSource
  | draft, _, [] => .ok draft
  | draft, number, line :: lines => do
    let draft ← readCellLine host draft number line
    readCellLines host draft (number + 1) lines

/-- `_parse_cell_source`. -/
def parseCellSource (host : Host) (source : String) : Checked CellSource := do
  let lines ← asCell (canonicalLines host source)
  let draft ← readCellLines host ⟨[], []⟩ 1 lines
  raiseIf (draft.witnesses = []) (.cell "native cell source must contain at least one witness")
  raiseIf (draft.resolves = []) (.cell "native cell source must resolve at least one cell witness")
  .ok draft

/-- One search after the other, from the roots that are not listed yet. -/
def searchRoots (host : Host) (witnesses : List (Witness NativeValue)) :
    Search String → List String → Checked (Search String)
  | search, [] => .ok search
  | search, root :: roots => do
    raiseIf (named witnesses root).isNone
      (.cell ("resolved cell references unknown witness " ++ host.repr root))
    if search.mark root = 2 then searchRoots host witnesses search roots
    else
      match (search.restart root).run (dependenciesOf witnesses) (rounds witnesses) with
      | .error (.missing name dependency) =>
        .error (.cell ("witness " ++ host.repr name ++ " references unknown witness "
          ++ host.repr dependency))
      | .error (.cycle _ _) => .error (.cell "native cell source contains a witness cycle")
      | .error (.unknown _) => .error .key
      | .error .fuel => .error .fuel
      | .ok search => searchRoots host witnesses search roots

/-- `_multi_dependency_order`. -/
def multiDependencyOrder (host : Host) (source : CellSource) (roots : List String) :
    Checked (List String) := do
  let search ← searchRoots host source.witnesses .empty (sortByKey id roots.dedup)
  let names := (source.witnesses.map Witness.name).dedup
  let dormant := sortByKey id (names.filter fun name => name ∉ search.reachable)
  raiseIf (dormant ≠ []) (.cell
    ("native cell source contains dormant witnesses outside the sealed cell reality: "
      ++ ", ".intercalate dormant))
  .ok search.ordered

/-- What `_evaluate_cell_source` says about operations. -/
def cellTexts (host : Host) : OperationTexts where
  coercion := fun operation _ => .cell (operation ++ " requires whole/whole and forbids coercion")
  overflow := fun operation _ => .cell (operation ++ " exceeds signed Int64 reality")
  crossDomain := fun _ => .cell "same requires identical value domains and forbids coercion"
  textual := fun _ => .cell "merge requires glyphs/glyphs and forbids textual coercion"
  budget := fun _ => .cell "merged glyphs exceeds result byte budget"
  unknown := fun operation _ => .cell ("unknown native cell operation " ++ host.repr operation)

/-- The value of a witness in `_evaluate_cell_source`. -/
def cellValue (host : Host) : Witness NativeValue → (String → Option NativeValue) →
    Checked NativeValue :=
  termValue fun witness => operate (cellTexts host) host.merged witness.line

/-- `_evaluate_cell_source`. -/
def evaluateCellSource (host : Host) (source : CellSource) (roots : List String) :
    Checked (List String × List (String × NativeValue)) := do
  let order ← multiDependencyOrder host source roots
  let values ← valuesIn (cellValue host) source.witnesses order
  .ok (order, values)

/-! ## What is read -/

section Reading

variable {host : Host}

theorem asCell_eq_ok {α : Type} {checked : Checked α} {value : α} :
    asCell checked = .ok value ↔ checked = .ok value := by
  unfold asCell
  split <;> simp

/-- What a parsed cell source is like. -/
structure CellSource.WellFormed (source : CellSource) : Prop where
  distinct : (source.witnesses.map Witness.name).Nodup
  terms : ∀ witness ∈ source.witnesses, ValueTerm witness.term

variable {draft after : CellSource} {number : Nat}

theorem wellFormed_readCellLine {line : String}
    (formed : draft.WellFormed) (ran : readCellLine host draft number line = .ok after) :
    after.WellFormed := by
  unfold readCellLine at ran
  dsimp only at ran
  split at ran
  · cases ran
  · split at ran
    · cases ran
    · split at ran
      · split at ran
        · obtain ⟨name, -, ran⟩ := bind_eq_ok ran
          obtain ⟨term, means, ran⟩ := bind_eq_ok ran
          obtain ⟨_, fresh, ran⟩ := bind_eq_ok ran
          obtain ⟨_, -, ran⟩ := bind_eq_ok ran
          cases ran
          constructor
          · rw [map_append]
            exact nodup_append.mpr ⟨formed.distinct, nodup_singleton _,
              fun other inside last isLast same => raiseIf_eq_ok fresh (by
                rw [same, mem_singleton.mp isLast] at inside
                exact inside)⟩
          · intro witness inside
            rcases mem_append.mp inside with inside | inside
            · exact formed.terms witness inside
            · rw [mem_singleton.mp inside]
              exact valueTerm_of_ok (asCell_eq_ok.mp means)
        · cases ran
      · split at ran
        · split at ran
          · obtain ⟨name, -, ran⟩ := bind_eq_ok ran
            obtain ⟨_, -, ran⟩ := bind_eq_ok ran
            obtain ⟨_, -, ran⟩ := bind_eq_ok ran
            cases ran
            exact ⟨formed.distinct, formed.terms⟩
          · cases ran
        · split at ran <;> cases ran

theorem wellFormed_readCellLines {lines : List String}
    (formed : draft.WellFormed) (ran : readCellLines host draft number lines = .ok after) :
    after.WellFormed := by
  induction lines generalizing draft number with
  | nil =>
    cases ran
    exact formed
  | cons line lines ih =>
    obtain ⟨between, first, ran⟩ := bind_eq_ok ran
    exact ih (wellFormed_readCellLine formed first) ran

theorem wellFormed_parseCellSource {text : String} {source : CellSource}
    (parsed : parseCellSource host text = .ok source) : source.WellFormed := by
  obtain ⟨lines, -, parsed⟩ := bind_eq_ok parsed
  obtain ⟨draft, ran, parsed⟩ := bind_eq_ok parsed
  obtain ⟨_, -, parsed⟩ := bind_eq_ok parsed
  obtain ⟨_, -, parsed⟩ := bind_eq_ok parsed
  cases parsed
  have none : CellSource.WellFormed ⟨[], []⟩ :=
    ⟨nodup_nil, fun witness inside => by cases inside⟩
  exact wellFormed_readCellLines none ran

end Reading

/-! ## Searches from several roots -/

section Searching

variable {host : Host} {witnesses : List (Witness NativeValue)}

theorem known_of_named {name : String} (known : ¬ (named witnesses name).isNone) :
    ∃ dependencies, dependenciesOf witnesses name = some dependencies := by
  unfold dependenciesOf
  cases found : named witnesses name with
  | none => exact absurd (by rw [found]; rfl) known
  | some witness => exact ⟨_, rfl⟩

variable {roots order : List String}

theorem searchRoots_sound {search after : Search String}
    (sound : search.Sound (dependenciesOf witnesses)) (empty : search.stack = [])
    (ran : searchRoots host witnesses search roots = .ok after) :
    after.Sound (dependenciesOf witnesses) ∧ after.stack = [] ∧
      (∀ name ∈ search.ordered, name ∈ after.ordered) ∧ ∀ root ∈ roots, root ∈ after.ordered := by
  induction roots generalizing search with
  | nil =>
    cases ran
    exact ⟨sound, empty, fun _ inside => inside, fun _ inside => by cases inside⟩
  | cons root roots ih =>
    obtain ⟨_, known, ran⟩ := bind_eq_ok ran
    split at ran
    · rename_i listed
      obtain ⟨sound', empty', kept, all⟩ := ih sound empty ran
      refine ⟨sound', empty', kept, fun name inside => ?_⟩
      rcases mem_cons.mp inside with rfl | inside
      · exact kept _ ((sound.listed _).mp listed)
      · exact all name inside
    · rename_i unlisted
      obtain ⟨dependencies, isKnown⟩ := known_of_named (raiseIf_eq_ok known)
      split at ran
      case h_5 between ranOne =>
        obtain ⟨sound', empty', holds⟩ :=
          Search.run_sound (Search.restart_sound sound empty unlisted isKnown) ranOne
        obtain ⟨sound'', empty'', kept, all⟩ := ih sound' empty' ran
        refine ⟨sound'', empty'', fun name inside => kept name (holds name (.inl inside)),
          fun name inside => ?_⟩
        rcases mem_cons.mp inside with rfl | inside
        · exact kept _ (holds _ (.inr mem_cons_self))
        · exact all name inside
      all_goals cases ran

theorem exists_searchRoots_eq_ok {search : Search String} {roots order : List String}
    (closed : Closed (dependenciesOf witnesses) order)
    (sound : search.Sound (dependenciesOf witnesses)) (empty : search.stack = [])
    (reaching : ∀ name, search.mark name ≠ 0 → name ∈ search.reachable)
    (enough : search.costs (dependenciesOf witnesses) (witnesses.map Witness.name) ≤ rounds witnesses)
    (inOrder : ∀ root ∈ roots, root ∈ order) :
    ∃ after, searchRoots host witnesses search roots = .ok after ∧
      ∀ name, after.mark name ≠ 0 → name ∈ after.reachable := by
  induction roots generalizing search with
  | nil => exact ⟨search, rfl, reaching⟩
  | cons root roots ih =>
    obtain ⟨dependencies, known, -⟩ := closed.before (inOrder root mem_cons_self)
    obtain ⟨witness, found, -⟩ := map_eq_some_iff.mp known
    have isKnown : ¬ (named witnesses root).isNone := by
      rw [found]
      exact false_ne_true
    have others : ∀ other ∈ roots, other ∈ order := (forall_mem_cons.mp inOrder).2
    rw [searchRoots, bind_raiseIf isKnown]
    by_cases listed : search.mark root = 2
    · rw [if_pos listed]
      exact ih sound empty reaching enough others
    · rw [if_neg listed]
      have fresh : search.mark root = 0 := by
        rcases sound.marked root with zero | one | two
        · exact zero
        · have stacked := sound.entered root one
          rw [empty] at stacked
          cases stacked
        · exact absurd two listed
      have sound' := Search.restart_sound sound empty listed known
      have all : ∀ name, (dependenciesOf witnesses name).isSome → name ∈ witnesses.map Witness.name :=
        fun name => mem_names_of_dependenciesOf
      have enough' : (search.restart root).costs (dependenciesOf witnesses)
          (witnesses.map Witness.name) ≤ rounds witnesses := by
        rw [Search.costs_restart empty fresh]
        exact enough
      have climbs : (search.restart root).Climbs order := ⟨fun entry inside => by
          rw [mem_singleton.mp inside]
          exact inOrder root mem_cons_self, pairwise_singleton _ _⟩
      obtain ⟨after, ran⟩ := Search.exists_run_eq_ok closed sound' climbs
        (Search.restart_within search root) all enough'
      obtain ⟨sound'', empty'', -⟩ := Search.run_sound sound' ran
      have fewer := Search.run_costs sound' (Search.restart_within search root) all ran
      rw [ran]
      exact ih sound'' empty'' (Search.run_reaching sound' ran reaching) (by omega) others

variable {graph : Graph NativeValue} {source : CellSource}

/-- An order of a cell source is one of each value graph with its witnesses that resolves one of its
roots. -/
theorem order_of_multiDependencyOrder (ordered : multiDependencyOrder host source roots = .ok order)
    (same : graph.witnesses = source.witnesses)
    (resolved : ∃ witness ∈ graph.witnesses, witness.name = graph.resolve) : Order graph order := by
  obtain ⟨search, ran, ordered⟩ := bind_eq_ok ordered
  obtain ⟨_, active, made⟩ := bind_eq_ok ordered
  cases made
  obtain ⟨sound, empty, -, -⟩ := searchRoots_sound Search.empty_sound rfl ran
  have all : ∀ witness ∈ graph.witnesses, witness.name ∈ search.ordered := by
    intro witness inside
    have reached : witness.name ∈ search.reachable := by
      by_contra unreached
      have dormant : witness.name ∈ (source.witnesses.map Witness.name).dedup.filter
          fun name => name ∉ search.reachable :=
        mem_filter.mpr ⟨mem_dedup.mpr (mem_map_of_mem (same ▸ inside)), decide_eq_true unreached⟩
      have listed := (sortByKey_perm id _).mem_iff.mpr dormant
      rw [not_not.mp (raiseIf_eq_ok active)] at listed
      cases listed
    exact sound.reached_listed empty reached
  obtain ⟨witness, inside, isResolve⟩ := resolved
  exact ⟨same ▸ sound.closed, sound.nodup, isResolve ▸ all witness inside, all⟩

/-- Where a value graph is ordered, so is a cell source with its witnesses that has its root. -/
theorem exists_multiDependencyOrder (distinct : (source.witnesses.map Witness.name).Nodup)
    (ordered : orderOf (valueOrderTexts host) graph = .ok order)
    (same : graph.witnesses = source.witnesses) (among : graph.resolve ∈ roots)
    (known : ∀ root ∈ roots, ∃ witness ∈ source.witnesses, witness.name = root) :
    ∃ other, multiDependencyOrder host source roots = .ok other := by
  have isOrder := order_of_orderOf ordered
  have closed : Closed (dependenciesOf source.witnesses) order := same ▸ isOrder.closed
  have inOrder : ∀ root ∈ sortByKey id roots.dedup, root ∈ order := by
    intro root inside
    obtain ⟨witness, member, rfl⟩ :=
      known root (mem_dedup.mp ((sortByKey_perm id _).mem_iff.mp inside))
    exact isOrder.all witness (same ▸ member)
  obtain ⟨search, ran, reaching⟩ := @exists_searchRoots_eq_ok host source.witnesses Search.empty _ order
    closed Search.empty_sound rfl (fun name marked => absurd rfl marked)
    (le_of_eq (by rw [Search.costs_empty, rounds_eq distinct])) inOrder
  obtain ⟨sound, empty, -, roots'⟩ := searchRoots_sound Search.empty_sound rfl ran
  have resolve : graph.resolve ∈ search.ordered :=
    roots' _ ((sortByKey_perm id _).mem_iff.mpr (mem_dedup.mpr among))
  -- What the search of the graph lists is reached from its root, and so are the cells.
  have all : ∀ name ∈ order, name ∈ search.ordered :=
    @mem_of_orderOf _ _ _ _ ordered (fun name => name ∈ search.ordered) resolve (by
      intro name dependencies isKnown inside dependency needed
      rw [same] at isKnown
      obtain ⟨theirs, isTheirs, before⟩ := sound.closed.before inside
      cases isKnown.symm.trans isTheirs
      exact (before dependency needed).1)
  refine ⟨search.ordered, (bind_of_ok ran).trans (bind_raiseIf ?_)⟩
  refine not_not.mpr (List.eq_nil_of_length_eq_zero ?_)
  rw [(sortByKey_perm id _).length_eq, length_eq_zero_iff, filter_eq_nil_iff]
  intro name inside
  rw [decide_eq_true_eq, not_not]
  obtain ⟨witness, member, rfl⟩ := mem_map.mp (mem_dedup.mp inside)
  refine reaching _ ?_
  have listed := (sound.listed _).mpr (all _ (isOrder.all witness (same ▸ member)))
  omega

end Searching

/-! ## Cells have the values of value graphs -/

/-- **Cells are evaluated as value graphs are.** For a value graph with the witnesses of a cell source
that is ordered and whose resolved witness is among the roots, both evaluators end or neither does,
and they give every witness the same value. -/
theorem evaluateCellSource_agrees {host : Host} {source : CellSource} (formed : source.WellFormed)
    {graph : Graph NativeValue} (same : graph.witnesses = source.witnesses) {order : List String}
    (ordered : dependencyOrderValueGraph host graph = .ok order) {roots : List String}
    (among : graph.resolve ∈ roots)
    (known : ∀ root ∈ roots, ∃ witness ∈ source.witnesses, witness.name = root) :
    ((∃ result, evaluateCellSource host source roots = .ok result) ↔
        ∃ values, evaluateNativeValueGraph host graph = .ok values) ∧
      ∀ cells values names, evaluateCellSource host source roots = .ok (names, cells) →
        evaluateNativeValueGraph host graph = .ok values →
          ∀ witness ∈ source.witnesses, cells.lookup witness.name = values.lookup witness.name := by
  have isOrder := order_of_orderOf ordered
  have distinct : (graph.witnesses.map Witness.name).Nodup := same ▸ formed.distinct
  have terms : ∀ witness ∈ graph.witnesses, ValueTerm witness.term := same ▸ formed.terms
  obtain ⟨names, isMulti⟩ := exists_multiDependencyOrder formed.distinct ordered same among known
  have cellOrder := order_of_multiDependencyOrder isMulti same isOrder.resolve_named
  have cellLooks : Looks (cellValue host) := termValue_looks _
  have looks : Looks (canonicalValue host) := termValue_looks _
  have follows : Follows (cellValue host) (valueMeaning host.merged) graph.witnesses :=
    termValue_follows (fun _ _ _ _ _ => operate_eq_ok) fun witness inside => (terms witness inside).binary
  have runs : ∀ values, valuesIn (cellValue host) graph.witnesses names = .ok values →
      evaluateCellSource host source roots = .ok (names, values) := fun values ran =>
    (bind_of_ok isMulti).trans (bind_of_ok (same ▸ ran))
  have solvable : (∃ values, Solves (cellValue host) graph values) ↔
      ∃ values, Solves (canonicalValue host) graph values := exists_congr fun values =>
    (follows.solves_iff).trans (canonicalValue_follows terms).solves_iff.symm
  have evaluate : ∀ values, evaluateNativeValueGraph host graph = .ok values ↔
      valuesIn (canonicalValue host) graph.witnesses order = .ok values := by
    intro values
    unfold evaluateNativeValueGraph
    rw [bind_of_ok ordered]
  constructor
  · simp only [evaluate]
    rw [isOrder.valuesIn_iff distinct looks, ← solvable, ← cellOrder.valuesIn_iff distinct cellLooks]
    constructor
    · rintro ⟨⟨_, values⟩, ran⟩
      obtain ⟨others, isOthers, ran⟩ := bind_eq_ok ran
      cases isMulti.symm.trans isOthers
      obtain ⟨found, ran, made⟩ := bind_eq_ok ran
      exact ⟨found, same ▸ ran⟩
    · rintro ⟨values, ran⟩
      exact ⟨_, runs values ran⟩
  · intro cells values others ran evaluated witness inside
    obtain ⟨_, isOthers, ran⟩ := bind_eq_ok ran
    cases isMulti.symm.trans isOthers
    obtain ⟨found, ran, made⟩ := bind_eq_ok ran
    cases made
    have one := cellOrder.solves distinct cellLooks (same ▸ ran)
    have other := isOrder.solves distinct looks ((evaluate values).mp evaluated)
    have other' := follows.solves_iff.mpr ((canonicalValue_follows terms).solves_iff.mp other)
    exact cellOrder.unique distinct cellLooks one other' _ (cellOrder.all witness (same ▸ inside))

end Koschei.Kernel
