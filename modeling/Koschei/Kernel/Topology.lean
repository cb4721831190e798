import Koschei.Kernel.Cells
import Koschei.Lib.Reachability

/-!
# The order of witnesses is topological

Kernels, value graphs and cell sources order their witnesses by searches from what they
resolve. With unique names the searches end; what they list is every witness once, each
after the witnesses it references, and they fail exactly for what the references show:
something that is reached and does not exist, a cycle that is reached, or a witness that
is not.
-/

namespace Koschei.Kernel

open Lib Lib.DepthFirst

variable {V : Type}

/-- The result of ordering some names: a topological order of all of them, or a failure that the
references explain. -/
structure Sorts (result : Checked (List String)) (next : String → Option (List String))
    (roots names : List String) : Prop where
  returned : ∀ order, result = .ok order → Topological next roots order ∧
    ∀ name, name ∈ order ↔ name ∈ names
  fails : (∃ fault, result = .error fault) ↔
    Broken next roots ∨ ∃ name ∈ names, ¬ Reachable next roots name
  told : ∀ fault, result = .error fault → fault ≠ .key ∧ fault ≠ .fuel

variable {witnesses : List (Witness V)} {name : String}

theorem isSome_of_mem_names (distinct : (witnesses.map Witness.name).Nodup)
    (inside : name ∈ witnesses.map Witness.name) : (dependenciesOf witnesses name).isSome := by
  obtain ⟨witness, member, rfl⟩ := mem_map.mp inside
  unfold dependenciesOf
  rw [named_of_mem distinct member]
  rfl

theorem isSome_of_named
    (known : ¬ (named witnesses name).isNone) : (dependenciesOf witnesses name).isSome := by
  unfold dependenciesOf
  rw [isSome_map]
  rwa [← Option.not_isSome, not_eq_true, Bool.not_eq_false'] at known

theorem sorts_of_cases (distinct : (witnesses.map Witness.name).Nodup)
    {result : Checked (List String)} {roots : List String}
    (ok : ∀ order, result = .ok order → Topological (dependenciesOf witnesses) roots order ∧
      ∀ name, name ∈ order ↔ name ∈ witnesses.map Witness.name)
    (error : ∀ fault, result = .error fault → (fault ≠ .key ∧ fault ≠ .fuel) ∧
      (Broken (dependenciesOf witnesses) roots ∨
        ∃ name ∈ witnesses.map Witness.name, ¬ Reachable (dependenciesOf witnesses) roots name)) :
    Sorts result (dependenciesOf witnesses) roots (witnesses.map Witness.name) where
  returned := ok
  told fault failed := (error fault failed).1
  fails := by
    refine ⟨fun ⟨fault, failed⟩ => (error fault failed).2, fun reason => ?_⟩
    cases isResult : result with
    | error fault => exact ⟨fault, rfl⟩
    | ok order =>
      obtain ⟨sorted, members⟩ := ok order isResult
      rcases reason with broken | ⟨name, inside, unreached⟩
      · exact absurd broken (sorted.not_broken fun name inside =>
          isSome_of_mem_names distinct ((members name).mp inside))
      · exact absurd ((sorted.members name).mp ((members name).mpr inside)) unreached

section Explored

variable {witnesses : List (Witness V)} {search : Search String} {roots : List String}

theorem topological_of_awake (explored : search.Explored (dependenciesOf witnesses) roots)
    (all : ∀ root ∈ roots, root ∈ search.ordered)
    (awake : ∀ name ∈ witnesses.map Witness.name, name ∈ search.reachable) :
    Topological (dependenciesOf witnesses) roots search.ordered ∧
      ∀ name, name ∈ search.ordered ↔ name ∈ witnesses.map Witness.name := by
  obtain ⟨sorted, reached⟩ := explored.topological all
  refine ⟨sorted, fun name => ⟨fun inside => ?_, fun inside => ?_⟩⟩
  · obtain ⟨dependencies, known, -⟩ := explored.sound.closed.before inside
    exact mem_names_of_dependenciesOf (by rw [known]; rfl)
  · exact (sorted.members name).mpr ((reached name).mp (awake name inside))

theorem unreachable_of_dormant (explored : search.Explored (dependenciesOf witnesses) roots)
    (all : ∀ root ∈ roots, root ∈ search.ordered)
    (dormant : name ∈ (witnesses.map Witness.name).dedup.filter fun name => name ∉ search.reachable) :
    ∃ name ∈ witnesses.map Witness.name, ¬ Reachable (dependenciesOf witnesses) roots name := by
  obtain ⟨inside, unreached⟩ := mem_filter.mp dormant
  exact ⟨name, mem_dedup.mp inside, fun reached =>
    of_decide_eq_true unreached (((explored.topological all).2 name).mpr reached)⟩

theorem awake_of_no_dormant
    (none : (witnesses.map Witness.name).dedup.filter (fun name => name ∉ search.reachable) = []) :
    ∀ name ∈ witnesses.map Witness.name, name ∈ search.reachable := by
  intro name inside
  have reached := filter_eq_nil_iff.mp none name (mem_dedup.mpr inside)
  rwa [decide_eq_true_eq, not_not] at reached

end Explored

/-! ## Graphs -/

/-- The order of a graph with unique names sorts its witnesses from the one it resolves. -/
theorem orderOf_sorts {texts : OrderTexts}
    (told : ∀ report, texts.fault report ≠ .key ∧ texts.fault report ≠ .fuel) {graph : Graph V}
    (distinct : (graph.witnesses.map Witness.name).Nodup) :
    Sorts (orderOf texts graph) (dependenciesOf graph.witnesses) [graph.resolve]
      (graph.witnesses.map Witness.name) := by
  have explored : (Search.empty : Search String).Explored (dependenciesOf graph.witnesses)
      [graph.resolve] := Search.empty_explored _
  have all : ∀ name, (dependenciesOf graph.witnesses name).isSome →
      name ∈ graph.witnesses.map Witness.name := fun name => mem_names_of_dependenciesOf
  have enough : (Search.empty : Search String).costs (dependenciesOf graph.witnesses)
      (graph.witnesses.map Witness.name) ≤ rounds graph.witnesses := by
    rw [Search.costs_empty, rounds_eq distinct]
  have unlisted : (Search.empty : Search String).mark graph.resolve ≠ 2 := by
    intro listed
    cases listed
  have ends : ∀ search : Search String, (Search.start graph.resolve).run
      (dependenciesOf graph.witnesses) (rounds graph.witnesses) = .ok search →
        (dependenciesOf graph.witnesses graph.resolve).isSome →
          search.Explored (dependenciesOf graph.witnesses) [graph.resolve] ∧
            ∀ root ∈ [graph.resolve], root ∈ search.ordered := by
    intro search ran known
    obtain ⟨done, -, listed⟩ := explored.run mem_cons_self unlisted known ran
    exact ⟨done, fun root inside => mem_singleton.mp inside ▸ listed⟩
  refine sorts_of_cases distinct (fun order ordered => ?_) fun fault failed => ?_
  · unfold orderOf at ordered
    split at ordered
    · cases ordered
    · rename_i known
      split at ordered
      case h_5 search ran =>
        obtain ⟨done, listed⟩ := ends search ran (isSome_of_named known)
        dsimp only at ordered
        split at ordered
        · rename_i none
          cases ordered
          exact topological_of_awake done listed (awake_of_no_dormant none)
        · cases ordered
      all_goals cases ordered
  · unfold orderOf at failed
    split at failed
    · rename_i unknown
      cases failed
      refine ⟨told _, .inl (.missing (.root mem_cons_self) ?_)⟩
      exact Option.map_eq_none_iff.mpr (isNone_iff_eq_none.mp unknown)
    · rename_i known
      have stops := fun stop => @Search.Explored.stops _ _ _ stop Search.empty [graph.resolve]
        graph.resolve (rounds graph.witnesses) explored _ mem_cons_self unlisted (isSome_of_named known) all
        enough
      split at failed
      · rename_i stopped
        cases failed
        exact ⟨told _, .inl (stops _ stopped).2.2⟩
      · rename_i stopped
        cases failed
        exact ⟨told _, .inl (stops _ stopped).2.2⟩
      · rename_i stopped
        exact absurd rfl ((stops _ stopped).2.1 _)
      · rename_i stopped
        exact absurd rfl (stops _ stopped).1
      · rename_i search ran
        obtain ⟨done, listed⟩ := ends search ran (isSome_of_named known)
        dsimp only at failed
        split at failed
        · cases failed
        · rename_i first others dormant
          cases failed
          exact ⟨told _, .inr (unreachable_of_dormant done listed (by
            rw [dormant]
            exact mem_cons_self))⟩

/-! ## Cell sources -/

section Cells

variable {host : Host} {witnesses : List (Witness NativeValue)}

/-- Searches from several roots end explored, or stop at something broken. -/
theorem searchRoots_explores {search : Search String} {roots rest : List String}
    (explored : search.Explored (dependenciesOf witnesses) roots)
    (enough : search.costs (dependenciesOf witnesses) (witnesses.map Witness.name) ≤ rounds witnesses)
    (among : ∀ root ∈ rest, root ∈ roots) :
    (∀ after, searchRoots host witnesses search rest = .ok after →
      after.Explored (dependenciesOf witnesses) roots ∧ search.ordered ⊆ after.ordered ∧
        ∀ root ∈ rest, root ∈ after.ordered) ∧
      ∀ fault, searchRoots host witnesses search rest = .error fault →
        (fault ≠ .key ∧ fault ≠ .fuel) ∧ Broken (dependenciesOf witnesses) roots := by
  induction rest generalizing search with
  | nil =>
    refine ⟨fun after ran => ?_, fun fault failed => by cases failed⟩
    cases ran
    exact ⟨explored, fun _ inside => inside, fun _ inside => by cases inside⟩
  | cons root rest ih =>
    have isRoot := among root mem_cons_self
    have others : ∀ other ∈ rest, other ∈ roots := (forall_mem_cons.mp among).2
    have all : ∀ name, (dependenciesOf witnesses name).isSome → name ∈ witnesses.map Witness.name :=
      fun name => mem_names_of_dependenciesOf
    rw [searchRoots]
    by_cases unknown : (named witnesses root).isNone = true
    · unfold raiseIf
      rw [if_pos unknown]
      refine ⟨fun after ran => (by cases ran), fun fault failed => ?_⟩
      cases failed
      exact ⟨⟨by rintro ⟨⟩, by rintro ⟨⟩⟩,
        .missing (.root isRoot) (Option.map_eq_none_iff.mpr (isNone_iff_eq_none.mp unknown))⟩
    rw [bind_raiseIf unknown]
    have known := isSome_of_named unknown
    by_cases listed : search.mark root = 2
    · rw [if_pos listed]
      obtain ⟨ok, error⟩ := ih explored enough others
      refine ⟨fun after ran => ?_, error⟩
      obtain ⟨done, kept, roots'⟩ := ok after ran
      exact ⟨done, kept, forall_mem_cons.mpr ⟨kept ((explored.sound.listed _).mp listed), roots'⟩⟩
    rw [if_neg listed]
    have stops := fun stop => @Search.Explored.stops _ _ _ stop search roots root (rounds witnesses)
      explored _ isRoot listed known all enough
    cases ran : (search.restart root).run (dependenciesOf witnesses) (rounds witnesses) with
    | error stop =>
      obtain ⟨ends, isKnown, broken⟩ := stops stop ran
      cases stop with
      | unknown name => exact absurd rfl (isKnown name)
      | fuel => exact absurd rfl ends
      | missing name dependency =>
        refine ⟨fun after ran => (by cases ran), fun fault failed => ?_⟩
        cases failed
        exact ⟨⟨by rintro ⟨⟩, by rintro ⟨⟩⟩, broken⟩
      | cycle path dependency =>
        refine ⟨fun after ran => (by cases ran), fun fault failed => ?_⟩
        cases failed
        exact ⟨⟨by rintro ⟨⟩, by rintro ⟨⟩⟩, broken⟩
    | ok between =>
      obtain ⟨done, kept, isListed⟩ := explored.run isRoot listed known ran
      obtain ⟨ok, error⟩ := ih done ((explored.costs listed known all ran).trans enough) others
      refine ⟨fun after ran => ?_, error⟩
      obtain ⟨done', kept', roots'⟩ := ok after ran
      exact ⟨done', Subset.trans kept kept', forall_mem_cons.mpr ⟨kept' isListed, roots'⟩⟩

theorem multiDependencyOrder_sorts {source : CellSource}
    (distinct : (source.witnesses.map Witness.name).Nodup) (roots : List String) :
    Sorts (multiDependencyOrder host source roots) (dependenciesOf source.witnesses) roots
      (source.witnesses.map Witness.name) := by
  have inside : ∀ root, root ∈ sortByKey id roots.dedup ↔ root ∈ roots := fun root =>
    (sortByKey_perm id _).mem_iff.trans mem_dedup
  have enough : (Search.empty : Search String).costs (dependenciesOf source.witnesses)
      (source.witnesses.map Witness.name) ≤ rounds source.witnesses := by
    rw [Search.costs_empty, rounds_eq distinct]
  obtain ⟨ok, error⟩ := @searchRoots_explores host source.witnesses Search.empty roots
    (sortByKey id roots.dedup) (Search.empty_explored _) enough fun root isRoot => (inside root).mp isRoot
  have ends : ∀ search, searchRoots host source.witnesses Search.empty (sortByKey id roots.dedup) =
      .ok search → search.Explored (dependenciesOf source.witnesses) roots ∧
        ∀ root ∈ roots, root ∈ search.ordered := by
    intro search ran
    obtain ⟨done, -, listed⟩ := ok search ran
    exact ⟨done, fun root isRoot => listed root ((inside root).mpr isRoot)⟩
  have none : ∀ search : Search String, sortByKey id ((source.witnesses.map Witness.name).dedup.filter
      fun name => name ∉ search.reachable) = [] ↔ (source.witnesses.map Witness.name).dedup.filter
          (fun name => name ∉ search.reachable) = [] := by
    intro search
    rw [← length_eq_zero_iff, (sortByKey_perm id _).length_eq, length_eq_zero_iff]
  refine sorts_of_cases distinct (fun order ordered => ?_) fun fault failed => ?_
  · obtain ⟨search, ran, ordered⟩ := bind_eq_ok ordered
    obtain ⟨_, awake, made⟩ := bind_eq_ok ordered
    cases made
    obtain ⟨done, all⟩ := ends search ran
    exact topological_of_awake done all
      (awake_of_no_dormant ((none search).mp (not_not.mp (raiseIf_eq_ok awake))))
  · rcases bind_eq_error failed with stopped | ⟨search, ran, failed⟩
    · obtain ⟨told, broken⟩ := error fault stopped
      exact ⟨told, .inl broken⟩
    rcases bind_eq_error failed with stopped | ⟨_, -, impossible⟩
    · obtain ⟨asleep, rfl⟩ := raiseIf_eq_error stopped
      obtain ⟨done, all⟩ := ends search ran
      obtain ⟨name, dormant⟩ := exists_mem_of_ne_nil _ fun empty =>
        asleep ((none search).mpr empty)
      exact ⟨⟨by rintro ⟨⟩, by rintro ⟨⟩⟩, .inr (unreachable_of_dormant done all dormant)⟩
    · cases impossible

end Cells

/-- **Witnesses are ordered topologically.** With unique names, kernels, value graphs and cell sources
order exactly the witnesses reached from what they resolve, each once and after the witnesses it
references, and these are all; they fail exactly when something that is reached is undefined or on a
cycle, or some witness is not reached. -/
theorem witness_orders_sort (host : Host) :
    (∀ kernel : Graph Int, (kernel.witnesses.map Witness.name).Nodup →
      Sorts (dependencyOrder host kernel) (dependenciesOf kernel.witnesses) [kernel.resolve]
        (kernel.witnesses.map Witness.name)) ∧
      (∀ graph : Graph NativeValue, (graph.witnesses.map Witness.name).Nodup →
        Sorts (dependencyOrderValueGraph host graph) (dependenciesOf graph.witnesses) [graph.resolve]
          (graph.witnesses.map Witness.name)) ∧
        ∀ (source : CellSource) (roots : List String), (source.witnesses.map Witness.name).Nodup →
          Sorts (multiDependencyOrder host source roots) (dependenciesOf source.witnesses) roots
            (source.witnesses.map Witness.name) := by
  refine ⟨fun kernel distinct => ?_, fun graph distinct => ?_, fun source roots distinct => ?_⟩
  · have unique : ¬ (kernel.witnesses.map Witness.name).dedup.length ≠ kernel.witnesses.length := by
      rw [List.dedup_eq_self.mpr distinct, length_map]
      exact not_not.mpr rfl
    unfold dependencyOrder
    rw [bind_raiseIf unique]
    exact orderOf_sorts (fun report => ⟨by rintro ⟨⟩, by rintro ⟨⟩⟩) distinct
  · exact orderOf_sorts (fun report => ⟨by rintro ⟨⟩, by rintro ⟨⟩⟩) distinct
  · exact multiDependencyOrder_sorts distinct roots

/-- `x` from `l` and `r`, which share `b`, in the order in which they are resolved. -/
def diamond : Graph Int where
  witnesses :=
    [⟨"x", ⟨some "sum", [.witness "l", .witness "r"]⟩, 2⟩, ⟨"l", ⟨some "sum", [.witness "b", .literal 1]⟩, 3⟩,
      ⟨"r", ⟨some "product", [.witness "b", .witness "b"]⟩, 4⟩, ⟨"b", ⟨none, [.literal 3]⟩, 5⟩]
  resolve := "x"
  resolveLine := 6

/-- The shared witness of a diamond comes first, and once. -/
theorem witness_orders_sort_diamond : dependencyOrder ⟨id, id⟩ diamond = .ok ["b", "l", "r", "x"] ∧
      Sorts (dependencyOrder ⟨id, id⟩ diamond) (dependenciesOf diamond.witnesses) ["x"]
        ["x", "l", "r", "b"] :=
  ⟨rfl, (witness_orders_sort ⟨id, id⟩).1 diamond (by decide)⟩

end Koschei.Kernel
