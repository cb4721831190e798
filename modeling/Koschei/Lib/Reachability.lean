import Mathlib.Data.List.Chain
import Koschei.Lib.SearchRounds

/-!
# What a depth-first search finds

The nodes that a search lists are those that its roots reach, each after the nodes it
depends on. When a search stops, the nodes on its stack lead from one to the next, so
that the dependency it stops at either does not exist or leads back to itself: a search
stops only at a node that is reached and broken.
-/

namespace Koschei.Lib.DepthFirst

open Relation

variable {K : Type} {next : K → Option (List K)}

/-- A node depends on another. -/
def References (next : K → Option (List K)) (name dependency : K) : Prop :=
  ∃ dependencies, next name = some dependencies ∧ dependency ∈ dependencies

/-- Some root leads to a node. -/
def Reachable (next : K → Option (List K)) (roots : List K) (name : K) : Prop :=
  ∃ root ∈ roots, ReflTransGen (References next) root name

/-- What the roots reach does not exist, or depends on itself. -/
inductive Broken (next : K → Option (List K)) (roots : List K) : Prop where
  | missing {name : K} (reached : Reachable next roots name) (undefined : next name = none)
  | cycle {name : K} (reached : Reachable next roots name)
      (closes : TransGen (References next) name name)

/-- A list has every node that the roots reach once, after the nodes it depends on. -/
structure Topological [DecidableEq K] (next : K → Option (List K)) (roots order : List K) : Prop where
  nodup : order.Nodup
  members : ∀ name, name ∈ order ↔ Reachable next roots name
  later : ∀ name dependency, name ∈ order → References next name dependency →
    order.idxOf dependency < order.idxOf name

variable {roots : List K}

theorem Reachable.root {root : K} (inside : root ∈ roots) :
    Reachable next roots root := ⟨root, inside, .refl⟩

theorem Reachable.passes {name dependency : K} (reached : Reachable next roots name)
    (references : References next name dependency) : Reachable next roots dependency := by
  obtain ⟨root, inside, leads⟩ := reached
  exact ⟨root, inside, leads.tail references⟩

theorem Reachable.induction {holds : K → Prop} (start : ∀ root ∈ roots, holds root)
    (passes : ∀ name dependency, holds name → References next name dependency → holds dependency)
    {name : K} (reached : Reachable next roots name) : holds name := by
  obtain ⟨root, inside, leads⟩ := reached
  induction leads with
  | refl => exact start root inside
  | tail _ references ih => exact passes _ _ ih references

/-! ## Lists that are closed -/

section Closed

variable [DecidableEq K] {order roots : List K}

theorem Closed.topological (closed : Closed next order) (nodup : order.Nodup)
    (all : ∀ root ∈ roots, root ∈ order) (only : ∀ name ∈ order, Reachable next roots name) :
    Topological next roots order where
  nodup := nodup
  members name := by
    refine ⟨only name, fun reached => reached.induction all ?_⟩
    rintro name dependency inside ⟨dependencies, known, needed⟩
    obtain ⟨others, same, before⟩ := closed.before inside
    cases known.symm.trans same
    exact (before dependency needed).1
  later name dependency inside := by
    rintro ⟨dependencies, known, needed⟩
    obtain ⟨others, same, before⟩ := closed.before inside
    cases known.symm.trans same
    exact (before dependency needed).2

/-- Nothing that the roots reach is broken when it can be listed. -/
theorem Topological.not_broken (sorted : Topological next roots order)
    (known : ∀ name ∈ order, (next name).isSome) : ¬ Broken next roots := by
  intro broken
  cases broken with
  | missing reached undefined =>
    have isKnown := known _ ((sorted.members _).mpr reached)
    rw [undefined] at isKnown
    cases isKnown
  | @cycle name reached closes =>
    have down : ∀ other, TransGen (References next) name other →
        other ∈ order ∧ order.idxOf other < order.idxOf name := by
      intro other leads
      induction leads with
      | single references =>
        exact ⟨(sorted.members _).mpr (reached.passes references),
          sorted.later _ _ ((sorted.members _).mpr reached) references⟩
      | tail _ references ih =>
        have less := sorted.later _ _ ih.1 references
        exact ⟨(sorted.members _).mpr (((sorted.members _).mp ih.1).passes references),
          less.trans ih.2⟩
    exact Nat.lt_irrefl _ (down name closes).2

end Closed

/-! ## Why a search stops -/

/-- Every node of a stack depends on the one above it. -/
def Search.Chained (next : K → Option (List K)) (search : Search K) : Prop :=
  (search.stack.map fst).IsChain fun above below => References next below above

theorem leads_of_isChain {top : K} {rest : List K}
    (chain : (top :: rest).IsChain fun above below => References next below above) :
    ∀ name ∈ top :: rest, ReflTransGen (References next) name top := by
  induction rest generalizing top with
  | nil =>
    intro name inside
    rw [mem_singleton.mp inside]
  | cons below rest ih =>
    obtain ⟨references, others⟩ := List.isChain_cons_cons.mp chain
    intro name inside
    rcases mem_cons.mp inside with rfl | inside
    · exact .refl
    · exact (ih others name inside).tail references

variable [DecidableEq K]

section Step

variable {search : Search K} {name : K} {index : Nat} {rest : List (K × Nat)}

theorem Search.step_chained {after : Search K} (chained : search.Chained next)
    (stacked : search.stack = (name, index) :: rest)
    (ran : search.step next name index rest = .ok after) : after.Chained next := by
  obtain ⟨dependencies, known, next'⟩ := Search.step_cases ran
  unfold Search.Chained at chained ⊢
  rw [stacked, map_cons] at chained
  rcases next' with ⟨dependency, here, -, ⟨-, rfl⟩ | ⟨-, -, rfl⟩⟩ | ⟨-, trail, rfl⟩
  · exact List.isChain_cons_cons.mpr ⟨⟨dependencies, known, mem_of_getElem? here⟩, chained⟩
  · exact chained
  · exact chained.tail

/-- A round stops at a dependency that does not exist, or that leads to the node of the round. -/
theorem Search.step_stops {stop : Stop K} (sound : search.Sound next) (chained : search.Chained next)
    (stacked : search.stack = (name, index) :: rest)
    (stopped : search.step next name index rest = .error stop) :
    (∀ name, stop ≠ .unknown name) ∧ ∃ dependency, References next name dependency ∧
      (next dependency = none ∨ ReflTransGen (References next) dependency name) := by
  obtain ⟨dependencies, known⟩ := isSome_iff_exists.mp (sound.top_known stacked)
  have open' : search.mark name = 1 ∨ search.mark name = 0 :=
    (sound.top _ (by rw [stacked]; rfl)).imp_right And.left
  unfold Search.step at stopped
  rw [known] at stopped
  dsimp only at stopped
  split at stopped
  · rename_i dependency here
    have references : References next name dependency :=
      ⟨dependencies, known, mem_of_getElem? here⟩
    split at stopped
    · rename_i undefined
      cases stopped
      exact ⟨fun _ impossible => (by cases impossible), dependency, references,
        .inl (isNone_iff_eq_none.mp undefined)⟩
    · split at stopped
      · rename_i entered
        cases stopped
        refine ⟨fun _ impossible => (by cases impossible), dependency, references, .inr ?_⟩
        -- What is entered is on the stack, and the stack leads up to its top.
        have isStacked : dependency ∈ name :: rest.map fst := by
          have one : (search.enter name).mark dependency = 1 := entered
          rw [Search.mark_enter search name dependency open'] at one
          split at one
          · rename_i same
            exact same ▸ mem_cons_self
          · have inside := sound.entered dependency one
            rwa [stacked, map_cons] at inside
        unfold Search.Chained at chained
        rw [stacked, map_cons] at chained
        exact leads_of_isChain chained dependency isStacked
      · split at stopped <;> cases stopped
  · cases stopped

end Step

variable {stop : Stop K}

/-- **A search stops only at something broken**, or when its rounds are used up. -/
theorem Search.run_stops {search : Search K} {fuel : Nat}
    (sound : search.Sound next) (chained : search.Chained next)
    (reached : ∀ name, search.Holds name → Reachable next roots name)
    (stopped : search.run next fuel = .error stop) :
    stop = .fuel ∨ (∀ name, stop ≠ .unknown name) ∧ Broken next roots := by
  induction fuel generalizing search with
  | zero =>
    unfold Search.run at stopped
    split at stopped
    · cases stopped
    · cases stopped
      exact .inl rfl
  | succ fuel ih =>
    unfold Search.run at stopped
    split at stopped
    · cases stopped
    · rename_i name index rest stacked
      dsimp only at stopped
      split at stopped
      · rename_i reason isStop
        cases stopped
        obtain ⟨known, dependency, references, why⟩ := Search.step_stops sound chained stacked isStop
        have isReached : Reachable next roots name :=
          reached name (.inr (by rw [stacked]; exact mem_cons_self))
        refine .inr ⟨known, ?_⟩
        rcases why with undefined | leads
        · exact .missing (isReached.passes references) undefined
        · exact .cycle isReached (TransGen.head' references leads)
      · rename_i between stepped
        exact ih (Search.step_sound sound stacked stepped).1
          (Search.step_chained chained stacked stepped)
          (Search.step_all (fun name dependencies known isReached dependency needed =>
            isReached.passes ⟨dependencies, known, needed⟩) stacked stepped reached) stopped

/-! ## Searches one after the other -/

/-- What holds between searches from some of the roots. -/
structure Search.Explored (next : K → Option (List K)) (roots : List K) (search : Search K) : Prop where
  sound : search.Sound next
  finished : search.stack = []
  reaching : ∀ name, search.mark name ≠ 0 → name ∈ search.reachable
  only : ∀ name ∈ search.ordered, Reachable next roots name

theorem Search.empty_explored (roots : List K) : (Search.empty : Search K).Explored next roots where
  sound := Search.empty_sound
  finished := rfl
  reaching name marked := absurd rfl marked
  only name inside := by cases inside

namespace Search.Explored

variable {search after : Search K} {roots : List K} {root : K} {fuel : Nat}

section

variable (explored : search.Explored next roots)

include explored

/-- Between searches, what is not listed has not been entered. -/
theorem fresh (unlisted : search.mark root ≠ 2) : search.mark root = 0 := by
  rcases explored.sound.marked root with zero | one | two
  · exact zero
  · have stacked := explored.sound.entered root one
    rw [explored.finished] at stacked
    cases stacked
  · exact absurd two unlisted

theorem restart_holds (inside : root ∈ roots) {name : K}
    (held : (search.restart root).Holds name) : Reachable next roots name := by
  rcases held with listed | stacked
  · exact explored.only name listed
  · rw [mem_singleton.mp stacked]
    exact .root inside

theorem run (inside : root ∈ roots) (unlisted : search.mark root ≠ 2) (known : (next root).isSome)
    (ran : (search.restart root).run next fuel = .ok after) :
    after.Explored next roots ∧ search.ordered ⊆ after.ordered ∧ root ∈ after.ordered := by
  obtain ⟨dependencies, isKnown⟩ := isSome_iff_exists.mp known
  have start := Search.restart_sound explored.sound explored.finished unlisted isKnown
  obtain ⟨sound, finished, holds⟩ := Search.run_sound start ran
  refine ⟨⟨sound, finished, Search.run_reaching start ran explored.reaching, ?_⟩,
    fun name listed => holds name (.inl listed), holds root (.inr mem_cons_self)⟩
  intro name listed
  have passes : ∀ other dependencies, next other = some dependencies → Reachable next roots other →
      ∀ dependency ∈ dependencies, Reachable next roots dependency :=
    fun other dependencies isKnown reached needed among =>
      reached.passes ⟨dependencies, isKnown, among⟩
  exact Search.run_all passes ran (fun other => explored.restart_holds inside) name (.inl listed)

variable {names : List K}

theorem stops (inside : root ∈ roots) (unlisted : search.mark root ≠ 2) (known : (next root).isSome)
    (all : ∀ name, (next name).isSome → name ∈ names) (enough : search.costs next names ≤ fuel)
    (stopped : (search.restart root).run next fuel = .error stop) :
    stop ≠ .fuel ∧ (∀ name, stop ≠ .unknown name) ∧ Broken next roots := by
  obtain ⟨dependencies, isKnown⟩ := isSome_iff_exists.mp known
  have start := Search.restart_sound explored.sound explored.finished unlisted isKnown
  have ends : stop ≠ .fuel := by
    intro exhausted
    rw [exhausted] at stopped
    refine Search.run_ne_fuel start (Search.restart_within search root) all ?_ stopped
    rwa [Search.costs_restart explored.finished (explored.fresh unlisted)]
  refine ⟨ends, (Search.run_stops start (List.IsChain.singleton _) (fun name =>
    explored.restart_holds inside) stopped).resolve_left ends⟩

/-- A further search leaves no more rounds than there were. -/
theorem costs (unlisted : search.mark root ≠ 2)
    (known : (next root).isSome) (all : ∀ name, (next name).isSome → name ∈ names)
    (ran : (search.restart root).run next fuel = .ok after) :
    after.costs next names ≤ search.costs next names := by
  obtain ⟨dependencies, isKnown⟩ := isSome_iff_exists.mp known
  have start := Search.restart_sound explored.sound explored.finished unlisted isKnown
  have fewer := Search.run_costs start (Search.restart_within search root) all ran
  rwa [Search.costs_restart explored.finished (explored.fresh unlisted)] at fewer

theorem topological (all : ∀ root ∈ roots, root ∈ search.ordered) :
    Topological next roots search.ordered ∧
      ∀ name, name ∈ search.reachable ↔ Reachable next roots name := by
  have sorted := explored.sound.closed.topological explored.sound.nodup all explored.only
  refine ⟨sorted, fun name => ⟨fun reached => ?_, fun reached => explored.reaching name ?_⟩⟩
  · exact explored.only name (explored.sound.reached_listed explored.finished reached)
  · rw [(explored.sound.listed name).mpr ((sorted.members name).mpr reached)]
    decide

end

end Search.Explored

end Koschei.Lib.DepthFirst
