import Mathlib.Algebra.Order.BigOperators.Group.List
import Mathlib.Algebra.Order.Ring.Nat
import Koschei.Lib.DepthFirst

/-!
# The rounds of a depth-first search

A node takes one round for each of its dependencies and one to be listed, so a search
through finitely many nodes ends within the sum of these. It ends without an error
when the nodes have some order in which the dependencies of a node stand before it: on
the stack, every node then stands before those below it.
-/

namespace Koschei.Lib.DepthFirst

open Koschei.Lib
open Search (enter mark_enter run run_invariant step step_cases step_sound)
open List (sum)

variable {K : Type} [DecidableEq K] {next : K → Option (List K)}

/-- How many dependencies a node has. -/
def degree (next : K → Option (List K)) (name : K) : Nat := ((next name).getD []).length

/-- The rounds that a node can still take. -/
def Search.cost (next : K → Option (List K)) (search : Search K) (name : K) : Nat :=
  match search.stack.lookup name with
  | some index => degree next name + 1 - index
  | none => if search.mark name = 0 then degree next name + 1 else 0

/-- The rounds that some nodes can still take. -/
def Search.costs (next : K → Option (List K)) (search : Search K) (names : List K) : Nat :=
  (names.map (search.cost next)).sum

/-- No more dependencies of a stacked node are done than it has. -/
def Search.Within (next : K → Option (List K)) (search : Search K) : Prop :=
  ∀ entry ∈ search.stack, entry.2 ≤ degree next entry.1

omit [DecidableEq K] in
/-- A stacked node exists. -/
theorem Pending.known {ordered : List K} {above : Option K} {stack : List (K × Nat)}
    (pending : Pending next ordered above stack) {entry : K × Nat} (inside : entry ∈ stack) :
    (next entry.1).isSome := by
  induction stack generalizing above with
  | nil => cases inside
  | cons first rest ih =>
    obtain ⟨⟨dependencies, known, -⟩, below⟩ := pending
    rcases mem_cons.mp inside with rfl | inside
    · exact known ▸ rfl
    · exact ih below inside

variable {search : Search K} {name : K} {index : Nat} {rest : List (K × Nat)}

theorem Search.Sound.top_known (sound : search.Sound next)
    (stacked : search.stack = (name, index) :: rest) : (next name).isSome :=
  sound.pending.known (show (name, index) ∈ search.stack by rw [stacked]; exact mem_cons_self)

theorem lookup_eq_none {stack : List (K × Nat)} (outside : name ∉ stack.map fst) :
    stack.lookup name = none :=
  lookup_eq_none_iff.mpr fun entry inside =>
    bne_iff_ne.mpr fun same => outside (mem_map.mpr ⟨entry, inside, same.symm⟩)

section Step

variable {search after : Search K} {name : K} {index : Nat} {rest : List (K × Nat)}

theorem Search.step_within (within : search.Within next) (stacked : search.stack = (name, index) :: rest)
    (ran : search.step next name index rest = .ok after) : after.Within next := by
  obtain ⟨dependencies, known, next'⟩ := step_cases ran
  have others : ∀ entry ∈ rest, entry.2 ≤ degree next entry.1 := fun entry inside =>
    within entry (by rw [stacked]; exact mem_cons_of_mem _ inside)
  have here : ∀ dependency, dependencies[index]? = some dependency →
      ∀ entry ∈ (name, index + 1) :: rest, entry.2 ≤ degree next entry.1 := by
    intro dependency isHere entry inside
    rcases mem_cons.mp inside with rfl | inside
    · obtain ⟨small, -⟩ := List.getElem?_eq_some_iff.mp isHere
      unfold degree
      rw [known]
      exact small
    · exact others entry inside
  rcases next' with ⟨dependency, isHere, -, ⟨-, rfl⟩ | ⟨-, -, rfl⟩⟩ | ⟨-, trail, rfl⟩
  · intro entry inside
    rcases mem_cons.mp inside with rfl | inside
    · exact Nat.zero_le _
    · exact here dependency isHere entry inside
  · exact here dependency isHere
  · exact others

/-- A round takes one from the rounds that are left. -/
theorem Search.step_costs (sound : search.Sound next) (within : search.Within next)
    (stacked : search.stack = (name, index) :: rest) {names : List K} (member : name ∈ names)
    (ran : search.step next name index rest = .ok after) :
    after.costs next names < search.costs next names := by
  obtain ⟨dependencies, known, next'⟩ := step_cases ran
  have open' : search.mark name = 1 ∨ search.mark name = 0 :=
    (sound.top _ (by rw [stacked]; rfl)).imp_right And.left
  have mark := fun other => search.mark_enter name other open'
  have distinct := sound.distinct
  rw [stacked, map_cons, nodup_cons] at distinct
  have bounded := within _ (by rw [stacked]; exact mem_cons_self)
  have count : degree next name = dependencies.length := by
    unfold degree
    rw [known]
    rfl
  dsimp only at bounded
  have isNext : ∀ (tail : List (K × Nat)) (value : Nat), ((name, value) :: tail).lookup name = some value :=
    fun tail value => by rw [lookup_cons, beq_self_eq_true]
  have others : ∀ (tail : List (K × Nat)) (value : Nat) (other : K), other ≠ name →
      ((name, value) :: tail).lookup other = tail.lookup other :=
    fun tail value other differs => by rw [lookup_cons, beq_false_of_ne differs]
  have old : search.cost next name = degree next name + 1 - index := by
    unfold Search.cost
    rw [stacked, isNext]
  have oldOther : ∀ other, other ≠ name → search.cost next other = match rest.lookup other with
      | some index => degree next other + 1 - index
      | none => if search.mark other = 0 then degree next other + 1 else 0 := by
    intro other differs
    unfold Search.cost
    rw [stacked, others rest index other differs]
  have self : after.cost next name < search.cost next name := by
    rw [old]
    rcases next' with ⟨dependency, isHere, -, ⟨fresh, rfl⟩ | ⟨-, -, rfl⟩⟩ | ⟨finished, trail, rfl⟩
    · have apart : name ≠ dependency := by
        intro same
        rw [mark, if_pos same.symm] at fresh
        cases fresh
      unfold Search.cost
      dsimp only
      rw [lookup_cons, beq_false_of_ne apart, isNext]
      dsimp only
      omega
    · unfold Search.cost
      dsimp only
      rw [isNext]
      dsimp only
      omega
    · have listed : Search.mark ⟨(name, 2) :: (search.enter name).marks,
          (search.enter name).ordered ++ [name], (search.enter name).reachable, trail, rest⟩ name = 2 :=
        (lookup_put _ name name 2).trans (if_pos rfl)
      unfold Search.cost
      dsimp only
      rw [lookup_eq_none distinct.1, listed]
      dsimp only
      rw [if_neg (by decide)]
      omega
  refine List.sum_lt_sum _ _ (fun other _ => ?_) ⟨name, member, self⟩
  by_cases same : other = name
  · exact same ▸ self.le
  have unchanged : (search.enter name).mark other = search.mark other := by rw [mark, if_neg same]
  rw [oldOther other same]
  rcases next' with ⟨dependency, isHere, -, ⟨fresh, rfl⟩ | ⟨-, -, rfl⟩⟩ | ⟨finished, trail, rfl⟩
  · by_cases isFresh : other = dependency
    · -- What is stacked has not been entered, and has all its rounds left.
      subst isFresh
      rw [unchanged] at fresh
      have unstacked : other ∉ rest.map fst := by
        intro inside
        obtain ⟨entry, among, rfl⟩ := mem_map.mp inside
        have one := sound.below entry (by rw [stacked]; exact among)
        omega
      unfold Search.cost
      dsimp only
      rw [lookup_cons, beq_self_eq_true, lookup_eq_none unstacked]
      dsimp only
      rw [if_pos fresh]
      omega
    · unfold Search.cost
      dsimp only
      rw [lookup_cons, beq_false_of_ne isFresh, others rest _ other same]
      exact le_of_eq (by rw [← unchanged]; rfl)
  · unfold Search.cost
    dsimp only
    rw [others rest _ other same]
    exact le_of_eq (by rw [← unchanged]; rfl)
  · have marked : Search.mark ⟨(name, 2) :: (search.enter name).marks,
        (search.enter name).ordered ++ [name], (search.enter name).reachable, trail, rest⟩ other =
          search.mark other :=
      (lookup_put _ name other 2).trans ((if_neg same).trans unchanged)
    unfold Search.cost
    dsimp only
    rw [marked]

theorem Search.step_ne_fuel : search.step next name index rest ≠ .error .fuel := by
  unfold step
  intro impossible
  split at impossible
  · cases impossible
  · dsimp only at impossible
    split at impossible
    · split at impossible
      · cases impossible
      · split at impossible
        · cases impossible
        · split at impossible <;> cases impossible
    · cases impossible

end Step

variable {names : List K}

/-- While a node is stacked, rounds are left. -/
theorem Search.costs_pos (within : search.Within next)
    (stacked : search.stack = (name, index) :: rest)
    (member : name ∈ names) : 0 < search.costs next names := by
  have bounded := within (name, index) (by rw [stacked]; exact mem_cons_self)
  have here : search.cost next name = degree next name + 1 - index := by
    unfold Search.cost
    rw [stacked, lookup_cons, beq_self_eq_true]
  have part : search.cost next name ≤ search.costs next names :=
    List.le_sum_of_mem (mem_map_of_mem member)
  dsimp only at bounded
  omega

variable {fuel : Nat}

/-- **A search ends within the rounds that are left.** -/
theorem Search.run_ne_fuel (sound : search.Sound next)
    (within : search.Within next) (all : ∀ name, (next name).isSome → name ∈ names)
    (enough : search.costs next names ≤ fuel) : search.run next fuel ≠ .error .fuel := by
  induction fuel generalizing search with
  | zero =>
    unfold run
    split
    · intro impossible
      cases impossible
    · rename_i name index rest stacked
      have member := all name (sound.top_known stacked)
      exact absurd (Search.costs_pos within stacked member) (by omega)
  | succ fuel ih =>
    unfold run
    split
    · intro impossible
      cases impossible
    · rename_i name index rest stacked
      have member := all name (sound.top_known stacked)
      dsimp only
      split
      · rename_i stop stopped
        intro same
        cases same
        exact Search.step_ne_fuel stopped
      · rename_i after stepped
        have fewer := Search.step_costs sound within stacked member stepped
        exact ih (step_sound sound stacked stepped).1 (Search.step_within within stacked stepped)
          (by omega)

omit [DecidableEq K] in
theorem Search.restart_within (search : Search K) (root : K) : (search.restart root).Within next := by
  intro entry inside
  rw [mem_singleton.mp inside]
  exact Nat.zero_le _

/-- Going on from a node that has not been entered leaves the rounds as they are. -/
theorem Search.costs_restart {root : K} (empty : search.stack = [])
    (fresh : search.mark root = 0) (names : List K) :
    (search.restart root).costs next names = search.costs next names := by
  unfold Search.costs
  refine congrArg sum (map_congr_left fun name _ => ?_)
  unfold Search.cost Search.restart
  dsimp only
  rw [empty, lookup_cons]
  by_cases same : name = root
  · subst same
    rw [beq_self_eq_true]
    dsimp only [List.lookup_nil]
    rw [if_pos fresh, Nat.sub_zero]
  · rw [beq_false_of_ne same]
    rfl

/-! ## Searches through nodes that have an order -/

omit [DecidableEq K] in
theorem Closed.before [DecidableEq K] {order : List K} (closed : Closed next order) {name : K}
    (member : name ∈ order) : ∃ dependencies, next name = some dependencies ∧
      ∀ dependency ∈ dependencies, dependency ∈ order ∧ order.idxOf dependency < order.idxOf name := by
  obtain ⟨before, after, rfl, first⟩ := List.eq_append_cons_of_mem member
  obtain ⟨dependencies, known, subset⟩ := closed before name after rfl
  refine ⟨dependencies, known, fun dependency inside => ?_⟩
  have earlier := subset inside
  refine ⟨mem_append_left _ earlier, ?_⟩
  rw [List.idxOf_append_of_mem earlier, List.idxOf_append_of_notMem first, List.idxOf_cons_self]
  exact Nat.lt_add_right 0 (List.idxOf_lt_length_iff.mpr earlier)

variable {order : List K}

/-- The nodes of a list without duplicates are in the order of their indices. -/
theorem pairwise_idxOf (nodup : order.Nodup) :
    order.Pairwise fun one other => order.idxOf one < order.idxOf other := by
  rw [List.pairwise_iff_getElem]
  intro i j first second less
  rwa [nodup.idxOf_getElem, nodup.idxOf_getElem]

omit [DecidableEq K] in
theorem closed_of_rank {rank : K → Nat} {names : List K}
    (sorted : names.Pairwise fun one other => rank one < rank other)
    (each : ∀ name ∈ names, ∃ dependencies, next name = some dependencies ∧
      ∀ dependency ∈ dependencies, dependency ∈ names ∧ rank dependency < rank name) :
    Closed next names := by
  intro before name after split
  obtain ⟨dependencies, known, lower⟩ := each name (split ▸ mem_append_right _ mem_cons_self)
  refine ⟨dependencies, known, fun dependency inside => ?_⟩
  obtain ⟨member, less⟩ := lower dependency inside
  rw [split] at member sorted
  rcases mem_append.mp member with earlier | later
  · exact earlier
  · rcases mem_cons.mp later with rfl | later
    · exact absurd less (Nat.lt_irrefl _)
    · have more := (pairwise_cons.mp (List.pairwise_append.mp sorted).2.1).1 dependency later
      exact absurd less (Nat.lt_asymm more)

/-- Every stacked node stands, in an order, before those below it. -/
structure Search.Climbs (order : List K) (search : Search K) : Prop where
  stacked : ∀ entry ∈ search.stack, entry.1 ∈ order
  sorted : search.stack.Pairwise fun one other => order.idxOf one.1 < order.idxOf other.1

/-- Where the nodes have an order, every round ends. -/
theorem Search.step_climbs (closed : Closed next order) (sound : search.Sound next)
    (climbs : search.Climbs order) (stacked : search.stack = (name, index) :: rest) :
    ∃ after, search.step next name index rest = .ok after ∧ after.Climbs order := by
  have inOrder := climbs.stacked
  have sorted := climbs.sorted
  rw [stacked] at inOrder sorted
  obtain ⟨isAbove, sorted⟩ := pairwise_cons.mp sorted
  have others : ∀ entry ∈ rest, entry.1 ∈ order := (forall_mem_cons.mp inOrder).2
  obtain ⟨dependencies, known, earlier⟩ := closed.before (inOrder _ mem_cons_self)
  have below : ∀ value, ∀ entry ∈ (name, value) :: rest, entry.1 ∈ order := by
    intro value entry inside
    rcases mem_cons.mp inside with rfl | inside
    · exact inOrder (name, index) mem_cons_self
    · exact others entry inside
  have pairs : ∀ value, ((name, value) :: rest).Pairwise fun one other =>
      order.idxOf one.1 < order.idxOf other.1 := fun value =>
    pairwise_cons.mpr ⟨isAbove, sorted⟩
  unfold step
  rw [known]
  dsimp only
  cases isHere : dependencies[index]? with
  | none => exact ⟨_, rfl, others, sorted⟩
  | some dependency =>
    obtain ⟨member, before⟩ := earlier dependency (mem_of_getElem? isHere)
    obtain ⟨theirs, isKnown, -⟩ := closed.before member
    have open' : search.mark name = 1 ∨ search.mark name = 0 :=
      (sound.top _ (by rw [stacked]; rfl)).imp_right And.left
    have unentered : (search.enter name).mark dependency ≠ 1 := by
      intro one
      rw [mark_enter search name dependency open'] at one
      split at one
      · rename_i same
        rw [same] at before
        exact Nat.lt_irrefl _ before
      · have inside := sound.entered dependency one
        rw [stacked, map_cons] at inside
        rcases mem_cons.mp inside with same | inside
        · rw [same] at before
          exact Nat.lt_irrefl _ before
        · obtain ⟨entry, among, rfl⟩ := mem_map.mp inside
          exact Nat.lt_asymm before (isAbove entry among)
    have known' : ¬ (next dependency).isNone := by
      rw [isKnown]
      exact false_ne_true
    dsimp only
    rw [if_neg known']
    by_cases fresh : (search.enter name).mark dependency = 0
    · rw [if_neg (show ¬ Search.mark { search.enter name with stack := (name, index + 1) :: rest }
        dependency = 1 from unentered), if_pos (show Search.mark
          { search.enter name with stack := (name, index + 1) :: rest } dependency = 0 from fresh)]
      refine ⟨_, rfl, ?_, ?_⟩
      · intro entry inside
        rcases mem_cons.mp inside with rfl | inside
        · exact member
        · exact below _ entry inside
      · refine pairwise_cons.mpr ⟨fun entry inside => ?_, pairs _⟩
        rcases mem_cons.mp inside with rfl | inside
        · exact before
        · exact Nat.lt_trans before (isAbove entry inside)
    · rw [if_neg (show ¬ Search.mark { search.enter name with stack := (name, index + 1) :: rest }
        dependency = 1 from unentered), if_neg (show ¬ Search.mark
          { search.enter name with stack := (name, index + 1) :: rest } dependency = 0 from fresh)]
      exact ⟨_, rfl, below _, pairs _⟩

/-- **A search through nodes that have an order ends.** -/
theorem Search.exists_run_eq_ok
    (closed : Closed next order) (sound : search.Sound next) (climbs : search.Climbs order)
    (within : search.Within next) (all : ∀ name, (next name).isSome → name ∈ names)
    (enough : search.costs next names ≤ fuel) : ∃ after, search.run next fuel = .ok after := by
  induction fuel generalizing search with
  | zero =>
    cases ran : search.run next 0 with
    | ok after => exact ⟨after, rfl⟩
    | error stop =>
      unfold run at ran
      split at ran
      · cases ran
      · rename_i name index rest stacked
        have member := all name (sound.top_known stacked)
        exact absurd (Search.costs_pos within stacked member) (by omega)
  | succ fuel ih =>
    unfold run
    split
    · exact ⟨search, rfl⟩
    · rename_i name index rest stacked
      obtain ⟨after, stepped, climbs'⟩ := Search.step_climbs closed sound climbs stacked
      have member := all name (sound.top_known stacked)
      have fewer := Search.step_costs sound within stacked member stepped
      dsimp only
      rw [stepped]
      exact ih (step_sound sound stacked stepped).1 climbs'
        (Search.step_within within stacked stepped) (by omega)

variable {after : Search K}

/-- A search leaves no more rounds than there were. -/
theorem Search.run_costs (sound : search.Sound next)
    (within : search.Within next) (all : ∀ name, (next name).isSome → name ∈ names)
    (ran : search.run next fuel = .ok after) : after.costs next names ≤ search.costs next names := by
  refine (run_invariant (I := fun between => between.Sound next ∧ between.Within next ∧
    between.costs next names ≤ search.costs next names) ?_ ran ⟨sound, within, Nat.le_refl _⟩).1.2.2
  rintro before name index rest between ⟨sound, within, few⟩ stacked stepped
  have fewer := Search.step_costs sound within stacked (all name (sound.top_known stacked)) stepped
  exact ⟨(step_sound sound stacked stepped).1, Search.step_within within stacked stepped,
    fewer.le.trans few⟩

theorem Search.costs_empty (names : List K) :
    Search.empty.costs next names = (names.map fun name => degree next name + 1).sum := rfl

/-! ## What a search lists -/

variable {holds : K → Prop}

/-- What holds of the stacked and the listed nodes and passes to dependencies holds after a round. -/
theorem Search.step_all (passes : ∀ name dependencies, next name = some dependencies → holds name →
      ∀ dependency ∈ dependencies, holds dependency)
    (stacked : search.stack = (name, index) :: rest)
    (ran : search.step next name index rest = .ok after) (all : ∀ other, search.Holds other → holds other) :
    ∀ other, after.Holds other → holds other := by
  obtain ⟨dependencies, known, next'⟩ := step_cases ran
  have here : holds name := all name (.inr (by rw [stacked]; exact mem_cons_self))
  have listed : ∀ other ∈ search.ordered, holds other := fun other inside => all other (.inl inside)
  have below : ∀ other ∈ rest.map fst, holds other := fun other inside =>
    all other (.inr (by rw [stacked]; exact mem_cons_of_mem _ inside))
  rcases next' with ⟨dependency, isHere, -, ⟨-, rfl⟩ | ⟨-, -, rfl⟩⟩ | ⟨-, trail, rfl⟩
  · rintro other (inside | inside)
    · exact listed other (by simpa using inside)
    · rcases mem_cons.mp inside with rfl | inside
      · exact passes name dependencies known here _ (mem_of_getElem? isHere)
      · rcases mem_cons.mp inside with rfl | inside
        · exact here
        · exact below other inside
  · rintro other (inside | inside)
    · exact listed other (by simpa using inside)
    · rcases mem_cons.mp inside with rfl | inside
      · exact here
      · exact below other inside
  · rintro other (inside | inside)
    · rcases mem_append.mp inside with inside | inside
      · exact listed other (by simpa using inside)
      · rw [mem_singleton.mp inside]
        exact here
    · exact below other inside

/-- The nodes that a search lists can be reached through dependencies. -/
theorem Search.run_all (passes : ∀ name dependencies, next name = some dependencies → holds name →
      ∀ dependency ∈ dependencies, holds dependency)
    (ran : search.run next fuel = .ok after) (all : ∀ other, search.Holds other → holds other) :
    ∀ other, after.Holds other → holds other := by
  exact (run_invariant (fun all stacked stepped =>
    Search.step_all passes stacked stepped all) ran all).1

theorem Search.step_reaching
    (sound : search.Sound next) (stacked : search.stack = (name, index) :: rest)
    (ran : search.step next name index rest = .ok after)
    (reaching : ∀ other, search.mark other ≠ 0 → other ∈ search.reachable) :
    ∀ other, after.mark other ≠ 0 → other ∈ after.reachable := by
  obtain ⟨dependencies, known, next'⟩ := step_cases ran
  have open' : search.mark name = 1 ∨ search.mark name = 0 :=
    (sound.top _ (by rw [stacked]; rfl)).imp_right And.left
  have entered : ∀ other, (search.enter name).mark other ≠ 0 → other ∈ (search.enter name).reachable := by
    intro other marked
    rw [mark_enter search name other open'] at marked
    by_cases same : other = name
    · subst same
      unfold enter
      split
      · exact mem_cons_self
      · rename_i stale
        exact reaching other stale
    · rw [if_neg same] at marked
      unfold enter
      split
      · exact mem_cons_of_mem _ (reaching other marked)
      · exact reaching other marked
  rcases next' with ⟨dependency, isHere, -, ⟨-, rfl⟩ | ⟨-, -, rfl⟩⟩ | ⟨-, trail, rfl⟩
  · exact entered
  · exact fun other marked => mem_cons_of_mem _ (entered other marked)
  · intro other marked
    refine entered other ?_
    by_cases same : other = name
    · rw [mark_enter search name other open', if_pos same]
      decide
    · have listed : Search.mark ⟨(name, 2) :: (search.enter name).marks,
          (search.enter name).ordered ++ [name], (search.enter name).reachable, trail, rest⟩ other =
            (search.enter name).mark other :=
        (lookup_put _ name other 2).trans (if_neg same)
      rwa [listed] at marked

theorem Search.run_reaching (sound : search.Sound next) (ran : search.run next fuel = .ok after)
    (reaching : ∀ other, search.mark other ≠ 0 → other ∈ search.reachable) :
    ∀ other, after.mark other ≠ 0 → other ∈ after.reachable := by
  exact (run_invariant (I := fun search => search.Sound next ∧
      ∀ other, search.mark other ≠ 0 → other ∈ search.reachable)
    (fun ⟨sound, reaching⟩ stacked stepped => ⟨(step_sound sound stacked stepped).1,
      Search.step_reaching sound stacked stepped reaching⟩) ran ⟨sound, reaching⟩).1.2

end Koschei.Lib.DepthFirst
