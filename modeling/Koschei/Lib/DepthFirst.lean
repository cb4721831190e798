import Koschei.Lib.Checks

/-!
# Depth-first search with an explicit stack

A search that lists every node after the nodes it depends on. A node is entered
when it comes to the top of the stack, and listed when all its dependencies are;
the search stops at a dependency that does not exist, or that has been entered
and is not listed yet. What a search that ends has listed is closed: in the list,
the dependencies of a node stand before it.
-/

namespace Koschei.Lib.DepthFirst

open Koschei.Lib

variable {K : Type} [DecidableEq K]

/-- Why a search stops: a node depends on one that does not exist, a dependency closes the path to
it, a node of the stack does not exist, or the fuel is used up. -/
inductive Stop (K : Type) where
  | missing (name dependency : K)
  | cycle (path : List K) (dependency : K)
  | unknown (name : K)
  | fuel
  deriving DecidableEq

/-- Where a search is: the marks of the nodes, 1 for entered and 2 for listed, the nodes in the order
in which they are listed, those it has reached, the path of entered ones and the stack of nodes
with the numbers of their dependencies that are done, the top first. -/
structure Search (K : Type) where
  marks : List (K × Nat)
  ordered : List K
  reachable : List K
  trail : List K
  stack : List (K × Nat)
  deriving DecidableEq

/-- The mark of a node, 0 when it has none. -/
def Search.mark (search : Search K) (name : K) : Nat := (search.marks.lookup name).getD 0

/-- The top of the stack is entered, unless it has been before. -/
def Search.enter (search : Search K) (name : K) : Search K := if search.mark name = 0 then
    { search with
      marks := (name, 1) :: search.marks
      reachable := name :: search.reachable
      trail := search.trail ++ [name] }
  else search

/-- The part of a path from a node on, the whole path when the node is not on it. -/
def pathFrom (trail : List K) (name : K) : List K :=
  if name ∈ trail then trail.dropWhile (· ≠ name) else trail

/-- One round: the next dependency of the top of the stack, or the top is listed. -/
def Search.step (next : K → Option (List K)) (search : Search K) (name : K) (index : Nat)
    (rest : List (K × Nat)) : Except (Stop K) (Search K) :=
  match next name with
  | none => .error (.unknown name)
  | some dependencies =>
    let search := search.enter name
    match dependencies[index]? with
    | some dependency =>
      let search := { search with stack := (name, index + 1) :: rest }
      if (next dependency).isNone then .error (.missing name dependency)
      else if search.mark dependency = 1 then
        .error (.cycle (pathFrom search.trail dependency) dependency)
      else if search.mark dependency = 0 then
        .ok { search with stack := (dependency, 0) :: search.stack }
      else .ok { search with reachable := dependency :: search.reachable }
    | none =>
      .ok
        { search with
          marks := (name, 2) :: search.marks
          ordered := search.ordered ++ [name]
          trail := if search.trail.getLast? = some name then search.trail.dropLast
            else search.trail
          stack := rest }

/-- Rounds until the stack is empty. -/
def Search.run (next : K → Option (List K)) : Nat → Search K → Except (Stop K) (Search K)
  | fuel, search =>
    match search.stack with
    | [] => .ok search
    | (name, index) :: rest =>
      match fuel with
      | 0 => .error .fuel
      | fuel + 1 =>
        match search.step next name index rest with
        | .error stop => .error stop
        | .ok search => search.run next fuel

/-! ## What is listed is closed -/

/-- The dependencies of every node in a list stand before it. -/
def Closed (next : K → Option (List K)) (ordered : List K) : Prop :=
  ∀ before name after, ordered = before ++ name :: after →
    ∃ dependencies, next name = some dependencies ∧ dependencies ⊆ before

variable {next : K → Option (List K)}

omit [DecidableEq K] in
theorem Closed.snoc {ordered dependencies : List K} {name : K} (closed : Closed next ordered)
    (known : next name = some dependencies) (listed : dependencies ⊆ ordered) :
    Closed next (ordered ++ [name]) := by
  intro before other after split
  rcases List.eq_nil_or_concat after with rfl | ⟨after, last, rfl⟩
  · obtain ⟨rfl, same⟩ := append_inj' split rfl
    cases same
    exact ⟨dependencies, known, listed⟩
  · rw [List.concat_eq_append, ← cons_append, ← append_assoc] at split
    exact closed before other after (append_inj' split rfl).1

/-- The dependencies of a stacked node that are done are listed, save the one stacked above it. -/
def Pending (next : K → Option (List K)) (ordered : List K) : Option K → List (K × Nat) → Prop
  | _, [] => True
  | above, (name, index) :: rest =>
    (∃ dependencies, next name = some dependencies ∧ ∀ j < index, ∀ dependency,
      dependencies[j]? = some dependency → dependency ∈ ordered ∨ some dependency = above) ∧
    Pending next ordered (some name) rest

omit [DecidableEq K] in
theorem Pending.mono {ordered longer : List K} {above : Option K} {stack : List (K × Nat)}
    (subset : ordered ⊆ longer) (pending : Pending next ordered above stack) :
    Pending next longer above stack := by
  induction stack generalizing above with
  | nil => trivial
  | cons entry rest ih =>
    obtain ⟨⟨dependencies, known, done⟩, below⟩ := pending
    refine ⟨⟨dependencies, known, fun j small dependency here => ?_⟩, ih below⟩
    exact (done j small dependency here).imp_left (@subset _)

omit [DecidableEq K] in
/-- When the node above a stack is listed, nothing is left out. -/
theorem Pending.listed {ordered : List K} {name : K} {stack : List (K × Nat)}
    (pending : Pending next ordered (some name) stack) (member : name ∈ ordered) :
    Pending next ordered none stack := by
  cases stack with
  | nil => trivial
  | cons entry rest =>
    obtain ⟨⟨dependencies, known, done⟩, below⟩ := pending
    refine ⟨⟨dependencies, known, fun j small dependency here => .inl ?_⟩, below⟩
    rcases done j small dependency here with inside | same
    · exact inside
    · rwa [some.inj same]

/-- What holds between the rounds of a search. -/
structure Search.Sound (next : K → Option (List K)) (search : Search K) : Prop where
  closed : Closed next search.ordered
  nodup : search.ordered.Nodup
  listed : ∀ name, search.mark name = 2 ↔ name ∈ search.ordered
  entered : ∀ name, search.mark name = 1 → name ∈ search.stack.map fst
  marked : ∀ name, search.mark name = 0 ∨ search.mark name = 1 ∨ search.mark name = 2
  reached : ∀ name ∈ search.reachable, search.mark name ≠ 0
  pending : Pending next search.ordered none search.stack
  distinct : (search.stack.map fst).Nodup
  below : ∀ entry ∈ search.stack.tail, search.mark entry.1 = 1
  top : ∀ entry, search.stack.head? = some entry →
    search.mark entry.1 = 1 ∨ search.mark entry.1 = 0 ∧ entry.2 = 0

/-- The nodes a search has listed or will list. -/
def Search.Holds (search : Search K) (name : K) : Prop :=
  name ∈ search.ordered ∨ name ∈ search.stack.map fst

theorem lookup_put (marks : List (K × Nat)) (name other : K) (value : Nat) :
    ((((name, value) :: marks).lookup other).getD 0) =
      if other = name then value else (marks.lookup other).getD 0 := by
  rw [lookup_cons]
  by_cases same : other = name
  · subst same
    rw [beq_self_eq_true, if_pos rfl]
    rfl
  · rw [beq_false_of_ne same, if_neg same]

theorem Search.mark_enter (search : Search K) (name other : K)
    (open' : search.mark name = 1 ∨ search.mark name = 0) :
    (search.enter name).mark other = if other = name then 1 else search.mark other := by
  unfold Search.enter
  split
  · exact lookup_put search.marks name other 1
  · rename_i marked
    split
    · rename_i same
      rw [same]
      exact open'.resolve_right marked
    · rfl

variable {search : Search K}

theorem Search.mem_reachable_enter {name other : K}
    (inside : other ∈ (search.enter name).reachable) : other = name ∨ other ∈ search.reachable := by
  unfold Search.enter at inside
  split at inside
  · exact mem_cons.mp inside
  · exact .inr inside

@[simp]
theorem Search.ordered_enter (search : Search K) (name : K) :
    (search.enter name).ordered = search.ordered := by
  unfold Search.enter
  split <;> rfl

section Step

variable {search after : Search K} {name : K} {index : Nat} {rest : List (K × Nat)}

/-- What a round does. -/
theorem Search.step_cases (ran : search.step next name index rest = .ok after) :
    ∃ dependencies, next name = some dependencies ∧
      ((∃ dependency, dependencies[index]? = some dependency ∧ (next dependency).isSome ∧
          ((search.enter name).mark dependency = 0 ∧ after = { search.enter name with
                stack := (dependency, 0) :: (name, index + 1) :: rest } ∨
            (search.enter name).mark dependency ≠ 0 ∧ (search.enter name).mark dependency ≠ 1 ∧
              after = { search.enter name with
                stack := (name, index + 1) :: rest
                reachable := dependency :: (search.enter name).reachable })) ∨
        dependencies.length ≤ index ∧ ∃ trail, after =
          ⟨(name, 2) :: (search.enter name).marks, (search.enter name).ordered ++ [name],
            (search.enter name).reachable, trail, rest⟩) := by
  unfold Search.step at ran
  split at ran
  · cases ran
  · rename_i dependencies known
    refine ⟨dependencies, known, ?_⟩
    dsimp only at ran
    split at ran
    · rename_i dependency here
      refine .inl ⟨dependency, here, ?_⟩
      split at ran
      · cases ran
      · rename_i exists'
        refine ⟨Option.isSome_iff_ne_none.mpr (by simpa using exists'), ?_⟩
        split at ran
        · cases ran
        · rename_i unentered
          split at ran
          · rename_i fresh
            cases ran
            exact .inl ⟨fresh, rfl⟩
          · rename_i stale
            cases ran
            exact .inr ⟨stale, unentered, rfl⟩
    · rename_i done
      cases ran
      exact .inr ⟨List.getElem?_eq_none_iff.mp done, _, rfl⟩

theorem Search.step_sound (sound : search.Sound next) (stacked : search.stack = (name, index) :: rest)
    (ran : search.step next name index rest = .ok after) :
    after.Sound next ∧ ∀ other, search.Holds other → after.Holds other := by
  obtain ⟨dependencies, known, next'⟩ := Search.step_cases ran
  have open' : search.mark name = 1 ∨ search.mark name = 0 :=
    (sound.top _ (by rw [stacked]; rfl)).imp_right And.left
  have mark := fun other => search.mark_enter name other open'
  have distinct := sound.distinct
  have below := sound.below
  have pending := sound.pending
  rw [stacked] at distinct below pending
  rw [map_cons, nodup_cons] at distinct
  obtain ⟨⟨_, known', done⟩, others⟩ := pending
  cases known.symm.trans known'
  have unlisted : name ∉ search.ordered := by
    intro inside
    rcases open' with one | zero
    · exact absurd ((sound.listed name).mpr inside) (by omega)
    · exact absurd ((sound.listed name).mpr inside) (by omega)
  have isBelow : ∀ entry ∈ rest, search.mark entry.1 = 1 := below
  have apart : ∀ entry ∈ rest, entry.1 ≠ name := fun entry inside same =>
    distinct.1 (mem_map.mpr ⟨entry, inside, same⟩)
  -- What entering the top changes.
  have listed : ∀ other, (search.enter name).mark other = 2 ↔ other ∈ search.ordered := by
    intro other
    rw [mark]
    split
    · rename_i same
      subst same
      exact ⟨fun impossible => absurd impossible (by decide), fun inside => absurd inside unlisted⟩
    · exact sound.listed other
  have marked : ∀ other, (search.enter name).mark other = 0 ∨ (search.enter name).mark other = 1 ∨
      (search.enter name).mark other = 2 := by
    intro other
    rw [mark]
    split
    · exact .inr (.inl rfl)
    · exact sound.marked other
  have entered : ∀ other, (search.enter name).mark other = 1 →
      other = name ∨ other ∈ rest.map fst := by
    intro other one
    rw [mark] at one
    split at one
    · exact .inl ‹_›
    · have inside := sound.entered other one
      rw [stacked] at inside
      exact mem_cons.mp inside
  have reached : ∀ other ∈ (search.enter name).reachable, (search.enter name).mark other ≠ 0 := by
    intro other inside
    rw [mark]
    split
    · decide
    · rename_i differs
      exact sound.reached other ((mem_reachable_enter inside).resolve_left differs)
  have lower : ∀ entry ∈ rest, (search.enter name).mark entry.1 = 1 := by
    intro entry inside
    rw [mark, if_neg (apart entry inside)]
    exact isBelow entry inside
  have self : (search.enter name).mark name = 1 := by rw [mark, if_pos rfl]
  have holds : ∀ other, search.Holds other → other ∈ search.ordered ∨ other = name ∨
      other ∈ rest.map fst := by
    intro other held
    refine held.imp_right fun inside => ?_
    rw [stacked] at inside
    exact mem_cons.mp inside
  rcases next' with ⟨dependency, here, exists', ⟨fresh, rfl⟩ | ⟨stale, unentered, rfl⟩⟩ |
    ⟨finished, trail, rfl⟩
  · -- A dependency that has not been entered is stacked.
    obtain ⟨itsDependencies, isKnown⟩ := isSome_iff_exists.mp exists'
    have unseen : dependency ∉ name :: rest.map fst := by
      intro inside
      rcases mem_cons.mp inside with rfl | inside
      · omega
      · obtain ⟨entry, member, rfl⟩ := mem_map.mp inside
        have one := lower entry member
        omega
    refine ⟨⟨?_, ?_, ?_, ?_, marked, reached, ?_, ?_, ?_, ?_⟩, ?_⟩
    · simpa using sound.closed
    · simpa using sound.nodup
    · intro other
      rw [ordered_enter]
      exact listed other
    · intro other one
      exact mem_cons_of_mem _ (mem_cons.mpr (entered other one))
    · refine ⟨⟨itsDependencies, isKnown, fun j small => absurd small (Nat.not_lt_zero j)⟩, ?_, ?_⟩
      · refine ⟨dependencies, known, fun j small other isOther => ?_⟩
        rw [ordered_enter]
        rcases Nat.lt_succ_iff_lt_or_eq.mp small with before | rfl
        · exact .inl ((done j before other isOther).resolve_right (by simp))
        · exact .inr (isOther.symm.trans here)
      · rw [ordered_enter]
        exact others
    · exact nodup_cons.mpr ⟨unseen, nodup_cons.mpr distinct⟩
    · intro entry inside
      rcases mem_cons.mp inside with rfl | inside
      · exact self
      · exact lower entry inside
    · intro entry isTop
      cases isTop
      exact .inr ⟨fresh, rfl⟩
    · intro other held
      rcases holds other held with inside | rfl | inside
      · exact .inl (by simpa using inside)
      · exact .inr (mem_cons_of_mem _ mem_cons_self)
      · exact .inr (mem_cons_of_mem _ (mem_cons_of_mem _ inside))
  · -- A dependency that is listed is passed.
    have isListed : dependency ∈ search.ordered := by
      rcases marked dependency with zero | one | two
      · exact absurd zero stale
      · exact absurd one unentered
      · exact (listed dependency).mp two
    refine ⟨⟨?_, ?_, ?_, ?_, marked, ?_, ?_, ?_, ?_, ?_⟩, ?_⟩
    · simpa using sound.closed
    · simpa using sound.nodup
    · intro other
      rw [ordered_enter]
      exact listed other
    · intro other one
      exact mem_cons.mpr (entered other one)
    · intro other inside
      rcases mem_cons.mp inside with rfl | inside
      · exact stale
      · exact reached other inside
    · refine ⟨⟨dependencies, known, fun j small other isOther => .inl ?_⟩, ?_⟩
      · rw [ordered_enter]
        rcases Nat.lt_succ_iff_lt_or_eq.mp small with before | rfl
        · exact (done j before other isOther).resolve_right (by simp)
        · cases isOther.symm.trans here
          exact isListed
      · rw [ordered_enter]
        exact others
    · exact nodup_cons.mpr distinct
    · exact lower
    · intro entry isTop
      cases isTop
      exact .inl self
    · intro other held
      rcases holds other held with inside | rfl | inside
      · exact .inl (by simpa using inside)
      · exact .inr mem_cons_self
      · exact .inr (mem_cons_of_mem _ inside)
  · -- The top is listed.
    have all : dependencies ⊆ search.ordered := by
      intro dependency inside
      obtain ⟨j, small, rfl⟩ := mem_iff_getElem.mp inside
      exact (done j (by omega) _ (List.getElem?_eq_getElem small)).resolve_right (by simp)
    have mark' : ∀ other, (Search.mark ⟨(name, 2) :: (search.enter name).marks,
        (search.enter name).ordered ++ [name], (search.enter name).reachable, trail, rest⟩ other) =
          if other = name then 2 else (search.enter name).mark other :=
      fun other => lookup_put _ name other 2
    refine ⟨⟨?_, ?_, ?_, ?_, ?_, ?_, ?_, distinct.2, ?_, ?_⟩, ?_⟩
    · rw [ordered_enter]
      exact sound.closed.snoc known all
    · rw [ordered_enter]
      exact nodup_append.mpr ⟨sound.nodup, nodup_singleton _, fun other inside last isLast =>
        fun same => unlisted (mem_singleton.mp isLast ▸ same ▸ inside)⟩
    · intro other
      rw [mark', ordered_enter, mem_append, mem_singleton]
      split
      · simp [*]
      · rename_i differs
        rw [listed other]
        simp [differs]
    · intro other one
      rw [mark'] at one
      split at one
      · exact absurd one (by decide)
      · rename_i differs
        exact (entered other one).resolve_left differs
    · intro other
      rw [mark']
      split
      · exact .inr (.inr rfl)
      · exact marked other
    · intro other inside
      rw [mark']
      split
      · decide
      · exact reached other inside
    · rw [ordered_enter]
      exact (others.mono (List.subset_append_left _ _)).listed (mem_append_right _ mem_cons_self)
    · intro entry inside
      rw [mark', if_neg (apart entry (List.mem_of_mem_tail inside))]
      exact lower entry (List.mem_of_mem_tail inside)
    · intro entry isTop
      have inside := List.mem_of_mem_head? isTop
      rw [mark', if_neg (apart entry inside)]
      exact .inl (lower entry inside)
    · intro other held
      rcases holds other held with inside | rfl | inside
      · exact .inl (mem_append_left _ (by simpa using inside))
      · exact .inl (mem_append_right _ mem_cons_self)
      · exact .inr inside

end Step

/-- What every round preserves, a run does. It ends with an empty stack. -/
theorem Search.run_invariant {I : Search K → Prop}
    (preserved : ∀ {search name index rest after}, I search →
      search.stack = (name, index) :: rest → search.step next name index rest = .ok after → I after)
    {after : Search K} {fuel : Nat} (ran : search.run next fuel = .ok after)
    (start : I search) : I after ∧ after.stack = [] := by
  induction fuel generalizing search with
  | zero =>
    unfold Search.run at ran
    split at ran
    · rename_i empty
      cases ran
      exact ⟨start, empty⟩
    · cases ran
  | succ fuel ih =>
    unfold Search.run at ran
    split at ran
    · rename_i empty
      cases ran
      exact ⟨start, empty⟩
    · rename_i name index rest stacked
      dsimp only at ran
      split at ran
      · cases ran
      · rename_i between stepped
        exact ih ran (preserved start stacked stepped)

/-- What holds when the stack is empty: the list is closed, and what was reached is listed. -/
theorem Search.run_sound {after : Search K} {fuel : Nat} (sound : search.Sound next)
    (ran : search.run next fuel = .ok after) :
    after.Sound next ∧ after.stack = [] ∧ ∀ other, search.Holds other → other ∈ after.ordered := by
  obtain ⟨⟨ends, held⟩, empty⟩ := Search.run_invariant
    (I := fun between => between.Sound next ∧ ∀ other, search.Holds other → between.Holds other)
    (fun ⟨sound, held⟩ stacked stepped => (Search.step_sound sound stacked stepped).imp_right
      fun holds other here => holds other (held other here)) ran ⟨sound, fun _ here => here⟩
  refine ⟨ends, empty, fun other here => (held other here).resolve_right ?_⟩
  rw [empty]
  exact not_mem_nil

theorem Search.Sound.reached_listed (sound : search.Sound next)
    (empty : search.stack = []) : search.reachable ⊆ search.ordered := by
  intro other inside
  rcases sound.marked other with zero | one | two
  · exact absurd zero (sound.reached other inside)
  · have stacked := sound.entered other one
    rw [empty] at stacked
    cases stacked
  · exact (sound.listed other).mp two

/-- The search that has not begun. -/
def Search.empty : Search K := ⟨[], [], [], [], []⟩

theorem Search.empty_sound : (Search.empty : Search K).Sound next where
  closed := by
    intro before name after split
    cases before <;> cases split
  nodup := nodup_nil
  listed name := ⟨fun impossible => absurd impossible (show (0 : Nat) ≠ 2 by decide),
    fun inside => by cases inside⟩
  entered name one := absurd one (show (0 : Nat) ≠ 1 by decide)
  marked name := .inl rfl
  reached name inside := by cases inside
  pending := trivial
  distinct := nodup_nil
  below entry inside := by cases inside
  top entry isTop := by cases isTop

variable {dependencies : List K}

/-- A search that goes on from another node. -/
def Search.restart (search : Search K) (root : K) : Search K :=
  { search with trail := [], stack := [(root, 0)] }

theorem Search.restart_sound {root : K}
    (sound : search.Sound next) (empty : search.stack = []) (unlisted : search.mark root ≠ 2)
    (known : next root = some dependencies) : (search.restart root).Sound next where
  closed := sound.closed
  nodup := sound.nodup
  listed := sound.listed
  entered name one := by
    have stacked := sound.entered name one
    rw [empty] at stacked
    cases stacked
  marked := sound.marked
  reached := sound.reached
  pending := ⟨⟨dependencies, known, fun j small => absurd small (Nat.not_lt_zero j)⟩, trivial⟩
  distinct := nodup_singleton _
  below entry inside := by cases inside
  top entry isTop := by
    cases isTop
    refine .inr ⟨?_, rfl⟩
    rcases sound.marked root with zero | one | two
    · exact zero
    · have stacked := sound.entered root one
      rw [empty] at stacked
      cases stacked
    · exact absurd two unlisted

/-- The search from a node. -/
def Search.start (root : K) : Search K := ⟨[], [], [], [], [(root, 0)]⟩

theorem Search.start_sound {root : K}
    (known : next root = some dependencies) : (Search.start root).Sound next :=
  restart_sound empty_sound rfl (show (0 : Nat) ≠ 2 by decide) known

end Koschei.Lib.DepthFirst
