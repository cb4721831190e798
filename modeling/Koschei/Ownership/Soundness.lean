import Koschei.Types.Search
import Koschei.Ownership.Affine

/-!
# What the affine pass guarantees

`marks` reads the state of the pass as the state of the path analysis: each
binding is owned when its type is affine, and handed over when its number is
among the moved ones. Every step of the pass is the step of the analysis on the
plan of the same piece of code (`checkExpr_flows` and the others, one case for
each form), so an accepted function has an accepted plan and no path of it uses
a binding that it has moved.

The numbers of the bindings are what makes this work: they are never used twice,
so a number that was moved in a branch or a closed scope says nothing about any
other binding.
-/

namespace Koschei.Ownership

open Lib Ast
open List (contains_eq_mem mem_flatten_of_mem)

section Marks

variable (affine : TypeNode → Bool)

/-- A binding as the path analysis sees it. -/
def mark (moved : List Nat) (entry : String × Binding) : String × Slot :=
  (entry.1, ⟨affine entry.2.type, moved.contains entry.2.id⟩)

/-- The scopes of the pass as the path analysis sees them. -/
def marks (state : CheckState) : Scopes String :=
  state.scopes.map fun scope => scope.map (mark affine state.moved)

/-- Numbers are used once, names once in a scope. -/
structure Fresh (state : CheckState) : Prop where
  distinct : state.outerIds.Nodup
  numbered : ∀ id ∈ state.outerIds, id < state.next
  moved : ∀ id ∈ state.moved, id < state.next
  named : ∀ scope ∈ state.scopes, (scope.map fst).Nodup

variable {affine}

variable {state after before a b c inside : CheckState} {scope : List (String × Binding)}

theorem mem_outerIds
    {entry : String × Binding} (inScopes : scope ∈ state.scopes) (inScope : entry ∈ scope) :
    entry.2.id ∈ state.outerIds := by
  unfold CheckState.outerIds CheckState.bindings
  rw [map_map]
  exact mem_map_of_mem (mem_flatten_of_mem inScopes inScope)

/-- Where the moves of the visible bindings are the same, so are the marks. -/
theorem marks_congr {first second : CheckState} (scopes : second.scopes = first.scopes)
    (moved : ∀ scope ∈ first.scopes, ∀ entry ∈ scope,
      second.moved.contains entry.2.id = first.moved.contains entry.2.id) :
    marks affine second = marks affine first := by
  unfold marks
  rw [scopes]
  apply map_congr_left
  intro scope inScopes
  apply map_congr_left
  intro entry inScope
  unfold mark
  rw [moved scope inScopes entry inScope]

/-! ### Names -/

theorem declares_mark (name : String) (moved : List Nat) (scope : List (String × Binding)) :
    declares name (scope.map (mark affine moved)) = (scope.lookup name).isSome := by
  induction scope with
  | nil => rfl
  | cons entry scope ih =>
    obtain ⟨key, binding⟩ := entry
    unfold declares at ih ⊢
    rw [map_cons, any_cons, ih, lookup_cons]
    by_cases same : key = name
    · subst same
      simp [mark]
    · have differ : (name == key) = false := by simpa using fun h => same h.symm
      have differ' : (key == name) = false := by simpa using same
      simp [mark, differ, differ']

theorem lookup_mark (name : String) (moved : List Nat) (scope : List (String × Binding)) :
    (scope.map (mark affine moved)).lookup name =
      (scope.lookup name).map fun binding => ⟨affine binding.type, moved.contains binding.id⟩ := by
  induction scope with
  | nil => rfl
  | cons entry scope ih =>
    obtain ⟨key, binding⟩ := entry
    rw [map_cons, lookup_cons, mark, lookup_cons]
    dsimp only
    cases name == key with
    | true => rfl
    | false => exact ih

theorem slotOf_marks (name : String) (state : CheckState) :
    slotOf name (marks affine state) = (state.resolve name).map fun binding =>
      ⟨affine binding.type, state.moved.contains binding.id⟩ := by
  unfold marks CheckState.resolve
  induction state.scopes with
  | nil => rfl
  | cons scope scopes ih =>
    rw [map_cons, slotOf, declares_mark, lookup_mark, List.findSome?_cons]
    cases scope.lookup name with
    | none => simpa using ih
    | some binding => rfl

variable {name : String}

theorem mem_of_lookup_binding {binding : Binding}
    (found : scope.lookup name = some binding) : (name, binding) ∈ scope := by
  induction scope with
  | nil => cases found
  | cons entry scope ih =>
    obtain ⟨key, other⟩ := entry
    rw [lookup_cons] at found
    cases same : name == key with
    | true =>
      rw [same] at found
      cases found
      rw [beq_iff_eq] at same
      rw [same]
      exact mem_cons_self
    | false =>
      rw [same] at found
      exact mem_cons_of_mem _ (ih found)

theorem marks_cons {binding : Binding} (fresh : Fresh state)
    (resolved : state.resolve name = some binding) :
    marks affine { state with moved := binding.id :: state.moved } =
      handOver name (marks affine state) := by
  obtain ⟨scopes, moved, next⟩ := state
  obtain ⟨distinct, -, -, named⟩ := fresh
  have other : ∀ entry : String × Binding, entry.2.id ≠ binding.id →
      mark affine (binding.id :: moved) entry = mark affine moved entry := by
    intro entry differs
    have differ : (entry.2.id == binding.id) = false := by simpa using differs
    unfold mark
    rw [List.contains_cons, differ, Bool.false_or]
  unfold marks
  dsimp only
  unfold CheckState.resolve at resolved
  unfold CheckState.outerIds CheckState.bindings at distinct
  dsimp only at resolved distinct named
  induction scopes with
  | nil => cases resolved
  | cons scope scopes ih =>
    rw [flatten_cons, map_append, map_append, nodup_append] at distinct
    obtain ⟨here, there, apart⟩ := distinct
    rw [List.findSome?_cons] at resolved
    rw [map_cons, map_cons, handOver, declares_mark]
    cases found : scope.lookup name with
    | some local_ =>
      rw [found] at resolved
      cases resolved
      have member := mem_of_lookup_binding found
      rw [if_pos isSome_some, map_map]
      congr 1
      · apply map_congr_left
        intro entry inScope
        have uniqueName := named scope mem_cons_self
        by_cases same : entry.1 = name
        · have both : entry = (name, binding) := by
            have pairwise := inj_on_of_nodup_map uniqueName
            exact pairwise inScope member same
          subst both
          simp [mark]
        · have differ : (entry.1 == name) = false := by simpa using same
          have unlike : entry.2.id ≠ binding.id := by
            intro sameId
            rw [map_map] at here
            have equal := inj_on_of_nodup_map here inScope member sameId
            exact same (congrArg fst equal)
          rw [other entry unlike, Function.comp]
          simp [mark, differ]
      · apply map_congr_left
        intro outer inScopes
        apply map_congr_left
        intro entry inScope
        apply other
        intro sameId
        have first : binding.id ∈ (scope.map snd).map Binding.id := by
          rw [map_map]
          exact mem_map_of_mem member
        have second : entry.2.id ∈ (scopes.flatten.map snd).map Binding.id := by
          rw [map_map]
          exact mem_map_of_mem (mem_flatten_of_mem inScopes inScope)
        exact apart _ first _ second sameId.symm
    | none =>
      rw [found] at resolved
      rw [if_neg (by simp)]
      congr 1
      · apply map_congr_left
        intro entry inScope
        apply other
        intro sameId
        obtain ⟨outer, inScopes, inner⟩ := List.exists_of_findSome?_eq_some resolved
        have member := mem_of_lookup_binding inner
        have first : entry.2.id ∈ (scope.map snd).map Binding.id := by
          rw [map_map]
          exact mem_map_of_mem inScope
        have second : binding.id ∈ (scopes.flatten.map snd).map Binding.id := by
          rw [map_map]
          exact mem_map_of_mem (mem_flatten_of_mem inScopes member)
        exact apart _ first _ second sameId
      · exact ih resolved there (forall_mem_cons.mp named).2

/-! ### Steps of the pass -/

/-- A step that leaves the scopes as they are. -/
structure Stays (before after : CheckState) : Prop where
  scopes : after.scopes = before.scopes
  later : before.next ≤ after.next
  fresh : Fresh after

theorem fresh_mark {binding : Binding} (fresh : Fresh state)
    (resolved : state.resolve name = some binding) :
    Fresh { state with moved := binding.id :: state.moved } := by
  refine ⟨fresh.distinct, fresh.numbered, ?_, fresh.named⟩
  intro id member
  rcases mem_cons.mp member with rfl | member
  · obtain ⟨scope, inScopes, found⟩ := List.exists_of_findSome?_eq_some resolved
    exact fresh.numbered _ (mem_outerIds inScopes (mem_of_lookup_binding found))
  · exact fresh.moved id member

theorem markMove_flows {binding : Binding}
    (fresh : Fresh state) (resolved : state.resolve name = some binding)
    (owned : affine binding.type = true) (passed : markMove binding state = .ok after) :
    flowUse name true (marks affine state) = some (marks affine after) ∧ Stays state after := by
  unfold markMove at passed
  split at passed
  · cases passed
  · rename_i still
    cases passed
    refine ⟨?_, rfl, le_refl _, fresh_mark fresh resolved⟩
    unfold flowUse
    rw [slotOf_marks, resolved]
    dsimp only [map_some]
    rw [if_pos owned, if_neg still, if_pos rfl, marks_cons fresh resolved]

variable {moves isMutable : Bool}

theorem useIdentifier_flows
    (fresh : Fresh state) (passed : useIdentifier affine name moves state = .ok after) :
    flowUse name moves (marks affine state) = some (marks affine after) ∧ Stays state after := by
  unfold useIdentifier at passed
  split at passed
  · rename_i unresolved
    cases passed
    refine ⟨?_, rfl, le_refl _, fresh⟩
    unfold flowUse
    rw [slotOf_marks, unresolved]
    rfl
  · rename_i binding resolved
    have slot : slotOf name (marks affine state) =
        some ⟨affine binding.type, state.moved.contains binding.id⟩ := by
      rw [slotOf_marks, resolved]
      rfl
    split at passed
    · rename_i notOwned
      rw [not_eq_true'] at notOwned
      cases passed
      refine ⟨?_, rfl, le_refl _, fresh⟩
      unfold flowUse
      rw [slot]
      dsimp only
      rw [notOwned, if_neg false_ne_true]
    · rename_i isOwned
      rw [not_eq_true', not_eq_false] at isOwned
      split at passed
      · cases passed
      · rename_i still
        cases moves with
        | true => exact markMove_flows fresh resolved isOwned passed
        | false =>
          cases passed
          refine ⟨?_, rfl, le_refl _, fresh⟩
          unfold flowUse
          rw [slot]
          dsimp only
          rw [if_pos isOwned, if_neg still, if_neg false_ne_true]

theorem moveOwner_flows {owner : Option String} (fresh : Fresh state)
    (passed : moveOwner affine owner state = .ok after) :
    flow (ownerPlan owner) (marks affine state) = some (marks affine after) ∧
      Stays state after := by
  cases owner with
  | none =>
    cases passed
    exact ⟨rfl, rfl, le_refl _, fresh⟩
  | some name =>
    unfold moveOwner at passed
    rw [bind_some] at passed
    split at passed
    · rename_i unresolved
      cases passed
      refine ⟨?_, rfl, le_refl _, fresh⟩
      change flowUse name true _ = _
      unfold flowUse
      rw [slotOf_marks, unresolved]
      rfl
    · rename_i binding resolved
      split at passed
      · rename_i owned
        exact markMove_flows fresh resolved owned passed
      · rename_i notOwned
        cases passed
        refine ⟨?_, rfl, le_refl _, fresh⟩
        change flowUse name true _ = _
        unfold flowUse
        rw [slotOf_marks, resolved]
        dsimp only [map_some]
        rw [if_neg notOwned]

/-- A step that binds in the innermost scope only. -/
structure Binds (before after : CheckState) : Prop where
  outer : after.scopes.tail = before.scopes.tail
  some_scope : after.scopes ≠ []
  later : before.next ≤ after.next
  fresh : Fresh after

theorem Stays.binds (stays : Stays before after)
    (some_scope : before.scopes ≠ []) : Binds before after :=
  ⟨by rw [stays.scopes], by rwa [stays.scopes], stays.later, stays.fresh⟩

theorem Binds.trans (first : Binds a b) (second : Binds b c) : Binds a c :=
  ⟨second.outer.trans first.outer, second.some_scope, first.later.trans second.later, second.fresh⟩

variable {type : TypeNode}

theorem declareBinding_flows (fresh : Fresh state) (some_scope : state.scopes ≠ [])
    (passed : declareBinding affine name type isMutable state = .ok after) :
    marks affine after = declare name (affine type) (marks affine state) ∧ Binds state after := by
  obtain ⟨scopes, moved, next⟩ := state
  obtain ⟨distinct, numbered, movedBelow, named⟩ := fresh
  cases scopes with
  | nil => exact absurd rfl some_scope
  | cons scope scopes =>
  unfold declareBinding at passed
  split at passed
  · cases passed
  cases passed
  dsimp only at *
  have newNumber : moved.contains next = false := by
    rw [contains_eq_mem, decide_eq_false_iff_not]
    intro member
    exact lt_irrefl next (movedBelow next member)
  have ids : ∀ kept : List (String × Binding), kept.Sublist scope →
      ((next :: ((kept ++ scopes.flatten).map snd).map Binding.id)).Nodup ∧
        ∀ id ∈ next :: ((kept ++ scopes.flatten).map snd).map Binding.id, id < next + 1 := by
    intro kept sub
    have subIds : (((kept ++ scopes.flatten).map snd).map Binding.id).Sublist
        (((scope :: scopes).flatten.map snd).map Binding.id) :=
      ((List.Sublist.append_right sub _).map _).map _
    refine ⟨nodup_cons.mpr ⟨?_, distinct.sublist subIds⟩, ?_⟩
    · intro member
      exact lt_irrefl next (numbered next (subIds.subset member))
    · intro id member
      rcases mem_cons.mp member with rfl | member
      · exact Nat.lt_succ_self id
      · exact Nat.lt_succ_of_lt (numbered id (subIds.subset member))
  have filtered := ids _ (filter_sublist (p := fun entry => entry.1 != name) (l := scope))
  refine ⟨?_, rfl, cons_ne_nil _ _, Nat.le_succ next, filtered.1, filtered.2, ?_, ?_⟩
  · unfold marks
    dsimp only
    rw [map_cons, map_cons, map_cons, declare]
    congr 1
    congr 1
    · unfold mark
      rw [newNumber]
    · rw [List.filter_map]
      rfl
  · intro id member
    exact Nat.lt_succ_of_lt (movedBelow id member)
  · intro other member
    rcases mem_cons.mp member with rfl | member
    · rw [map_cons, nodup_cons]
      refine ⟨?_, (named scope mem_cons_self).sublist (filter_sublist.map _)⟩
      intro inside
      obtain ⟨entry, kept, same⟩ := mem_map.mp inside
      have differs := (mem_filter.mp kept).2
      simp [same] at differs
    · exact named other (mem_cons_of_mem _ member)

theorem fresh_enter (fresh : Fresh state) : Fresh state.enter :=
  ⟨fresh.distinct, fresh.numbered, fresh.moved, fun scope member => by
    rcases mem_cons.mp member with rfl | member
    · exact nodup_nil
    · exact fresh.named scope member⟩

theorem marks_enter (state : CheckState) : marks affine state.enter = [] :: marks affine state := rfl

/-- Leaving a scope drops its slots. -/
theorem leave_flows (binds : Binds before.enter after) :
    marks affine after.leave = (marks affine after).tail ∧ Stays before after.leave := by
  obtain ⟨scopes, moved, next⟩ := after
  obtain ⟨outer, some_scope, later, distinct, numbered, movedBelow, named⟩ := binds
  cases scopes with
  | nil => exact absurd rfl some_scope
  | cons scope scopes =>
  dsimp only at *
  have same : scopes = before.scopes := outer
  unfold CheckState.outerIds CheckState.bindings at distinct numbered
  dsimp only at distinct numbered
  rw [flatten_cons, map_append, map_append] at distinct numbered
  obtain ⟨-, there, apart⟩ := nodup_append.mp distinct
  refine ⟨?_, same, later, ?_⟩
  · unfold marks CheckState.leave
    dsimp only [tail_cons, List.headD_cons]
    rw [map_cons, tail_cons]
    apply map_congr_left
    intro outer inScopes
    apply map_congr_left
    intro entry inScope
    have elsewhere : entry.2.id ∉ scope.map fun entry => entry.2.id := by
      intro inside
      refine apart entry.2.id ?_ entry.2.id ?_ rfl
      · rw [map_map]
        exact inside
      · rw [map_map]
        exact mem_map_of_mem (mem_flatten_of_mem inScopes inScope)
    unfold mark
    congr 2
    rw [contains_eq_mem, contains_eq_mem]
    congr 1
    rw [mem_filter]
    simp [elsewhere]
  · exact ⟨there, (forall_mem_append.mp numbered).2,
      fun id member => movedBelow id (mem_filter.mp member).1,
      (forall_mem_cons.mp named).2⟩

theorem Stays.refl (fresh : Fresh state) : Stays state state := ⟨rfl, le_refl _, fresh⟩

theorem Stays.trans (first : Stays a b) (second : Stays b c) : Stays a c :=
  ⟨second.scopes.trans first.scopes, first.later.trans second.later, second.fresh⟩

theorem fresh_restore (fresh : Fresh before)
    (later : before.next ≤ after.next) : Fresh (before.restore after) :=
  ⟨fresh.distinct, fun id member => (fresh.numbered id member).trans_le later,
    fun id member => (fresh.moved id member).trans_le later, fresh.named⟩

theorem moved_of_atMost (scopes : after.scopes = before.scopes)
    (more : AtMost (marks affine before) (marks affine after)) :
    ∀ scope ∈ before.scopes, ∀ entry ∈ scope, before.moved.contains entry.2.id = true →
      after.moved.contains entry.2.id = true := by
  unfold AtMost marks at more
  rw [scopes, List.forall₂_map_left_iff, List.forall₂_map_right_iff, List.forall₂_same] at more
  intro scope inScopes entry inScope
  have entries := more scope inScopes
  rw [List.forall₂_map_left_iff, List.forall₂_map_right_iff, List.forall₂_same] at entries
  exact (entries entry inScope).2.2

/-- The collected moves of two branches are the join of their marks. -/
theorem joined_flows {before first second : CheckState} (fresh : Fresh before)
    (one : first.scopes = before.scopes) (two : second.scopes = before.scopes)
    (later : before.next ≤ second.next) (more : AtMost (marks affine before) (marks affine first)) :
    marks affine (before.joined first second) = join (marks affine first) (marks affine second) ∧
      Stays before (before.joined first second) := by
  have visible : ∀ id ∈ before.moved ++
      (first.moved.filter fun id => before.outerIds.contains id) ++
      second.moved.filter fun id => before.outerIds.contains id, id < second.next := by
    intro id member
    rw [mem_append, mem_append, mem_filter, mem_filter] at member
    rcases member with (earlier | ⟨-, outer⟩) | ⟨-, outer⟩
    · exact (fresh.moved id earlier).trans_le later
    · exact (fresh.numbered id (contains_iff_mem.mp outer)).trans_le later
    · exact (fresh.numbered id (contains_iff_mem.mp outer)).trans_le later
  refine ⟨?_, rfl, later, fresh.distinct,
    fun id member => (fresh.numbered id member).trans_le later, visible, fresh.named⟩
  unfold marks join
  rw [one, two, List.zipWith_map, List.zipWith_self]
  apply map_congr_left
  intro scope inScopes
  rw [List.zipWith_map, List.zipWith_self]
  apply map_congr_left
  intro entry inScope
  have outer : before.outerIds.contains entry.2.id = true :=
    contains_iff_mem.mpr (mem_outerIds inScopes inScope)
  have grown := moved_of_atMost one more scope inScopes entry inScope
  unfold mark joinEntry CheckState.joined
  dsimp only
  congr 2
  rw [Bool.eq_iff_iff]
  simp only [contains_iff_mem, mem_append, mem_filter, or_eq_true] at grown outer ⊢
  constructor
  · rintro ((earlier | ⟨moved, -⟩) | ⟨moved, -⟩)
    · exact .inl (grown earlier)
    · exact .inl moved
    · exact .inr moved
  · rintro (moved | moved)
    · exact .inl (.inr ⟨moved, outer⟩)
    · exact .inr ⟨moved, outer⟩

theorem earliest_eq_none {bindings : List Binding} (none_ : earliest bindings = none) :
    bindings = [] := by
  cases bindings with
  | nil => rfl
  | cons binding rest =>
    rw [earliest] at none_
    split at none_
    · split at none_ <;> cases none_
    · cases none_

/-- A repeated block that the pass accepts moves nothing from outside. -/
theorem endRepeated_flows {earlier inside state after : CheckState} (fresh : Fresh earlier)
    (scopes : inside.scopes = earlier.scopes) (subset : inside.moved ⊆ state.moved)
    (later : earlier.next ≤ state.next) (more : AtMost (marks affine earlier) (marks affine inside))
    (passed : endRepeated earlier state = .ok after) :
    marks affine inside = marks affine earlier ∧ marks affine after = marks affine earlier ∧
      Stays earlier after := by
  unfold endRepeated at passed
  split at passed
  · cases passed
  · rename_i nothing
    cases passed
    have newly := earliest_eq_none nothing
    refine ⟨?_, rfl, rfl, later, fresh_restore fresh later⟩
    apply marks_congr scopes
    intro scope inScopes entry inScope
    rw [Bool.eq_iff_iff]
    refine ⟨fun moved => ?_, moved_of_atMost scopes more scope inScopes entry inScope⟩
    have now : state.moved.contains entry.2.id = true :=
      contains_iff_mem.mpr (subset (contains_iff_mem.mp moved))
    have binding : entry.2 ∈ earlier.bindings :=
      mem_map_of_mem (mem_flatten_of_mem inScopes inScope)
    have unlisted := filter_eq_nil_iff.mp newly entry.2 binding
    rw [now, Bool.true_and, not_eq_true', not_eq_false] at unlisted
    exact unlisted

/-- The moves of an arm count as those of its end. -/
theorem joined_leave {before collected start after : CheckState}
    (same : start.scopes = before.scopes) (binds : Binds start.enter after) :
    before.joined collected after.leave = before.joined collected after := by
  obtain ⟨scopes, moved, next⟩ := after
  obtain ⟨outer, some_scope, -, fresh⟩ := binds
  cases scopes with
  | nil => exact absurd rfl some_scope
  | cons scope scopes =>
  have rest : scopes = before.scopes := Eq.trans outer same
  have distinct := fresh.distinct
  unfold CheckState.outerIds CheckState.bindings at distinct
  dsimp only at distinct
  rw [flatten_cons, map_append, map_append, rest] at distinct
  have apart := (nodup_append.mp distinct).2.2
  unfold CheckState.joined CheckState.leave
  dsimp only [List.headD_cons]
  rw [List.filter_filter]
  congr 2
  apply filter_congr
  intro id _
  rw [Bool.eq_iff_iff]
  simp only [and_eq_true, not_eq_true', contains_iff_mem, and_iff_left_iff_imp]
  intro visible
  rw [contains_eq_mem, decide_eq_false_iff_not]
  intro inside
  refine apart id ?_ id visible rfl
  rw [map_map]
  exact inside

/-! ## The pass follows the plan -/

/-- The analysis of a plan goes where the pass goes, and the scopes stay. -/
structure Follows (affine : TypeNode → Bool) (plan : Plan String) (before after : CheckState) :
    Prop where
  flows : flow plan (marks affine before) = some (marks affine after)
  stays : Stays before after

/-- The same, for a plan that binds in the innermost scope. -/
structure FollowsBinding (affine : TypeNode → Bool) (plan : Plan String)
    (before after : CheckState) : Prop where
  flows : flow plan (marks affine before) = some (marks affine after)
  binds : Binds before after

theorem Follows.done (fresh : Fresh state) :
    Follows affine .done state state := ⟨rfl, Stays.refl fresh⟩

variable {first second plan : Plan String}

theorem Follows.both (one : Follows affine first a b) (two : Follows affine second b c) :
    Follows affine (.both first second) a c :=
  ⟨by rw [flow, one.flows, bind_some, two.flows], one.stays.trans two.stays⟩

theorem Follows.optional (tidy : plan.tidy = true)
    (follows : Follows affine plan before after) : Follows affine plan.optional before after :=
  ⟨flow_optional tidy follows.flows, follows.stays⟩

theorem Follows.above (tidy : plan.tidy = true) (follows : Follows affine plan before after) :
    AtMost (marks affine before) (marks affine after) := (flow_above follows.flows).2 tidy

theorem Follows.binding
    (some_scope : before.scopes ≠ []) (follows : Follows affine plan before after) :
    FollowsBinding affine plan before after := ⟨follows.flows, follows.stays.binds some_scope⟩

theorem FollowsBinding.both
    (one : FollowsBinding affine first a b) (two : FollowsBinding affine second b c) :
    FollowsBinding affine (.both first second) a c :=
  ⟨by rw [flow, one.flows, bind_some, two.flows], one.binds.trans two.binds⟩

/-- A block that is entered and left. -/
theorem FollowsBinding.within (inside : FollowsBinding affine plan before.enter after) :
    Follows affine (.within plan) before after.leave := by
  have left : marks affine after.leave = (marks affine after).tail ∧ Stays before after.leave :=
    leave_flows inside.binds
  obtain ⟨dropped, stays⟩ := left
  refine ⟨?_, stays⟩
  rw [flow, ← marks_enter, inside.flows, map_some, dropped]

/-! ### Every expression binds in scopes of its own -/

theorem ownerPlan_tidy (owner : Option String) : (ownerPlan owner).tidy = true := by
  cases owner <;> rfl

theorem tidy_both (one : first.tidy = true)
    (two : second.tidy = true) : (Plan.both first second).tidy = true := by
  rw [Plan.tidy, one, two]
  rfl

theorem tidy_optional (tidy : plan.tidy = true) : plan.optional.tidy = true := by
  rw [Plan.optional, Plan.tidy, tidy]
  rfl

/-! ### The arms of a match -/

/-- What has been collected after some arms is what had been before, joined with what the
analysis of the arms gives. -/
structure Collects (affine : TypeNode → Bool) (plan : Plan String)
    (before collected final : CheckState) : Prop where
  flows : ∃ last, flow plan (marks affine before) = some last ∧
    marks affine final = join (marks affine collected) last
  stays : Stays before final

theorem Collects.arm {before collected after final : CheckState} {plan rest : Plan String}
    (fresh : Fresh before) (start : Stays before collected)
    (more : AtMost (marks affine before) (marks affine collected)) (tidy : rest.tidy = true)
    (arm : FollowsBinding affine plan (before.restore collected).enter after)
    (others : Stays before (before.joined collected after) →
      AtMost (marks affine before) (marks affine (before.joined collected after)) →
        Collects affine rest before (before.joined collected after) final) :
    Collects affine (.either (.within plan) rest) before collected final := by
  have left := arm.within
  have taken : flow (.within plan) (marks affine before) = some (marks affine after.leave) :=
    left.flows
  have sameScopes : (before.restore collected).scopes = before.scopes := rfl
  have sameEnd : before.joined collected after.leave = before.joined collected after :=
    joined_leave sameScopes arm.binds
  have later : before.next ≤ after.leave.next := start.later.trans left.stays.later
  obtain ⟨joinedMarks, joinedStays⟩ := joined_flows fresh start.scopes left.stays.scopes later more
  rw [sameEnd] at joinedMarks joinedStays
  have grown : AtMost (marks affine before) (marks affine (before.joined collected after)) := by
    rw [joinedMarks]
    exact more.trans (below_join more ((flow_above taken).2 rfl)).1
  obtain ⟨⟨last, flowed, result⟩, stays⟩ := others joinedStays grown
  refine ⟨⟨join (marks affine after.leave) last, ?_, ?_⟩, stays⟩
  · rw [flow, if_pos (by rw [tidy]; rfl), taken, bind_some, flowed]
    rfl
  · rw [result, joinedMarks, join_assoc]

theorem Collects.follows {before final : CheckState} (tidy : plan.tidy = true)
    (collects : Collects affine plan before before final) : Follows affine plan before final := by
  obtain ⟨⟨last, flowed, result⟩, stays⟩ := collects
  refine ⟨?_, stays⟩
  rw [flowed, result, join_of_above ((flow_above flowed).2 tidy)]

/-! ### Loops -/

theorem steady_keeps {condition : Expr} (steady : Spot.Tracked affine (.repeated condition))
    (tidy : (exprPlan affine condition false).tidy = true)
    (follows : Follows affine (exprPlan affine condition false) before after) :
    marks affine after = marks affine before :=
  flow_quiet steady tidy follows.flows

theorem again_follows
    (tidy : plan.tidy = true) (turn : flow plan (marks affine before) = some (marks affine inside))
    (nothing : marks affine inside = marks affine before)
    (same : marks affine after = marks affine before) (stays : Stays before after) :
    Follows affine (.again plan) before after := by
  refine ⟨?_, stays⟩
  rw [flow, if_pos tidy, turn, bind_some, if_pos nothing, same]

/-! ### Every form -/

/-- The pass loses nothing at any of the spots. -/
def AllTracked (affine : TypeNode → Bool) (spots : List Spot) : Prop :=
  ∀ spot ∈ spots, spot.Tracked affine

theorem allTracked_append {first second : List Spot} :
    AllTracked affine (first ++ second) ↔ AllTracked affine first ∧ AllTracked affine second :=
  forall_mem_append

theorem allTracked_cons {spot : Spot} {spots : List Spot} :
    AllTracked affine (spot :: spots) ↔ spot.Tracked affine ∧ AllTracked affine spots :=
  forall_mem_cons

theorem enter_some (state : CheckState) : state.enter.scopes ≠ [] := cons_ne_nil _ _

theorem useIdentifier_follows
    (fresh : Fresh state) (passed : useIdentifier affine name moves state = .ok after) :
    Follows affine (.use name moves) state after :=
  ⟨(useIdentifier_flows fresh passed).1, (useIdentifier_flows fresh passed).2⟩

theorem declareBinding_follows (fresh : Fresh state) (some_scope : state.scopes ≠ [])
    (passed : declareBinding affine name type isMutable state = .ok after) :
    FollowsBinding affine (.bind name (affine type)) state after := by
  obtain ⟨declared, binds⟩ := declareBinding_flows fresh some_scope passed
  exact ⟨by rw [flow, declared], binds⟩

/-- A check keeps track of what its plan does, if the pass loses nothing at the spots. -/
structure Traces (affine : TypeNode → Bool) (spots : List Spot)
    (check : CheckState → Except AffineError CheckState) (plan : Plan String) : Prop where
  tidy : plan.tidy = true
  follows : ∀ {state after}, AllTracked affine spots → Fresh state → check state = .ok after →
    Follows affine plan state after

/-- The same, for a check that declares in the innermost scope. -/
structure TracesBinding (affine : TypeNode → Bool) (spots : List Spot)
    (check : CheckState → Except AffineError CheckState) (plan : Plan String) : Prop where
  follows : ∀ {state after}, AllTracked affine spots → Fresh state → state.scopes ≠ [] →
    check state = .ok after → FollowsBinding affine plan state after

section Traces

variable {spots spots' : List Spot} {check check' : CheckState → Except AffineError CheckState}

theorem Traces.done : Traces affine [] .ok .done := by
  refine ⟨rfl, fun _ fresh passed => ?_⟩
  cases passed
  exact Follows.done fresh

theorem Traces.use (name : String) (moves : Bool) :
    Traces affine [] (useIdentifier affine name moves) (.use name moves) :=
  ⟨rfl, fun _ => useIdentifier_follows⟩

theorem Traces.both (one : Traces affine spots check first)
    (two : Traces affine spots' check' second) :
    Traces affine (spots ++ spots') (fun state => check state >>= check') (.both first second) := by
  refine ⟨tidy_both one.tidy two.tidy, fun tracked fresh passed => ?_⟩
  obtain ⟨here, there⟩ := allTracked_append.mp tracked
  obtain ⟨middle, start, rest⟩ := bind_eq_ok passed
  have follows := one.follows here fresh start
  exact follows.both (two.follows there follows.stays.fresh rest)

theorem Traces.last (one : Traces affine spots check first) (two : Traces affine [] check' second) :
    Traces affine spots (fun state => check state >>= check') (.both first second) := by
  simpa using one.both two

theorem Traces.optional (traces : Traces affine spots check plan) :
    Traces affine spots check plan.optional :=
  ⟨tidy_optional traces.tidy, fun tracked fresh passed =>
    (traces.follows tracked fresh passed).optional traces.tidy⟩

theorem Traces.binding (traces : Traces affine spots check plan) :
    TracesBinding affine spots check plan :=
  ⟨fun tracked fresh some_scope passed =>
    (traces.follows tracked fresh passed).binding some_scope⟩

theorem TracesBinding.declare (name : String) (type : TypeNode) (isMutable : Bool) :
    TracesBinding affine [] (declareBinding affine name type isMutable)
      (.bind name (affine type)) :=
  ⟨fun _ => declareBinding_follows⟩

/-- The name of a payload is declared without a type. -/
theorem TracesBinding.payload (name : String) (type : TypeNode) :
    TracesBinding affine [.payload type] (declareBinding affine name .unknown false)
      (.bind name (affine type)) := by
  refine ⟨fun tracked fresh some_scope passed => ?_⟩
  have plain : affine type = affine .unknown := tracked _ mem_cons_self
  rw [plain]
  exact declareBinding_follows fresh some_scope passed

theorem TracesBinding.both (one : TracesBinding affine spots check first)
    (two : TracesBinding affine spots' check' second) :
    TracesBinding affine (spots ++ spots') (fun state => check state >>= check')
      (.both first second) := by
  refine ⟨fun tracked fresh some_scope passed => ?_⟩
  obtain ⟨here, there⟩ := allTracked_append.mp tracked
  obtain ⟨middle, start, rest⟩ := bind_eq_ok passed
  have follows := one.follows here fresh some_scope start
  exact follows.both (two.follows there follows.binds.fresh follows.binds.some_scope rest)

theorem TracesBinding.within (inside : TracesBinding affine spots check plan) :
    Traces affine spots (fun state => check state.enter >>= fun after => .ok after.leave)
      (.within plan) := by
  refine ⟨rfl, fun tracked fresh passed => ?_⟩
  obtain ⟨after, block, rest⟩ := bind_eq_ok passed
  cases rest
  exact (inside.follows tracked (fresh_enter fresh) (enter_some _) block).within

/-- The same for the arms of a match, which collect. -/
structure TracesArms (affine : TypeNode → Bool) (spots : List Spot)
    (check : CheckState → CheckState → Except AffineError CheckState) (plan : Plan String) :
    Prop where
  tidy : plan.tidy = true
  collects : ∀ {before collected after}, AllTracked affine spots → Fresh before →
    Stays before collected → AtMost (marks affine before) (marks affine collected) →
      check before collected = .ok after → Collects affine plan before collected after

variable {others : CheckState → CheckState → Except AffineError CheckState}

theorem TracesArms.arm (arm : TracesBinding affine spots check plan)
    (rest : TracesArms affine spots' others second) :
    TracesArms affine (spots ++ spots') (fun before collected => do
      let after ← check (before.restore collected).enter
      others before (before.joined collected after)) (.either (.within plan) second) := by
  refine ⟨rest.tidy, fun tracked fresh start more passed => ?_⟩
  obtain ⟨here, there⟩ := allTracked_append.mp tracked
  obtain ⟨inside, first, later⟩ := bind_eq_ok passed
  have entered := fresh_enter (fresh_restore fresh start.later)
  exact Collects.arm fresh start more rest.tidy (arm.follows here entered (enter_some _) first)
    fun joined grown => rest.collects there fresh joined grown later

/-- An arm that names its payload. -/
theorem TracesArms.payloadArm (name : String) (type : TypeNode)
    (arm : TracesBinding affine spots check plan) (rest : TracesArms affine spots' others second) :
    TracesArms affine (.payload type :: (spots ++ spots')) (fun before collected => do
      let inside ← declareBinding affine name .unknown false (before.restore collected).enter
      let after ← check inside
      others before (before.joined collected after))
      (.either (.within (.both (.bind name (affine type)) plan)) second) := by
  have whole := TracesArms.arm ((TracesBinding.payload name type).both arm) rest
  simp only [bind_assoc] at whole
  exact whole

end Traces

mutual
theorem checkExpr_traces : ∀ (expression : Expr) (moves : Bool),
    Traces affine (exprSpots expression) (checkExpr affine expression moves)
      (exprPlan affine expression moves)
  | .literal _ _, _ => .done
  | .ident name _, moves => .use name moves
  | .interpolated parts _, _ => checkParts_traces parts
  | .list items _, _ => checkItems_traces items
  | .map entries _, _ => checkEntries_traces entries
  | .struct _ fields _ _, _ => checkFields_traces fields
  | .member object _ type, moves => (checkExpr_traces object false).last
    ⟨ownerPlan_tidy _, fun _ fresh passed =>
      ⟨(moveOwner_flows fresh passed).1, (moveOwner_flows fresh passed).2⟩⟩
  | .call callee arguments _ _, _ =>
    (checkExpr_traces callee false).both (checkArguments_traces arguments)
  | .assign name value _, _ => (checkExpr_traces value _).last (.use name false)
  | .assignField object _ _ value _, _ => by
    have value := checkExpr_traces value (affine value.type)
    refine ⟨tidy_both rfl (tidy_both value.tidy rfl), fun {state after} tracked fresh passed => ?_⟩
    obtain ⟨middle, first, rest⟩ := bind_eq_ok passed
    have one := value.follows tracked fresh first
    have two := useIdentifier_follows one.stays.fresh rest
    -- The owner is borrowed before the value too, where it has been moved no further.
    have early : Follows affine (.use object false) state state :=
      ⟨flowUse_earlier (one.above value.tidy) two.flows, Stays.refl fresh⟩
    exact early.both (one.both two)
  | .binary left _ right _, _ =>
    (checkExpr_traces left false).both (checkExpr_traces right false).optional
  | .unary _ operand _, _ => checkExpr_traces operand false
  | .orReturn value none _, _ => checkExpr_traces value _
  | .orReturn value (some error) _, _ =>
    (checkExpr_traces value _).both (checkExpr_traces error _).optional
  | .orElse value other _, _ =>
    (checkExpr_traces value _).both (checkExpr_traces other _).optional
  | .orBlock value handler _, _ =>
    (checkExpr_traces value _).both (checkStmts_traces handler).within.optional
  | .matchOn value arms _ _, moves => by
    have arms := checkArms_traces arms moves
    refine (checkExpr_traces value false).both ⟨arms.tidy, fun tracked fresh passed => ?_⟩
    exact (arms.collects tracked fresh (Stays.refl fresh) (AtMost.refl _) passed).follows arms.tidy

theorem checkParts_traces : ∀ parts : List Expr,
    Traces affine (allSpots parts) (checkParts affine parts) (partsPlan affine parts)
  | [] => .done
  | part :: rest => (checkExpr_traces part false).both (checkParts_traces rest)

theorem checkArguments_traces : ∀ arguments : List Expr,
    Traces affine (allSpots arguments) (checkMoved affine arguments)
      (argumentsPlan affine arguments)
  | [] => .done
  | argument :: rest => (checkExpr_traces argument _).both (checkArguments_traces rest)

theorem checkItems_traces : ∀ items : List Expr,
    Traces affine (allSpots items) (checkMoved affine items) (itemsPlan affine items)
  | [] => .done
  | item :: rest => (checkExpr_traces item _).both (checkItems_traces rest).optional

theorem checkEntries_traces : ∀ entries : List (Expr × Expr),
    Traces affine (entriesSpots entries) (checkEntries affine entries) (entriesPlan affine entries)
  | [] => .done
  | (key, value) :: rest => by
    have entry := (checkExpr_traces key false).both
      ((checkExpr_traces value (affine value.type)).both
        (checkEntries_traces rest).optional).optional
    rw [← append_assoc] at entry
    exact entry

theorem checkFields_traces : ∀ fields : List (String × Expr),
    Traces affine (fieldsSpots fields) (checkFields affine fields) (fieldsPlan affine fields)
  | [] => .done
  | (_, value) :: rest => (checkExpr_traces value _).both (checkFields_traces rest).optional

theorem checkArms_traces : ∀ (arms : List Arm) (moves : Bool),
    TracesArms affine (armsSpots arms) (fun before => checkArms affine arms moves before)
      (armsPlan affine arms moves)
  | [], _ => by
    refine ⟨rfl, fun {before _ _} _ _ start more passed => ?_⟩
    cases passed
    exact ⟨⟨marks affine before, rfl, (join_of_below more).symm⟩, start⟩
  | .expression _ _ none body :: rest, moves =>
    .arm (checkExpr_traces body _).binding (checkArms_traces rest moves)
  | .expression _ _ (some (name, type)) body :: rest, moves =>
    .payloadArm name type (checkExpr_traces body _).binding (checkArms_traces rest moves)
  | .block _ _ none body :: rest, moves =>
    .arm (checkStmts_traces body) (checkArms_traces rest moves)
  | .block _ _ (some (name, type)) body :: rest, moves =>
    .payloadArm name type (checkStmts_traces body) (checkArms_traces rest moves)

theorem checkStmt_traces : ∀ statement : Stmt,
    TracesBinding affine (stmtSpots statement) (checkStmt affine statement)
      (stmtPlan affine statement)
  | .letIn name isMutable value => by
    have bound := (checkExpr_traces value (affine value.type)).binding.both
      (.declare name value.type isMutable)
    rw [append_nil] at bound
    exact bound
  | .ret none => Traces.done.binding
  | .ret (some value) => (checkExpr_traces value _).binding
  | .expression expression => (checkExpr_traces expression false).binding
  | .ifThen statement => (checkIf_traces statement).binding
  | .whileDo condition body _ => by
    refine ⟨fun {state after} tracked fresh some_scope passed => ?_⟩
    obtain ⟨trackedHere, trackedInside⟩ := allTracked_cons.mp tracked
    obtain ⟨trackedCondition, trackedBody⟩ := allTracked_append.mp trackedInside
    obtain ⟨middle, first, rest⟩ := bind_eq_ok passed
    obtain ⟨inside, block, rest⟩ := bind_eq_ok rest
    have test := checkExpr_traces condition false
    have one := test.follows trackedCondition fresh first
    have two := ((checkStmts_traces body).follows trackedBody (fresh_enter one.stays.fresh)
      (enter_some middle) block).within
    obtain ⟨nothing, same, stays⟩ := endRepeated_flows one.stays.fresh two.stays.scopes
      (Subset.refl _) two.stays.later (two.above rfl) rest
    -- The condition changes no mark, so a whole turn does not.
    have kept := steady_keeps trackedHere test.tidy one
    have loop : Follows affine (.again (.both (exprPlan affine condition false)
        (.within (stmtsPlan affine body)))) state after :=
      again_follows (tidy_both test.tidy rfl) (one.both two).flows
        (nothing.trans kept) (same.trans kept) (one.stays.trans stays)
    have last : Follows affine (exprPlan affine condition false).optional after after := by
      refine ⟨flow_optional test.tidy ?_, Stays.refl stays.fresh⟩
      rw [same, kept, one.flows, kept]
    exact (loop.both last).binding some_scope
  | .forIn name iterable body _ => by
    refine ⟨fun {state after} tracked fresh some_scope passed => ?_⟩
    obtain ⟨trackedIterable, trackedBody⟩ := allTracked_append.mp tracked
    obtain ⟨middle, first, rest⟩ := bind_eq_ok passed
    obtain ⟨bound, declared, rest⟩ := bind_eq_ok rest
    obtain ⟨inside, block, rest⟩ := bind_eq_ok rest
    have one := (checkExpr_traces iterable false).follows trackedIterable fresh first
    have item := declareBinding_follows (fresh_enter one.stays.fresh) (enter_some middle) declared
    have two := (item.both ((checkStmts_traces body).follows trackedBody item.binds.fresh
      item.binds.some_scope block)).within
    obtain ⟨nothing, same, stays⟩ := endRepeated_flows one.stays.fresh two.stays.scopes
      filter_sublist.subset two.stays.later (two.above rfl) rest
    exact (one.both (again_follows rfl two.flows nothing same stays)).binding some_scope
  | .breakLoop => Traces.done.binding
  | .continueLoop => Traces.done.binding

theorem checkIf_traces : ∀ statement : IfStmt,
    Traces affine (ifSpots statement) (checkIf affine statement) (ifPlan affine statement)
  | .mk condition thenBlock elseBranch => by
    have test := checkExpr_traces condition false
    have otherwise := checkElse_traces elseBranch
    refine ⟨tidy_both test.tidy (tidy_optional otherwise.tidy), fun tracked fresh passed => ?_⟩
    obtain ⟨trackedFront, trackedElse⟩ := allTracked_append.mp tracked
    obtain ⟨trackedCondition, trackedThen⟩ := allTracked_append.mp trackedFront
    obtain ⟨before, start, rest⟩ := bind_eq_ok passed
    obtain ⟨inside, block, rest⟩ := bind_eq_ok rest
    obtain ⟨second, other, rest⟩ := bind_eq_ok rest
    cases rest
    have one := test.follows trackedCondition fresh start
    have two := ((checkStmts_traces thenBlock).follows trackedThen (fresh_enter one.stays.fresh)
      (enter_some before) block).within
    have three := otherwise.follows trackedElse (fresh_restore one.stays.fresh two.stays.later) other
    have elseFlows : flow (elsePlan affine elseBranch) (marks affine before) =
        some (marks affine second) := three.flows
    obtain ⟨joinedMarks, stays⟩ := joined_flows one.stays.fresh two.stays.scopes
      three.stays.scopes (two.stays.later.trans three.stays.later) (two.above rfl)
    have branches : Follows affine (.either (.within (stmtsPlan affine thenBlock))
        (elsePlan affine elseBranch)) before (before.joined inside.leave second) := by
      refine ⟨?_, stays⟩
      rw [flow, if_pos (by rw [otherwise.tidy]; rfl), two.flows, bind_some, elseFlows, joinedMarks]
      rfl
    exact one.both (branches.optional otherwise.tidy)

theorem checkElse_traces : ∀ branch : Else,
    Traces affine (elseSpots branch) (checkElse affine branch) (elsePlan affine branch)
  | .nothing => .done
  | .block statements => (checkStmts_traces statements).within
  | .elseIf statement => checkIf_traces statement

theorem checkStmts_traces : ∀ statements : List Stmt,
    TracesBinding affine (stmtsSpots statements) (checkStmts affine statements)
      (stmtsPlan affine statements)
  | [] => Traces.done.binding
  | statement :: rest => (checkStmt_traces statement).both (checkStmts_traces rest)
end

/-! ## Functions -/

theorem declareParameters_traces : ∀ parameters : List Parameter,
    TracesBinding affine [] (declareParameters affine parameters) (parametersPlan affine parameters)
  | [] => Traces.done.binding
  | parameter :: rest =>
    (TracesBinding.declare parameter.name parameter.type false).both (declareParameters_traces rest)

theorem fresh_start (next : Nat) : Fresh ⟨[[]], [], next⟩ := by
  refine ⟨nodup_nil, nofun, nofun, ?_⟩
  intro scope member
  rw [mem_singleton.mp member]
  exact nodup_nil

variable {function : FunctionDeclaration}

theorem checkFunction_flows {next last : Nat}
    (tracked : AllTracked affine (stmtsSpots function.body))
    (accepted : checkFunction affine function next = .ok last) :
    ∃ after, flow (functionPlan affine function) [[]] = some after := by
  obtain ⟨state, declared, rest⟩ := bind_eq_ok accepted
  obtain ⟨after, body, -⟩ := bind_eq_ok rest
  have one := (declareParameters_traces function.parameters).follows (forall_mem_nil _)
    (fresh_start next) (cons_ne_nil _ _) declared
  have two := (checkStmts_traces function.body).follows tracked one.binds.fresh one.binds.some_scope body
  exact ⟨_, (one.both two).flows⟩

theorem checkFunctions_each :
    ∀ {functions : List FunctionDeclaration} {next : Nat}, function ∈ functions →
      checkFunctions affine functions next = .ok () →
        ∃ first last, checkFunction affine function first = .ok last := by
  intro functions
  induction functions with
  | nil =>
    intro next member
    cases member
  | cons other functions ih =>
    intro next member accepted
    obtain ⟨last, here, rest⟩ := bind_eq_ok accepted
    rcases mem_cons.mp member with rfl | member
    · exact ⟨next, last, here⟩
    · exact ih member rest

end Marks

/-- Where every `while` condition moves nothing from outside and no match payload is affine, no
path through an accepted function uses or moves a binding that it has moved. -/
theorem accepted_moves_once {decls : Declarations} {affine : TypeNode → Bool}
    {functions : List FunctionDeclaration} {function : FunctionDeclaration}
    {final : Lib.Ownership String} {ends : Bool}
    (agrees : ∀ node answer, Sensitivity decls node answer → affine node = answer)
    (accepted : checkFunctions affine functions 1 = .ok ()) (member : function ∈ functions)
    (conditions : ∀ condition, Spot.repeated condition ∈ stmtsSpots function.body →
      (exprPlan affine condition false).freeMoves [] = [])
    (payloads : ∀ type, Spot.payload type ∈ stmtsSpots function.body → affine type = false)
    (run : Run (functionPlan affine function) ⟨[[]], false⟩ final ends) :
    final.violated = false := by
  have unknown : affine .unknown = false := agrees .unknown false ⟨1, rfl⟩
  have tracked : AllTracked affine (stmtsSpots function.body) := by
    intro spot inside
    cases spot with
    | repeated condition => exact conditions condition inside
    | payload type => exact (payloads type inside).trans unknown.symm
  obtain ⟨first, last, passed⟩ := checkFunctions_each member accepted
  obtain ⟨after, flowed⟩ := checkFunction_flows tracked passed
  exact flow_safe flowed run

/-! ### Programs without declarations -/

mutual
/-- The affine types of a program that declares none. -/
def capabilityBearing : TypeNode → Bool
  | .named name => capabilityTypes.contains name
  | .generic _ arguments => anyCapabilityBearing arguments
  | .union options => anyCapabilityBearing options
  | .unknown => false
  | .variable _ => false

def anyCapabilityBearing : List TypeNode → Bool
  | [] => false
  | node :: nodes => capabilityBearing node || anyCapabilityBearing nodes
end

theorem nothing_inside (node : TypeNode) : Declarations.inside ⟨[], []⟩ node = none := by
  cases node <;> rfl

mutual
theorem finds_iff_capabilityBearing {path : List String} : ∀ node : TypeNode,
    (Declarations.landscape ⟨[], []⟩).Finds path node ↔ capabilityBearing node = true
  | .unknown | .variable _ | .named _ => by
    rw [Lib.Landscape.finds_iff]
    simp [nothing_inside, TypeNode.isCapability, TypeNode.parts, capabilityBearing]
  | .generic _ nodes | .union nodes => by
    rw [Lib.Landscape.finds_iff]
    simp [nothing_inside, TypeNode.isCapability, TypeNode.parts, capabilityBearing,
      finds_iff_anyCapabilityBearing nodes]

theorem finds_iff_anyCapabilityBearing {path : List String} : ∀ nodes : List TypeNode,
    (∃ node ∈ nodes, (Declarations.landscape ⟨[], []⟩).Finds path node) ↔
      anyCapabilityBearing nodes = true
  | [] => by simp [anyCapabilityBearing]
  | node :: nodes => by
    simp [anyCapabilityBearing, finds_iff_capabilityBearing node,
      finds_iff_anyCapabilityBearing nodes]
end

/-- `fn consume(disk: DiskCaps) -> Bool`. -/
def consume : FunctionDeclaration where
  name := "consume"
  typeParameters := []
  parameters := [⟨"disk", ["DiskCaps"], .named "DiskCaps"⟩]
  returnNames := some ["Bool"]
  returnType := .named "Bool"
  body := [.ret (some (.literal (.bool true) (.named "Bool")))]

/-- `consume(disk)`. -/
def consumeDisk : Expr :=
  .call (.ident "consume" .unknown) [.ident "disk" (.named "DiskCaps")] .plain (.named "Bool")

/-- A function without a result. -/
def procedure (name : String) (parameter : Parameter) (body : List Stmt) : FunctionDeclaration :=
  ⟨name, [], [parameter], none, .named "Void", body⟩

/-- `while true {}`, then `consume(disk)`. -/
def loopThenConsume : FunctionDeclaration :=
  procedure "run" ⟨"disk", ["DiskCaps"], .named "DiskCaps"⟩
    [.whileDo (.literal (.bool true) (.named "Bool")) [] none, .expression consumeDisk]

/-- `while consume(disk) {}`. -/
def consumeInCondition : FunctionDeclaration :=
  procedure "run" ⟨"disk", ["DiskCaps"], .named "DiskCaps"⟩ [.whileDo consumeDisk [] none]

/-- `match found { Some(disk) => { consume(disk) consume(disk) } }`. -/
def consumePayload : FunctionDeclaration :=
  procedure "run" ⟨"found", ["Option<DiskCaps>"], .generic "Option" [.named "DiskCaps"]⟩
    [.expression (.matchOn (.ident "found" (.generic "Option" [.named "DiskCaps"]))
      [.block "Some" "Option::Some" (some ("disk", .named "DiskCaps"))
        [.expression consumeDisk, .expression consumeDisk]] true (.named "Void"))]

theorem capabilityBearing_sensitivity (node : TypeNode) (answer : Bool)
    (searched : Sensitivity ⟨[], []⟩ node answer) : capabilityBearing node = answer := by
  rw [Bool.eq_iff_iff, Declarations.finds_of_sensitivity searched, finds_iff_capabilityBearing]

/-- A run of `loopThenConsume` through its loop hands the capability over once. -/
theorem loopThenConsume_moves_once : ∃ final,
    Run (functionPlan capabilityBearing loopThenConsume) ⟨[[]], false⟩ final true ∧
      final.scopes = [[("disk", ⟨true, true⟩)]] ∧ final.violated = false := by
  have accepted : checkFunctions capabilityBearing [consume, loopThenConsume] 1 = .ok () := rfl
  have conditions : ∀ condition, Spot.repeated condition ∈ stmtsSpots loopThenConsume.body →
      (exprPlan capabilityBearing condition false).freeMoves [] = [] := by
    intro condition member
    cases mem_singleton.mp member
    rfl
  have payloads : ∀ type, Spot.payload type ∈ stmtsSpots loopThenConsume.body →
      capabilityBearing type = false := by
    intro type member
    cases mem_singleton.mp member
  obtain ⟨final, run, moved⟩ : ∃ final,
      Run (functionPlan capabilityBearing loopThenConsume) ⟨[[]], false⟩ final true ∧
        final.scopes = [[("disk", ⟨true, true⟩)]] :=
    ⟨_, .both (.both (.bind _ _ _) (.done _))
      (.both (.both (.again (.both (.done _) (.within (.done _))) (.never _ _)) (.right (.done _)))
        (.both (.both (.use _ _ _) (.both (.use _ _ _) (.done _))) (.done _))), rfl⟩
  exact ⟨final, run, moved, accepted_moves_once capabilityBearing_sensitivity accepted
    (mem_cons_of_mem _ mem_cons_self) conditions payloads run⟩

/-- The pass accepts a `while` condition that hands over a capability at every turn, and an arm
that hands over its payload twice. -/
theorem accepted_moves_twice :
    (∀ node answer, Sensitivity ⟨[], []⟩ node answer → capabilityBearing node = answer) ∧
      (checkFunctions capabilityBearing [consume, consumeInCondition] 1 = .ok () ∧
        ∃ final, Run (functionPlan capabilityBearing consumeInCondition) ⟨[[]], false⟩ final true ∧
          final.violated = true) ∧
      (checkFunctions capabilityBearing [consume, consumePayload] 1 = .ok () ∧
        ∃ final, Run (functionPlan capabilityBearing consumePayload) ⟨[[]], false⟩ final true ∧
          final.violated = true) := by
  refine ⟨capabilityBearing_sensitivity, ⟨rfl, ?_⟩, rfl, ?_⟩
  · exact ⟨_, .both (.both (.bind _ _ _) (.done _))
      (.both (.both (.again (.both (.both (.use _ _ _) (.both (.use _ _ _) (.done _)))
        (.within (.done _))) (.never _ _))
          (.left (.both (.use _ _ _) (.both (.use _ _ _) (.done _))))) (.done _)), rfl⟩
  · exact ⟨_, .both (.both (.bind _ _ _) (.done _))
      (.both (.both (.use _ _ _) (.left (.within (.both (.bind _ _ _)
        (.both (.both (.use _ _ _) (.both (.use _ _ _) (.done _)))
          (.both (.both (.use _ _ _) (.both (.use _ _ _) (.done _))) (.done _)))))))
        (.done _)), rfl⟩

end Koschei.Ownership
