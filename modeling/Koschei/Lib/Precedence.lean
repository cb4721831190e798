import Koschei.Lib.StableSort
import Mathlib.Order.WellFoundedSet

/-!
# Doing what is available first

Items are done one after the other, each after its predecessors. Of the items
that are available the one with the least key is done, until none is available.
The order is settled by the items and their precedence, it keeps the precedence,
and it is of all items exactly when the precedence has no cycle.

An algorithm that counts the predecessors that are not done finds this order.
-/

namespace Koschei.Lib

open List (count_cons_of_ne count_pos_iff subperm_of_subset)

/-! ## Pairs in order -/

section Pairs

variable {α : Type*} {l : List α} {a b c : α}

theorem pair_sublist_trans (nodup : l.Nodup) (first : [a, b].Sublist l) (second : [b, c].Sublist l) :
    [a, c].Sublist l := by
  induction l with
  | nil => cases first
  | cons x l ih =>
    obtain ⟨fresh, nodup⟩ := nodup_cons.mp nodup
    cases first with
    | cons _ first =>
      have differs : b ≠ x := by
        rintro rfl
        exact fresh (first.subset (mem_cons_of_mem a mem_cons_self))
      cases second with
      | cons _ second => exact .cons _ (ih nodup first second)
      | cons_cons _ second => exact absurd rfl differs
    | cons_cons _ first =>
      have last : c ∈ l := by
        cases second with
        | cons _ second => exact second.subset (mem_cons_of_mem b mem_cons_self)
        | cons_cons _ second => exact singleton_sublist.mp second
      exact .cons_cons _ (singleton_sublist.mpr last)

theorem not_pair_sublist_self (nodup : l.Nodup) : ¬ [a, a].Sublist l :=
  List.nodup_iff_sublist.mp nodup a

/-- A relation between elements that a list has in order has no cycle. -/
theorem acyclic_of_sublist {r : α → α → Prop} (nodup : l.Nodup)
    (ordered : ∀ a b, r a b → [a, b].Sublist l) : ∀ a, ¬ TransGen r a a := by
  have path : ∀ a b, TransGen r a b → [a, b].Sublist l := by
    intro a b related
    induction related with
    | single one => exact ordered _ _ one
    | tail _ one ih => exact pair_sublist_trans nodup ih (ordered _ _ one)
  exact fun a cycle => not_pair_sublist_self nodup (path a a cycle)

/-- A pair whose first element comes only in the second list is in order there. -/
theorem pair_sublist_append_right {m : List α} (absent : a ∉ l) (pair : [a, b].Sublist (l ++ m)) :
    [a, b].Sublist m := by
  induction l with
  | nil => exact pair
  | cons x l ih =>
    obtain ⟨differs, absent⟩ := List.ne_and_not_mem_of_not_mem_cons absent
    cases pair with
    | cons _ pair => exact ih absent pair
    | cons_cons _ _ => exact absurd rfl differs

/-- When some elements are moved to the end in an order of their own, a pair stays in order exactly when its
first element stays, or both are moved and are in order there. -/
theorem pair_sublist_moved_iff {moved : α → Bool} {last : List α}
    (isLast : ∀ x, x ∈ last ↔ x ∈ l ∧ moved x = true) (pair : [a, b].Sublist l) :
    [a, b].Sublist (l.filter (fun x => !moved x) ++ last) ↔
      (moved a = true → moved b = true ∧ [a, b].Sublist last) := by
  have first : a ∈ l := pair.subset mem_cons_self
  have second : b ∈ l := pair.subset (mem_cons_of_mem a mem_cons_self)
  cases isMoved : moved a with
  | true =>
    have absent : a ∉ l.filter fun x => !moved x := by
      intro member
      have stays := List.of_mem_filter member
      rw [isMoved] at stays
      exact false_ne_true stays
    constructor
    · intro ordered _
      have both := pair_sublist_append_right absent ordered
      exact ⟨((isLast b).mp (both.subset (mem_cons_of_mem a mem_cons_self))).2, both⟩
    · intro ordered
      exact (ordered rfl).2.trans (List.sublist_append_right _ _)
  | false =>
    refine ⟨fun _ impossible => absurd impossible false_ne_true, fun _ => ?_⟩
    have stays : a ∈ l.filter fun x => !moved x := mem_filter.mpr ⟨first, by rw [isMoved]; rfl⟩
    cases isMoved' : moved b with
    | true =>
      exact (singleton_sublist.mpr stays).append
        (singleton_sublist.mpr ((isLast b).mpr ⟨second, isMoved'⟩))
    | false =>
      have kept := pair.filter fun x => !moved x
      simp only [filter_cons, isMoved, isMoved', Bool.not_false, if_true, List.filter_nil] at kept
      exact kept.trans (List.sublist_append_left _ _)

/-- In a list that is strictly sorted, a pair is in order exactly when it is ordered. -/
theorem pair_sublist_iff_lt {β : Type*} [LinearOrder β] {l : List β} {a b : β}
    (sorted : l.Pairwise (· < ·)) (first : a ∈ l) (second : b ∈ l) : [a, b].Sublist l ↔ a < b := by
  constructor
  · exact fun pair => List.pairwise_iff_forall_sublist.mp sorted pair
  · intro less
    induction l with
    | nil => cases first
    | cons x l ih =>
      obtain ⟨above, sorted⟩ := pairwise_cons.mp sorted
      rcases mem_cons.mp first with rfl | later
      · exact .cons_cons _ (singleton_sublist.mpr
          ((mem_cons.mp second).resolve_left (ne_of_gt less)))
      · rcases mem_cons.mp second with rfl | last
        · exact absurd less (lt_asymm (above a later))
        · exact .cons _ (ih sorted later last)

end Pairs

/-! ## The order -/

section Order

variable {α β : Type*} [LinearOrder β]

/-- An item that is not done, and whose predecessors are. -/
structure Available (items : Set α) (Precedes : α → α → Prop) (done : List α) (item : α) : Prop where
  mem : item ∈ items
  fresh : item ∉ done
  predecessors : ∀ before, Precedes before item → before ∈ done

/-- After some items, the others are done: each time an available one with the least key, until none is
available. -/
inductive Greedy (items : Set α) (Precedes : α → α → Prop) (key : α → β) : List α → List α → Prop where
  | stop {done : List α} (none : ∀ item, ¬ Available items Precedes done item) :
      Greedy items Precedes key done []
  | next {done rest : List α} {item : α} (available : Available items Precedes done item)
      (least : ∀ other, Available items Precedes done other → key item ≤ key other)
      (later : Greedy items Precedes key (done ++ [item]) rest) :
      Greedy items Precedes key done (item :: rest)

variable {items : Set α} {Precedes : α → α → Prop} {key : α → β} {done rest : List α}
  {other : List α}

/-- The order is settled by the items and their precedence when their keys differ. -/
theorem Greedy.unique (apart : ∀ a ∈ items, ∀ b ∈ items, key a = key b → a = b)
    (first : Greedy items Precedes key done rest) (second : Greedy items Precedes key done other) :
    rest = other := by
  induction first generalizing other with
  | stop none =>
    cases second with
    | stop => rfl
    | next available => exact absurd available (none _)
  | next available least _ ih =>
    cases second with
    | stop none => exact absurd available (none _)
    | next available' least' later =>
      have same := apart _ available.mem _ available'.mem
        (le_antisymm (least _ available') (least' _ available))
      subst same
      rw [ih later]

section

variable (greedy : Greedy items Precedes key done rest)

include greedy

theorem Greedy.subset : ∀ item ∈ rest, item ∈ items := by
  induction greedy with
  | stop => exact forall_mem_nil _
  | next available _ _ ih => exact forall_mem_cons.mpr ⟨available.mem, ih⟩

theorem Greedy.nodup (nodup : done.Nodup) : (done ++ rest).Nodup := by
  induction greedy with
  | stop => rwa [append_nil]
  | @next done rest item available _ _ ih =>
    rw [append_cons]
    exact ih (List.nodup_append_comm.mp (nodup.cons available.fresh))

theorem Greedy.before {a b : α}
    (precedes : Precedes a b) (member : b ∈ rest) : a ∈ done ∨ [a, b].Sublist rest := by
  induction greedy with
  | stop => cases member
  | @next done rest item available _ _ ih =>
    rcases mem_cons.mp member with rfl | later
    · exact .inl (available.predecessors a precedes)
    · rcases ih later with earlier | ordered
      · rcases mem_append.mp earlier with before | here
        · exact .inl before
        · rw [mem_singleton.mp here]
          exact .inr (.cons_cons _ (singleton_sublist.mpr later))
      · exact .inr (.cons _ ordered)

/-- No order of all items that keeps their precedence is lexicographically before it. -/
theorem Greedy.least
    (all : ∀ item, item ∈ items → item ∈ done ++ other) (known : ∀ item ∈ other, item ∈ items)
    (nodup : (done ++ other).Nodup)
    (keeps : ∀ a b, Precedes a b → b ∈ other → a ∈ done ∨ [a, b].Sublist other) :
    ¬ List.Lex (fun a b => key a < key b) other rest := by
  induction greedy generalizing other with
  | stop => rintro ⟨⟩
  | @next done rest item available least _ ih =>
    intro before
    cases other with
    | nil =>
      have member := all item available.mem
      rw [append_nil] at member
      exact available.fresh member
    | cons first other =>
      obtain ⟨-, fresh, apart⟩ := List.nodup_append'.mp nodup
      obtain ⟨absent, -⟩ := nodup_cons.mp fresh
      cases before with
      | rel less =>
        have free : Available items Precedes done first := by
          refine ⟨known first mem_cons_self, fun member => apart member mem_cons_self,
            fun previous precedes => ?_⟩
          refine (keeps previous first precedes mem_cons_self).resolve_right fun pair => ?_
          cases pair with
          | cons _ pair => exact absent (pair.subset (mem_cons_of_mem _ mem_cons_self))
          | cons_cons _ pair => exact absent (singleton_sublist.mp pair)
        exact (least first free).not_gt less
      | cons later =>
        refine ih (fun member inside => ?_) (forall_mem_cons.mp known).2 ?_ (fun a b precedes inside => ?_) later
        · rw [← append_cons]
          exact all member inside
        · rw [← append_cons]
          exact nodup
        · rcases keeps a b precedes (mem_cons_of_mem _ inside) with earlier | pair
          · exact .inl (mem_append_left _ earlier)
          · cases pair with
            | cons _ pair => exact .inr pair
            | cons_cons => exact .inl (mem_append_right _ (mem_singleton_self _))

end

/-- Of items without a cycle, one that is not done is available while there is one. -/
theorem exists_available (finite : items.Finite) (known : ∀ a b, Precedes a b → a ∈ items)
    (acyclic : ∀ a, ¬ TransGen Precedes a a) {item : α} (member : item ∈ items)
    (fresh : item ∉ done) : ∃ other, Available items Precedes done other := by
  have strict : IsStrictOrder α (TransGen Precedes) :=
    { irrefl := acyclic, trans := fun _ _ _ => .trans }
  have wellFounded := (finite.subset (Set.sep_subset items (· ∉ done))).wellFoundedOn
    (r := TransGen Precedes)
  obtain ⟨⟨least, mem, undone⟩, -, minimal⟩ :=
    WellFounded.has_min wellFounded Set.univ ⟨⟨item, member, fresh⟩, trivial⟩
  refine ⟨least, mem, undone, fun before precedes => ?_⟩
  by_contra waiting
  exact minimal ⟨before, known before least precedes, waiting⟩ trivial (.single precedes)

theorem Greedy.complete (greedy : Greedy items Precedes key done rest) (finite : items.Finite)
    (known : ∀ a b, Precedes a b → a ∈ items) (acyclic : ∀ a, ¬ TransGen Precedes a a) :
    ∀ item ∈ items, item ∈ done ++ rest := by
  induction greedy with
  | stop none =>
    intro item member
    by_contra undone
    rw [append_nil] at undone
    obtain ⟨other, available⟩ := exists_available finite known acyclic member undone
    exact none other available
  | @next done rest item _ _ _ ih =>
    rw [append_cons]
    exact ih

/-- All items are done exactly when their precedence has no cycle. -/
theorem Greedy.complete_iff (greedy : Greedy items Precedes key [] rest) (finite : items.Finite)
    (known : ∀ a b, Precedes a b → a ∈ items ∧ b ∈ items) :
    (∀ item ∈ items, item ∈ rest) ↔ ∀ a, ¬ TransGen Precedes a a := by
  constructor
  · intro complete
    refine acyclic_of_sublist (greedy.nodup nodup_nil) fun a b precedes => ?_
    exact (greedy.before precedes (complete b (known a b precedes).2)).resolve_left not_mem_nil
  · exact greedy.complete finite fun a b precedes => (known a b precedes).1

end Order

/-! ## Counting predecessors -/

section Counting

variable {α β : Type*} [DecidableEq α] [LinearOrder β]

/-- How many predecessors of each item are not done, the items that are ready, and those that are
done. -/
structure Frontier (α : Type*) where
  indegree : α → Nat
  ready : List α
  ordered : List α

/-- A predecessor of the item is done; without another, the item is ready. -/
def Frontier.release (frontier : Frontier α) (item : α) : Frontier α where
  indegree := fun other =>
    if other = item then frontier.indegree other - 1 else frontier.indegree other
  ready := if frontier.indegree item - 1 = 0 then frontier.ready ++ [item] else frontier.ready
  ordered := frontier.ordered

/-- The ready item with the least key is done, as long as there is one. -/
def Frontier.drain (key : α → β) (outgoing : α → List α) : Nat → Frontier α → Frontier α
  | 0, frontier => frontier
  | fuel + 1, frontier =>
    match sortByKey key frontier.ready with
    | [] => frontier
    | item :: ready =>
      drain key outgoing fuel ((outgoing item).foldl Frontier.release
        { frontier with ready := ready, ordered := frontier.ordered ++ [item] })

/-- Every predecessor counts, and the items without one are ready. -/
def Frontier.initial (items : List α) (edges : List (α × α)) : Frontier α :=
  let indegree := fun item => edges.countP fun edge => decide (edge.2 = item)
  { indegree := indegree
    ready := items.filter fun item => decide (indegree item = 0)
    ordered := [] }

/-- The items in the order in which they are ready. -/
def kahn (key : α → β) (items : List α) (edges : List (α × α)) (outgoing : α → List α) : List α :=
  ((Frontier.initial items edges).drain key outgoing items.length).ordered

/-- Items with distinct names, and edges between them that can be followed, each as often as it is
listed. -/
structure Followed (items : List α) (edges : List (α × α)) (outgoing : α → List α) : Prop where
  known : ∀ a b, (a, b) ∈ edges → a ∈ items ∧ b ∈ items
  distinctItems : items.Nodup
  targets : ∀ a b, (outgoing a).count b = edges.count (a, b)

variable {key : α → β} {items : List α} {edges : List (α × α)} {outgoing : α → List α}
  {frontier : Frontier α}

def waiting (edges : List (α × α)) (done : List α) (item : α) : Nat :=
  edges.countP fun edge => decide (edge.2 = item ∧ edge.1 ∉ done)

variable {item : α} {done : List α}

theorem waiting_eq_zero :
    waiting edges done item = 0 ↔ ∀ before, (before, item) ∈ edges → before ∈ done := by
  unfold waiting
  rw [List.countP_eq_zero]
  constructor
  · intro none before member
    by_contra undone
    exact none _ member (decide_eq_true ⟨rfl, undone⟩)
  · rintro all ⟨before, _⟩ member counted
    obtain ⟨rfl, undone⟩ := of_decide_eq_true counted
    exact undone (all before member)

theorem count_targets (edges : List (α × α)) (a b : α) :
    ((edges.filter fun edge => decide (edge.1 = a)).map snd).count b = edges.count (a, b) := by
  induction edges with
  | nil => rfl
  | cons edge edges ih =>
    obtain ⟨source, target⟩ := edge
    by_cases same : source = a
    · simp [same, List.count_cons, ih]
    · simp [same, ih]

theorem Followed.mem_iff (followed : Followed items edges outgoing) (a b : α) :
    b ∈ outgoing a ↔ (a, b) ∈ edges := by
  rw [← count_pos_iff, ← count_pos_iff, followed.targets]

theorem waiting_done (fresh : item ∉ done) (other : α) :
    waiting edges done other =
      waiting edges (done ++ [item]) other + edges.count (item, other) := by
  unfold waiting
  induction edges with
  | nil => rfl
  | cons edge edges ih =>
    obtain ⟨a, b⟩ := edge
    rw [List.countP_cons, List.countP_cons, List.count_cons, ih]
    by_cases target : b = other
    · by_cases source : a = item
      · subst source target
        simp [fresh]
        omega
      · simp [target, source]
        omega
    · simp [target]

/-- The numbers are of the predecessors that are not done, the items that are done have none of these, and
the others that have none are ready. -/
structure Frontier.Sound (items : List α) (edges : List (α × α)) (frontier : Frontier α) : Prop where
  indegree : ∀ item, frontier.indegree item = waiting edges frontier.ordered item
  ready : ∀ item, item ∈ frontier.ready ↔
    Available {item | item ∈ items} (fun a b => (a, b) ∈ edges) frontier.ordered item
  readyNodup : frontier.ready.Nodup
  closed : ∀ item ∈ frontier.ordered, ∀ before, (before, item) ∈ edges → before ∈ frontier.ordered
  orderedNodup : frontier.ordered.Nodup
  subset : frontier.ordered ⊆ items

/-- Releasing items that still wait as often as they are released. -/
theorem release_all {others : List α} (frontier : Frontier α)
    (enough : ∀ item, others.count item ≤ frontier.indegree item) :
    (others.foldl Frontier.release frontier).indegree =
        (fun item => frontier.indegree item - others.count item) ∧
      (others.foldl Frontier.release frontier).ordered = frontier.ordered ∧
      ∃ free, (others.foldl Frontier.release frontier).ready = frontier.ready ++ free ∧ free.Nodup ∧
        ∀ item, item ∈ free ↔ item ∈ others ∧ frontier.indegree item = others.count item := by
  induction others generalizing frontier with
  | nil => exact ⟨rfl, rfl, [], (append_nil _).symm, nodup_nil, by simp⟩
  | cons other others ih =>
    have waits := enough other
    rw [count_cons_self] at waits
    have left : ∀ item, others.count item ≤ (frontier.release other).indegree item := by
      intro item
      have := enough item
      by_cases here : item = other
      · subst here
        simp only [Frontier.release, if_true]
        omega
      · simpa [Frontier.release, here, count_cons_of_ne (Ne.symm here)] using this
    obtain ⟨indegree, ordered, free, ready, nodup, isFree⟩ := ih (frontier.release other) left
    refine ⟨?_, ordered, ?_⟩
    · rw [foldl_cons, indegree]
      funext item
      by_cases here : item = other
      · subst here
        simp only [Frontier.release, if_true, count_cons_self]
        omega
      · simp [Frontier.release, here, count_cons_of_ne (Ne.symm here)]
    · rw [foldl_cons, ready]
      by_cases last : frontier.indegree other - 1 = 0
      · -- nothing of the item is left to release
        have none : others.count other = 0 := by omega
        have absent : other ∉ free := fun member =>
          (count_eq_zero.mp none) ((isFree other).mp member).1
        refine ⟨other :: free, by simp [Frontier.release, last], nodup.cons absent, fun item => ?_⟩
        by_cases here : item = other
        · subst here
          simp only [mem_cons, true_or, true_and, true_iff, count_cons_self]
          omega
        · simp [Frontier.release, here, isFree, count_cons_of_ne (Ne.symm here)]
      · refine ⟨free, by simp [Frontier.release, last], nodup, fun item => ?_⟩
        by_cases here : item = other
        · subst here
          have more : frontier.indegree item - 1 = others.count item ↔
              frontier.indegree item = others.count item + 1 := by omega
          simp only [isFree, Frontier.release, if_true, mem_cons, true_or, true_and,
            count_cons_self, more, and_iff_right_iff_imp]
          intro same
          exact count_pos_iff.mp (by omega)
        · simp [Frontier.release, here, isFree, count_cons_of_ne (Ne.symm here)]

/-- What is ready is available, so the least ready item is the least available one. -/
theorem done_sound (followed : Followed items edges outgoing) (sound : frontier.Sound items edges)
    {ready : List α} (perm : (item :: ready).Perm frontier.ready) :
    ((outgoing item).foldl Frontier.release
      { frontier with ready := ready, ordered := frontier.ordered ++ [item] }).Sound items edges ∧
    ((outgoing item).foldl Frontier.release
      { frontier with ready := ready, ordered := frontier.ordered ++ [item] }).ordered =
        frontier.ordered ++ [item] := by
  obtain ⟨others, nodup⟩ := nodup_cons.mp (perm.nodup_iff.mpr sound.readyNodup)
  have isReady := fun other => (perm.mem_iff (a := other)).trans (sound.ready other)
  have available := (isReady item).mp mem_cons_self
  have isTarget := followed.mem_iff item
  have waits : ∀ other, frontier.indegree other =
      waiting edges (frontier.ordered ++ [item]) other + (outgoing item).count other := fun other => by
    rw [sound.indegree, waiting_done available.fresh, followed.targets]
  -- an item that was done or available has all its predecessors done, the item not among them
  have notDone : ∀ other ∈ frontier.ordered, (item, other) ∉ edges := fun other member edge =>
    available.fresh (sound.closed other member item edge)
  have notAvailable : ∀ other, Available {item | item ∈ items} (fun a b => (a, b) ∈ edges)
      frontier.ordered other → (item, other) ∉ edges := fun other free edge =>
    available.fresh (free.predecessors item edge)
  obtain ⟨indegree, ordered, free, released, freeNodup, isFree⟩ := release_all
    { frontier with ready := ready, ordered := frontier.ordered ++ [item] }
    (fun other => (Nat.le_add_left _ _).trans (waits other).ge)
  have isFree : ∀ other, other ∈ free ↔ (item, other) ∈ edges ∧
      waiting edges (frontier.ordered ++ [item]) other = 0 := fun other => by
    rw [isFree, isTarget]
    have := waits other
    exact and_congr_right fun _ => ⟨by dsimp only; omega, by dsimp only; omega⟩
  refine ⟨?_, ordered⟩
  constructor
  · intro other
    rw [indegree, ordered]
    simp only [waits other, Nat.add_sub_cancel]
  · intro other
    rw [released, ordered, mem_append, isFree, waiting_eq_zero]
    constructor
    · rintro (free | ⟨edge, none⟩)
      · have before := (isReady other).mp (mem_cons_of_mem _ free)
        refine ⟨before.mem, fun member => ?_, fun previous precedes =>
          mem_append_left _ (before.predecessors previous precedes)⟩
        rcases mem_append.mp member with earlier | here
        · exact before.fresh earlier
        · rw [mem_singleton.mp here] at free
          exact others free
      · refine ⟨(followed.known item other edge).2, fun member => ?_, none⟩
        rcases mem_append.mp member with earlier | here
        · exact notDone other earlier edge
        · rw [mem_singleton.mp here] at edge
          exact notAvailable item available edge
    · intro free
      by_cases edge : (item, other) ∈ edges
      · exact .inr ⟨edge, free.predecessors⟩
      · have before : Available {item | item ∈ items} (fun a b => (a, b) ∈ edges)
            frontier.ordered other := by
          refine ⟨free.mem, fun member => free.fresh (mem_append_left _ member),
            fun previous precedes => ?_⟩
          rcases mem_append.mp (free.predecessors previous precedes) with earlier | here
          · exact earlier
          · rw [mem_singleton.mp here] at precedes
            exact absurd precedes edge
        have differs : other ≠ item := by
          rintro rfl
          exact free.fresh (mem_append_right _ (mem_singleton_self other))
        exact .inl ((mem_cons.mp ((isReady other).mpr before)).resolve_left differs)
  · rw [released]
    refine List.nodup_append'.mpr ⟨nodup, freeNodup, fun other free target => ?_⟩
    exact notAvailable other ((isReady other).mp (mem_cons_of_mem _ free))
      ((isFree other).mp target).1
  · rw [ordered]
    intro other member previous edge
    rcases mem_append.mp member with earlier | here
    · exact mem_append_left _ (sound.closed other earlier previous edge)
    · rw [mem_singleton.mp here] at edge
      exact mem_append_left _ (available.predecessors previous edge)
  · rw [ordered]
    exact List.nodup_append_comm.mp (sound.orderedNodup.cons available.fresh)
  · rw [ordered]
    exact List.append_subset.mpr ⟨sound.subset, cons_subset.mpr ⟨available.mem, nil_subset _⟩⟩

section

variable (key) (followed : Followed items edges outgoing)

include followed

/-- With as much fuel as there are items, the ready items are done until none is available. -/
theorem drain_greedy (fuel : Nat)
    (sound : frontier.Sound items edges) (enough : items.length ≤ frontier.ordered.length + fuel) :
    ∃ rest, (frontier.drain key outgoing fuel).ordered = frontier.ordered ++ rest ∧
      Greedy {item | item ∈ items} (fun a b => (a, b) ∈ edges) key frontier.ordered rest := by
  induction fuel generalizing frontier with
  | zero =>
    refine ⟨[], (append_nil _).symm, .stop fun item available => ?_⟩
    have all := (subperm_of_subset sound.orderedNodup sound.subset).perm_of_length_le enough
    exact available.fresh (all.mem_iff.mpr available.mem)
  | succ fuel ih =>
    unfold Frontier.drain
    have perm := sortByKey_perm key frontier.ready
    have sorted := sortByKey_pairwise key frontier.ready
    cases ready : sortByKey key frontier.ready with
    | nil =>
      rw [ready] at perm
      refine ⟨[], (append_nil _).symm, .stop fun item available => ?_⟩
      exact not_mem_nil (perm.mem_iff.mpr ((sound.ready item).mpr available))
    | cons item others =>
      rw [ready] at perm sorted
      obtain ⟨next, ordered⟩ := done_sound followed sound perm
      have left : items.length ≤ (frontier.ordered ++ [item]).length + fuel := by
        rw [length_append, length_singleton]
        omega
      rw [← ordered] at left
      obtain ⟨rest, ran, greedy⟩ := ih next left
      rw [ordered] at ran greedy
      refine ⟨item :: rest, ?_, .next ((sound.ready item).mp (perm.subset mem_cons_self))
        (fun other available => ?_) greedy⟩
      · exact ran.trans (append_cons _ _ _).symm
      · have member := perm.mem_iff.mpr ((sound.ready other).mpr available)
        rcases mem_cons.mp member with rfl | later
        · exact le_refl _
        · exact List.rel_of_pairwise_cons sorted later

theorem initial_sound : (Frontier.initial items edges).Sound items edges := by
  have none : ∀ item, waiting edges [] item = edges.countP fun edge => decide (edge.2 = item) := by
    intro item
    unfold waiting
    simp only [not_mem_nil, not_false_eq_true, and_true]
  constructor
  · exact fun item => (none item).symm
  · intro item
    unfold Frontier.initial
    dsimp only
    rw [mem_filter, decide_eq_true_eq, ← none item, waiting_eq_zero]
    exact ⟨fun ⟨member, free⟩ => ⟨member, not_mem_nil, free⟩,
      fun available => ⟨available.mem, available.predecessors⟩⟩
  · exact followed.distinctItems.filter _
  · exact forall_mem_nil _
  · exact nodup_nil
  · exact nil_subset _

/-- Counting the predecessors finds the order. -/
theorem kahn_greedy :
    Greedy {item | item ∈ items} (fun a b => (a, b) ∈ edges) key [] (kahn key items edges outgoing) := by
  obtain ⟨rest, ran, greedy⟩ := drain_greedy key followed items.length (initial_sound followed)
    (Nat.le_add_left _ _)
  unfold kahn
  rw [ran]
  exact greedy

theorem kahn_perm (all : (kahn key items edges outgoing).length = items.length) :
    (kahn key items edges outgoing).Perm items := by
  have greedy := kahn_greedy key followed
  exact (subperm_of_subset (greedy.nodup nodup_nil) greedy.subset).perm_of_length_le all.ge

/-- All items come in order exactly when their edges have no cycle. -/
theorem kahn_length_iff : (kahn key items edges outgoing).length = items.length ↔
      ∀ a, ¬ TransGen (fun a b => (a, b) ∈ edges) a a := by
  have greedy := kahn_greedy key followed
  rw [← greedy.complete_iff (List.finite_toSet _) followed.known]
  constructor
  · exact fun all item member => (kahn_perm key followed all).mem_iff.mpr member
  · intro all
    have subperm := subperm_of_subset (greedy.nodup nodup_nil) greedy.subset
    exact le_antisymm subperm.length_le (subperm_of_subset followed.distinctItems all).length_le

end

end Counting

end Koschei.Lib
