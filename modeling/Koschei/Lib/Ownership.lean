import Koschei.Lib.Names

/-!
# Ownership along every path

A `Plan` says in which order a piece of code uses, hands over and binds names,
and where it branches, repeats or opens a scope. Its runs are the paths through
it. A name stands for a slot of the innermost scope that has it; an owned slot
must not be used once it has been handed over, and a run remembers whether that
happened.

`flow` goes through a plan once, joining the branches, and refuses a use of a
slot that may have been handed over, and a repeated part that hands over a slot
from outside. What it accepts is safe on every path.

A run may stop anywhere: an error or a signal leaves out what is left, up to the
end of the part that is repeated.
-/

namespace Koschei.Lib

/-! ## Slots and scopes -/

/-- What is known of a binding: whether it is owned, and whether it has been handed over. -/
structure Slot where
  owned : Bool
  moved : Bool
  deriving DecidableEq

section Scopes

variable {N : Type}

/-- The scopes, the innermost first. A scope has each name once. -/
abbrev Scopes (N : Type) := List (List (N × Slot))

/-- The same slot, handed over at least where the first one is. -/
def SlotAtMost (a b : N × Slot) : Prop :=
  a.1 = b.1 ∧ a.2.owned = b.2.owned ∧ (a.2.moved = true → b.2.moved = true)

/-- The same scopes, with at least as much handed over. -/
def AtMost (first second : Scopes N) : Prop := Forall₂ (Forall₂ SlotAtMost) first second

theorem SlotAtMost.refl (a : N × Slot) : SlotAtMost a a := ⟨rfl, rfl, id⟩

theorem SlotAtMost.trans {a b c : N × Slot} (first : SlotAtMost a b) (second : SlotAtMost b c) :
    SlotAtMost a c :=
  ⟨first.1.trans second.1, first.2.1.trans second.2.1, fun moved => second.2.2 (first.2.2 moved)⟩

variable {α : Type} {R : α → α → Prop}

theorem forall₂_refl (refl : ∀ a, R a a) (l : List α) :
    Forall₂ R l l := List.forall₂_same.mpr fun a _ => refl a

theorem forall₂_trans (trans : ∀ a b c, R a b → R b c → R a c) :
    ∀ {l m n : List α}, Forall₂ R l m → Forall₂ R m n → Forall₂ R l n := by
  intro l m n first
  induction first generalizing n with
  | nil =>
    intro second
    exact second
  | cons head tail ih =>
    intro second
    cases second with
    | cons head' tail' => exact .cons (trans _ _ _ head head') (ih tail')

theorem AtMost.refl (scopes : Scopes N) : AtMost scopes scopes :=
  forall₂_refl (forall₂_refl SlotAtMost.refl) scopes

theorem AtMost.trans {a b c : Scopes N} (first : AtMost a b) (second : AtMost b c) : AtMost a c :=
  forall₂_trans (fun _ _ _ => forall₂_trans (R := SlotAtMost) fun _ _ _ => SlotAtMost.trans)
    first second

theorem AtMost.tail {a b : Scopes N} (below : AtMost a b) : AtMost a.tail b.tail := by
  cases below with
  | nil => exact .nil
  | cons _ rest => exact rest

/-! ### Joining two ends -/

/-- A slot that is handed over in one of two. -/
def joinEntry (a b : N × Slot) : N × Slot := (a.1, ⟨a.2.owned, a.2.moved || b.2.moved⟩)

/-- What may be handed over after one of two branches. -/
def join (first second : Scopes N) : Scopes N := zipWith (zipWith joinEntry) first second

variable {f : α → α → α}

theorem zipWith_above
    (left : ∀ s a b, R s a → R s b → R a (f a b)) (right : ∀ s a b, R s a → R s b → R b (f a b)) :
    ∀ {s l m : List α}, Forall₂ R s l → Forall₂ R s m →
      Forall₂ R l (zipWith f l m) ∧ Forall₂ R m (zipWith f l m) := by
  intro s l m first
  induction first generalizing m with
  | nil =>
    intro second
    cases second
    exact ⟨.nil, .nil⟩
  | cons head _ ih =>
    intro second
    cases second with
    | cons head' tail' =>
      obtain ⟨up, up'⟩ := ih tail'
      exact ⟨.cons (left _ _ _ head head') up, .cons (right _ _ _ head head') up'⟩

variable {a b : Scopes N}

/-- Joining with less changes nothing. -/
theorem join_of_below (below : AtMost b a) : join a b = a := by
  have entry : ∀ {x y : N × Slot}, SlotAtMost y x → joinEntry x y = x := by
    rintro ⟨name, owned, moved⟩ ⟨name', owned', moved'⟩ ⟨-, -, more⟩
    cases moved' with
    | false => simp [joinEntry]
    | true =>
      have moved := more rfl
      dsimp only at moved
      simp [joinEntry, moved]
  have scope : ∀ {x y : List (N × Slot)}, Forall₂ SlotAtMost y x →
      zipWith joinEntry x y = x := by
    intro x y below
    induction below with
    | nil => rfl
    | cons head _ ih => rw [List.zipWith_cons_cons, entry head, ih]
  unfold join
  induction below with
  | nil => rfl
  | cons head _ ih => rw [List.zipWith_cons_cons, scope head, ih]

theorem zipWith_assoc (assoc : ∀ a b c, f (f a b) c = f a (f b c)) :
    ∀ l m n : List α, zipWith f (zipWith f l m) n = zipWith f l (zipWith f m n)
  | [], _, _ => by simp
  | _ :: _, [], _ => by simp
  | _ :: _, _ :: _, [] => by simp
  | a :: l, b :: m, c :: n => by
    simp only [List.zipWith_cons_cons, assoc, zipWith_assoc assoc l m n]

theorem join_assoc (a b c : Scopes N) : join (join a b) c = join a (join b c) := by
  apply zipWith_assoc
  apply zipWith_assoc
  intro x y z
  simp [joinEntry, Bool.or_assoc]

/-- Joining with more gives the more. -/
theorem join_of_above (above : AtMost a b) : join a b = b := by
  have entry : ∀ {x y : N × Slot}, SlotAtMost x y → joinEntry x y = y := by
    rintro ⟨name, owned, moved⟩ ⟨name', owned', moved'⟩ ⟨sameName, sameOwned, more⟩
    dsimp only at sameName sameOwned more
    subst sameName sameOwned
    cases moved with
    | false => simp [joinEntry]
    | true => simp [joinEntry, more rfl]
  have scope : ∀ {x y : List (N × Slot)}, Forall₂ SlotAtMost x y →
      zipWith joinEntry x y = y := by
    intro x y above
    induction above with
    | nil => rfl
    | cons head _ ih => rw [List.zipWith_cons_cons, entry head, ih]
  unfold join
  induction above with
  | nil => rfl
  | cons head _ ih => rw [List.zipWith_cons_cons, scope head, ih]

/-- Two ends of one start are both below their join. -/
theorem below_join {s a b : Scopes N} (first : AtMost s a) (second : AtMost s b) :
    AtMost a (join a b) ∧ AtMost b (join a b) := by
  have entryLeft : ∀ s a b : N × Slot, SlotAtMost s a → SlotAtMost s b →
      SlotAtMost a (joinEntry a b) := by
    intro s a b _ _
    exact ⟨rfl, rfl, fun moved => by simp [joinEntry, moved]⟩
  have entryRight : ∀ s a b : N × Slot, SlotAtMost s a → SlotAtMost s b →
      SlotAtMost b (joinEntry a b) := by
    intro s a b toA toB
    exact ⟨toB.1.symm.trans toA.1, toB.2.1.symm.trans toA.2.1, fun moved => by
      simp [joinEntry, moved]⟩
  have scopes : ∀ s a b : List (N × Slot), Forall₂ SlotAtMost s a →
      Forall₂ SlotAtMost s b → Forall₂ SlotAtMost a (zipWith joinEntry a b) ∧
        Forall₂ SlotAtMost b (zipWith joinEntry a b) :=
    fun s a b => zipWith_above entryLeft entryRight
  exact zipWith_above (fun s a b toA toB => (scopes s a b toA toB).1)
    (fun s a b toA toB => (scopes s a b toA toB).2) first second

/-! ### Names -/

variable [DecidableEq N]

def declares (name : N) (scope : List (N × Slot)) : Bool := scope.any fun entry => entry.1 == name

def slotOf (name : N) : Scopes N → Option Slot
  | [] => none
  | scope :: scopes => if declares name scope then scope.lookup name else slotOf name scopes

/-- Hand over the slot a name stands for. -/
def handOver (name : N) : Scopes N → Scopes N
  | [] => []
  | scope :: scopes =>
    if declares name scope then
      (scope.map fun entry =>
        if entry.1 == name then (entry.1, { entry.2 with moved := true }) else entry) :: scopes
    else scope :: handOver name scopes

/-- Bind a name in the innermost scope. -/
def declare (name : N) (owned : Bool) : Scopes N → Scopes N
  | [] => []
  | scope :: scopes =>
    ((name, ⟨owned, false⟩) :: scope.filter fun entry => entry.1 != name) :: scopes

/-! ### Names under more being handed over -/

variable {name : N}

theorem declares_below {a b : List (N × Slot)} (below : Forall₂ SlotAtMost a b) :
    declares name a = declares name b := by
  induction below with
  | nil => rfl
  | cons head _ ih =>
    unfold declares at ih ⊢
    rw [any_cons, any_cons, head.1, ih]

theorem lookup_below {a b : List (N × Slot)} (below : Forall₂ SlotAtMost a b) :
    (a.lookup name = none ∧ b.lookup name = none) ∨
      ∃ s t, a.lookup name = some s ∧ b.lookup name = some t ∧ s.owned = t.owned ∧
        (s.moved = true → t.moved = true) := by
  induction below with
  | nil => exact .inl ⟨rfl, rfl⟩
  | @cons x y as bs head _ ih =>
    obtain ⟨key, s⟩ := x
    obtain ⟨key', t⟩ := y
    obtain ⟨same, owned, moved⟩ := head
    dsimp only at same owned moved
    subst same
    by_cases found : name == key
    · exact .inr ⟨s, t, by rw [lookup_cons, found], by rw [lookup_cons, found], owned, moved⟩
    · rw [not_eq_true] at found
      rw [lookup_cons, lookup_cons, found]
      exact ih

/-- A name stands for the same slot, handed over at least as far. -/
theorem slotOf_below (name : N) (below : AtMost a b) :
    (slotOf name a = none ∧ slotOf name b = none) ∨
      ∃ s t, slotOf name a = some s ∧ slotOf name b = some t ∧ s.owned = t.owned ∧
        (s.moved = true → t.moved = true) := by
  induction below with
  | nil => exact .inl ⟨rfl, rfl⟩
  | cons head _ ih =>
    rw [slotOf, slotOf, declares_below head]
    split
    · exact lookup_below head
    · exact ih

theorem handOver_above (name : N) (scopes : Scopes N) : AtMost scopes (handOver name scopes) := by
  induction scopes with
  | nil => exact .nil
  | cons scope scopes ih =>
    rw [handOver]
    split
    · refine .cons ?_ (AtMost.refl scopes)
      rw [List.forall₂_map_right_iff]
      apply forall₂_refl
      intro entry
      split
      · exact ⟨rfl, rfl, fun _ => rfl⟩
      · exact SlotAtMost.refl entry
    · exact .cons (forall₂_refl SlotAtMost.refl scope) ih

theorem handOver_mono (below : AtMost a b) : AtMost (handOver name a) (handOver name b) := by
  induction below with
  | nil => exact .nil
  | cons head rest ih =>
    rw [handOver, handOver, declares_below head]
    split
    · refine .cons ?_ rest
      rw [List.forall₂_map_left_iff, List.forall₂_map_right_iff]
      refine head.imp ?_
      rintro x y ⟨same, owned, moved⟩
      rw [same]
      split
      · exact ⟨rfl, owned, fun _ => rfl⟩
      · exact ⟨same, owned, moved⟩
    · exact .cons head ih

theorem filter_below {a b : List (N × Slot)} (below : Forall₂ SlotAtMost a b) :
    Forall₂ SlotAtMost (a.filter fun entry => entry.1 != name)
      (b.filter fun entry => entry.1 != name) := by
  induction below with
  | nil => exact .nil
  | cons head _ ih =>
    rw [filter_cons, filter_cons, head.1]
    split
    · exact .cons head ih
    · exact ih

theorem declare_mono (name : N) (owned : Bool) (below : AtMost a b) :
    AtMost (declare name owned a) (declare name owned b) := by
  cases below with
  | nil => exact .nil
  | cons head rest => exact .cons (.cons (SlotAtMost.refl _) (filter_below head)) rest

theorem declare_tail {owned : Bool} (scopes : Scopes N) :
    (declare name owned scopes).tail = scopes.tail := by
  cases scopes <;> rfl

end Scopes

/-! ## Plans and their runs -/

/-- The order in which code uses, hands over and binds names. -/
inductive Plan (N : Type) where
  | done
  | use (name : N) (moves : Bool)
  | bind (name : N) (owned : Bool)
  | both (first second : Plan N)
  | either (first second : Plan N)
  | again (body : Plan N)
  | within (body : Plan N)

namespace Plan

variable {N : Type} [DecidableEq N]

/-- A plan that may be left out. -/
def optional (plan : Plan N) : Plan N := .either plan .done

/-- A plan that binds names in scopes of its own only. -/
def tidy : Plan N → Bool
  | .done | .use _ _ | .within _ => true
  | .bind _ _ => false
  | .both first second | .either first second => first.tidy && second.tidy
  | .again body => body.tidy

end Plan

section Runs

variable {N : Type} [DecidableEq N]

/-- Where a run is: the scopes, and whether a slot was used after it had been handed over. -/
structure Ownership (N : Type) where
  scopes : Scopes N
  violated : Bool

/-- Use a name, and hand its slot over if the use moves it. Only owned slots count. -/
def Ownership.use (name : N) (moves : Bool) (state : Ownership N) : Ownership N :=
  match slotOf name state.scopes with
  | none => state
  | some slot =>
    if slot.owned then
      ⟨if moves then handOver name state.scopes else state.scopes, state.violated || slot.moved⟩
    else state

/-- The runs of a plan, and whether they reach its end. -/
inductive Run : Plan N → Ownership N → Ownership N → Bool → Prop
  | stop (plan : Plan N) (state : Ownership N) : Run plan state state false
  | done (state : Ownership N) : Run .done state state true
  | use (name : N) (moves : Bool) (state : Ownership N) :
      Run (.use name moves) state (state.use name moves) true
  | bind (name : N) (owned : Bool) (state : Ownership N) :
      Run (.bind name owned) state { state with scopes := declare name owned state.scopes } true
  | first {a b : Plan N} {s t : Ownership N} : Run a s t false → Run (.both a b) s t false
  | both {a b : Plan N} {s t u : Ownership N} {ends : Bool} :
      Run a s t true → Run b t u ends → Run (.both a b) s u ends
  | left {a b : Plan N} {s t : Ownership N} {ends : Bool} :
      Run a s t ends → Run (.either a b) s t ends
  | right {a b : Plan N} {s t : Ownership N} {ends : Bool} :
      Run b s t ends → Run (.either a b) s t ends
  | never (body : Plan N) (state : Ownership N) : Run (.again body) state state true
  | again {body : Plan N} {s t u : Ownership N} {early ends : Bool} :
      Run body s t early → Run (.again body) t u ends → Run (.again body) s u ends
  | within {body : Plan N} {s t : Ownership N} {ends : Bool} :
      Run body { s with scopes := [] :: s.scopes } t ends →
        Run (.within body) s { t with scopes := t.scopes.tail } ends

/-! ## The analysis -/

/-- Use a name, unless its slot may have been handed over. -/
def flowUse (name : N) (moves : Bool) (scopes : Scopes N) : Option (Scopes N) :=
  match slotOf name scopes with
  | none => some scopes
  | some slot =>
    if slot.owned then
      if slot.moved then none
      else some (if moves then handOver name scopes else scopes)
    else some scopes

/-- What may be handed over after a plan; none when the plan is refused. -/
def flow : Plan N → Scopes N → Option (Scopes N)
  | .done, scopes => some scopes
  | .use name moves, scopes => flowUse name moves scopes
  | .bind name owned, scopes => some (declare name owned scopes)
  | .both first second, scopes => (flow first scopes).bind (flow second)
  | .either first second, scopes =>
    if first.tidy && second.tidy then
      (flow first scopes).bind fun a => (flow second scopes).map fun b => join a b
    else none
  | .again body, scopes =>
    if body.tidy then
      (flow body scopes).bind fun after => if after = scopes then some scopes else none
    else none
  | .within body, scopes => (flow body ([] :: scopes)).map List.tail

variable {scopes after top : Scopes N}

/-- An accepted repetition hands nothing over in one turn. -/
theorem flow_again {body : Plan N} (accepted : flow (.again body) scopes = some after) :
    body.tidy = true ∧ flow body scopes = some scopes ∧ after = scopes := by
  rw [flow] at accepted
  split at accepted
  · rename_i tidy
    obtain ⟨once, turn, rest⟩ := bind_eq_some_iff.mp accepted
    split at rest
    · rename_i same
      cases rest
      rw [same] at turn
      exact ⟨tidy, turn, rfl⟩
    · cases rest
  · cases accepted

theorem flow_either {first second : Plan N}
    (accepted : flow (.either first second) scopes = some after) :
    ∃ a b, first.tidy = true ∧ second.tidy = true ∧ flow first scopes = some a ∧
      flow second scopes = some b ∧ after = join a b := by
  rw [flow] at accepted
  split at accepted
  · rename_i tidy
    rw [and_eq_true] at tidy
    obtain ⟨a, toA, rest⟩ := bind_eq_some_iff.mp accepted
    obtain ⟨b, toB, rfl⟩ := map_eq_some_iff.mp rest
    exact ⟨a, b, tidy.1, tidy.2, toA, toB, rfl⟩
  · cases accepted

variable {name : N} {moves ends : Bool}

theorem flowUse_above
    (accepted : flowUse name moves scopes = some after) : AtMost scopes after := by
  unfold flowUse at accepted
  split at accepted
  · cases accepted
    exact AtMost.refl scopes
  · split at accepted
    · split at accepted
      · cases accepted
      · cases accepted
        split
        · exact handOver_above name scopes
        · exact AtMost.refl scopes
    · cases accepted
      exact AtMost.refl scopes

variable {plan : Plan N}

/-- A plan hands over more and more: of the outer scopes always, and of the innermost one too
unless it binds there. -/
theorem flow_above (accepted : flow plan scopes = some after) :
    AtMost scopes.tail after.tail ∧ (plan.tidy = true → AtMost scopes after) := by
  induction plan generalizing scopes after with
  | done =>
    cases accepted
    exact ⟨AtMost.refl _, fun _ => AtMost.refl _⟩
  | use name moves =>
    have above := flowUse_above accepted
    exact ⟨above.tail, fun _ => above⟩
  | bind name owned =>
    cases accepted
    rw [declare_tail]
    exact ⟨AtMost.refl _, nofun⟩
  | both first second ihFirst ihSecond =>
    obtain ⟨middle, start, rest⟩ := bind_eq_some_iff.mp accepted
    have one := ihFirst start
    have two := ihSecond rest
    refine ⟨one.1.trans two.1, fun tidy => ?_⟩
    rw [Plan.tidy, and_eq_true] at tidy
    exact (one.2 tidy.1).trans (two.2 tidy.2)
  | either first second ihFirst ihSecond =>
    obtain ⟨a, b, tidyFirst, tidySecond, toA, toB, rfl⟩ := flow_either accepted
    have above := (ihFirst toA).2 tidyFirst
    have joined := above.trans (below_join above ((ihSecond toB).2 tidySecond)).1
    exact ⟨joined.tail, fun _ => joined⟩
  | again body _ =>
    obtain ⟨-, -, rfl⟩ := flow_again accepted
    exact ⟨AtMost.refl _, fun _ => AtMost.refl _⟩
  | within body ih =>
    obtain ⟨inner, run, rfl⟩ := map_eq_some_iff.mp accepted
    have above : AtMost scopes inner.tail := (ih run).1
    exact ⟨above.tail, fun _ => above⟩

theorem flow_optional (tidy : plan.tidy = true)
    (accepted : flow plan scopes = some after) : flow plan.optional scopes = some after := by
  have above := (flow_above accepted).2 tidy
  rw [Plan.optional, flow, if_pos (by rw [tidy]; rfl), accepted, bind_some]
  exact congrArg some (join_of_below above)

theorem flowUse_earlier {first second after : Scopes N} (more : AtMost first second)
    (accepted : flowUse name false second = some after) :
    flowUse name false first = some first := by
  unfold flowUse at accepted ⊢
  obtain ⟨missing, missing'⟩ | ⟨s, t, found, found', owned, moved⟩ := slotOf_below name more
  · rw [missing]
  · rw [found'] at accepted
    rw [found]
    dsimp only at accepted ⊢
    rw [owned]
    split at accepted
    · rename_i isOwned
      split at accepted
      · cases accepted
      · rename_i still
        rw [if_pos isOwned, if_neg fun early => still (moved early)]
        rfl
    · rename_i notOwned
      rw [if_neg notOwned]

/-- A run is where the analysis says: nothing was used too late, and no more is handed over
than it says, of the outer scopes wherever the run stopped, and of the innermost one at the end
of the plan or when the plan does not bind there. -/
structure Covered (plan : Plan N) (after : Scopes N) (state : Ownership N) (ends : Bool) :
    Prop where
  safe : state.violated = false
  outer : AtMost state.scopes.tail after.tail
  inner : ends = true ∨ plan.tidy = true → AtMost state.scopes after

variable {state final : Ownership N}

theorem covered_use
    (accepted : flowUse name moves scopes = some after) (safe : state.violated = false)
    (below : AtMost state.scopes scopes) :
    (state.use name moves).violated = false ∧ AtMost (state.use name moves).scopes after := by
  unfold flowUse at accepted
  unfold Ownership.use
  obtain ⟨missing, missing'⟩ | ⟨s, t, found, found', owned, moved⟩ := slotOf_below name below
  · rw [missing'] at accepted
    cases accepted
    rw [missing]
    exact ⟨safe, below⟩
  · rw [found'] at accepted
    dsimp only at accepted
    rw [found]
    dsimp only
    rw [owned]
    split at accepted
    · rename_i isOwned
      split at accepted
      · cases accepted
      · rename_i still
        cases accepted
        rw [if_pos isOwned]
        refine ⟨?_, ?_⟩
        · rw [safe, Bool.false_or]
          by_contra late
          exact still (moved (by simpa using late))
        · split
          · exact handOver_mono below
          · exact below
    · rename_i notOwned
      cases accepted
      rw [if_neg notOwned]
      exact ⟨safe, below⟩

theorem flow_covers (run : Run plan state final ends) : ∀ {scopes after : Scopes N},
      flow plan scopes = some after → state.violated = false → AtMost state.scopes scopes →
        Covered plan after final ends := by
  -- Along the run: what is covered after a part is the start of the next one.
  induction run with
  | stop plan state =>
    intro scopes after accepted safe below
    have above := flow_above accepted
    refine ⟨safe, below.tail.trans above.1, ?_⟩
    rintro (impossible | tidy)
    · cases impossible
    · exact below.trans (above.2 tidy)
  | done state =>
    intro scopes after accepted safe below
    cases accepted
    exact ⟨safe, below.tail, fun _ => below⟩
  | use name moves state =>
    intro scopes after accepted safe below
    obtain ⟨stillSafe, used⟩ := covered_use accepted safe below
    exact ⟨stillSafe, used.tail, fun _ => used⟩
  | bind name owned state =>
    intro scopes after accepted safe below
    cases accepted
    have bound := declare_mono name owned below
    exact ⟨safe, bound.tail, fun _ => bound⟩
  | first _ ih =>
    intro scopes after accepted safe below
    obtain ⟨middle, start, rest⟩ := bind_eq_some_iff.mp accepted
    have part := ih start safe below
    have above := flow_above rest
    refine ⟨part.safe, part.outer.trans above.1, ?_⟩
    rintro (impossible | tidy)
    · cases impossible
    · rw [Plan.tidy, and_eq_true] at tidy
      exact (part.inner (.inr tidy.1)).trans (above.2 tidy.2)
  | both _ _ ihFirst ihSecond =>
    intro scopes after accepted safe below
    obtain ⟨middle, start, rest⟩ := bind_eq_some_iff.mp accepted
    have part := ihFirst start safe below
    have whole := ihSecond rest part.safe (part.inner (.inl rfl))
    refine ⟨whole.safe, whole.outer, ?_⟩
    rintro (finished | tidy)
    · exact whole.inner (.inl finished)
    · rw [Plan.tidy, and_eq_true] at tidy
      exact whole.inner (.inr tidy.2)
  | left _ ih =>
    intro scopes after accepted safe below
    obtain ⟨a, b, tidyFirst, tidySecond, toA, toB, rfl⟩ := flow_either accepted
    have part := ih toA safe below
    have joined := below_join ((flow_above toA).2 tidyFirst) ((flow_above toB).2 tidySecond)
    have covered := (part.inner (.inr tidyFirst)).trans joined.1
    exact ⟨part.safe, covered.tail, fun _ => covered⟩
  | right _ ih =>
    intro scopes after accepted safe below
    obtain ⟨a, b, tidyFirst, tidySecond, toA, toB, rfl⟩ := flow_either accepted
    have part := ih toB safe below
    have joined := below_join ((flow_above toA).2 tidyFirst) ((flow_above toB).2 tidySecond)
    have covered := (part.inner (.inr tidySecond)).trans joined.2
    exact ⟨part.safe, covered.tail, fun _ => covered⟩
  | never body state =>
    intro scopes after accepted safe below
    obtain ⟨-, -, rfl⟩ := flow_again accepted
    exact ⟨safe, below.tail, fun _ => below⟩
  | again _ _ ihBody ihRest =>
    intro scopes after accepted safe below
    obtain ⟨tidy, turn, -⟩ := flow_again accepted
    have part := ihBody turn safe below
    exact ihRest accepted part.safe (part.inner (.inr tidy))
  | within _ ih =>
    intro scopes after accepted safe below
    obtain ⟨inner, turn, rfl⟩ := map_eq_some_iff.mp accepted
    have part := ih turn safe (.cons .nil below)
    exact ⟨part.safe, part.outer.tail, fun _ => part.outer⟩

/-! ## What a plan hands over of what it did not bind -/

/-- The names bound after a plan, in the scopes that are counted. -/
def Plan.bound : Plan N → List N → List N
  | .bind name _, names => name :: names
  | .both first second, names => second.bound (first.bound names)
  | _, names => names

/-- The names a plan hands over that are not among the given ones and that it does not bind
itself. -/
def Plan.freeMoves : Plan N → List N → List N
  | .done, _ | .bind _ _, _ | .use _ false, _ => []
  | .use name true, names => if name ∈ names then [] else [name]
  | .both first second, names =>
    first.freeMoves names ++ second.freeMoves (first.bound names)
  | .either first second, names => first.freeMoves names ++ second.freeMoves names
  | .again body, names | .within body, names => body.freeMoves names

def Names (name : N) (scopes : Scopes N) : Prop := ∃ scope ∈ scopes, declares name scope = true

theorem names_below {a b : Scopes N} (below : AtMost a b) (named : Names name a) :
    Names name b := by
  induction below with
  | nil => exact named
  | cons head _ ih =>
    obtain ⟨scope, member, has⟩ := named
    rcases mem_cons.mp member with rfl | member
    · exact ⟨_, mem_cons_self, by rw [← declares_below head, has]⟩
    · obtain ⟨scope', member', has'⟩ := ih ⟨scope, member, has⟩
      exact ⟨scope', mem_cons_of_mem _ member', has'⟩

theorem names_top {top top' scopes : Scopes N} (below : AtMost (top ++ scopes) (top' ++ scopes))
    (length : top'.length = top.length) (named : Names name top) : Names name top' := by
  have tops := List.forall₂_take top.length below
  rw [List.take_left, ← length, List.take_left] at tops
  exact names_below tops named

theorem handOver_append (named : Names name top) (scopes : Scopes N) :
    handOver name (top ++ scopes) = handOver name top ++ scopes := by
  induction top with
  | nil =>
    obtain ⟨scope, member, -⟩ := named
    cases member
  | cons scope top ih =>
    rw [cons_append, handOver, handOver]
    split
    · rfl
    · rename_i absent
      obtain ⟨other, member, has⟩ := named
      rcases mem_cons.mp member with rfl | member
      · exact absurd has absent
      · rw [ih ⟨other, member, has⟩, cons_append]

theorem length_handOver (name : N) (scopes : Scopes N) :
    (handOver name scopes).length = scopes.length :=
  (handOver_above name scopes).length_eq.symm

theorem names_declare {name other : N} {owned : Bool}
    (named : Names other scopes) : Names other (declare name owned scopes) := by
  cases scopes with
  | nil => exact named
  | cons scope scopes =>
    obtain ⟨found, member, has⟩ := named
    rcases mem_cons.mp member with rfl | member
    · refine ⟨_, mem_cons_self, ?_⟩
      unfold declares at has ⊢
      rw [any_cons]
      by_cases same : name = other
      · simp [same]
      · rw [any_eq_true] at has
        obtain ⟨entry, inside, matches_⟩ := has
        rw [or_eq_true]
        refine .inr (any_eq_true.mpr ⟨entry, mem_filter.mpr ⟨inside, ?_⟩, matches_⟩)
        rw [beq_iff_eq] at matches_
        rw [matches_]
        simpa using fun h => same h.symm
    · exact ⟨found, mem_cons_of_mem _ member, has⟩

/-- A plan that hands over nothing from outside leaves the outer scopes as they are. -/
theorem flow_keeps {names : List N}
    (quiet : plan.freeMoves names = []) (known : ∀ name ∈ names, Names name top)
    (inside : plan.tidy = true ∨ top ≠ []) (accepted : flow plan (top ++ scopes) = some after) :
    ∃ top', after = top' ++ scopes ∧ top'.length = top.length ∧
      ∀ name ∈ plan.bound names, Names name top' := by
  induction plan generalizing names top after with
  | done =>
    cases accepted
    exact ⟨top, rfl, rfl, known⟩
  | use name moves =>
    have above := flowUse_above accepted
    rw [flow, flowUse] at accepted
    split at accepted
    · cases accepted
      exact ⟨top, rfl, rfl, known⟩
    · split at accepted
      · split at accepted
        · cases accepted
        · cases accepted
          cases moves with
          | false => exact ⟨top, rfl, rfl, known⟩
          | true =>
            have bound : name ∈ names := by
              by_contra absent
              rw [Plan.freeMoves, if_neg absent] at quiet
              cases quiet
            refine ⟨handOver name top, handOver_append (known name bound) scopes,
              length_handOver name top, ?_⟩
            intro other member
            exact names_below (handOver_above name top) (known other member)
      · cases accepted
        exact ⟨top, rfl, rfl, known⟩
  | bind name owned =>
    cases accepted
    cases top with
    | nil => exact absurd rfl (inside.resolve_left nofun)
    | cons scope top =>
      refine ⟨declare name owned (scope :: top), rfl, rfl, ?_⟩
      intro other member
      rcases mem_cons.mp member with rfl | member
      · exact ⟨_, mem_cons_self, by simp [declares]⟩
      · exact names_declare (known other member)
  | both first second ihFirst ihSecond =>
    obtain ⟨middle, start, rest⟩ := bind_eq_some_iff.mp accepted
    rw [Plan.freeMoves, append_eq_nil_iff] at quiet
    obtain ⟨top₁, rfl, length₁, known₁⟩ := ihFirst quiet.1 known
      (inside.imp_left fun tidy => (and_eq_true _ _ ▸ tidy).1) start
    have inside₁ : second.tidy = true ∨ top₁ ≠ [] := by
      refine inside.imp (fun tidy => (and_eq_true _ _ ▸ tidy).2) ?_
      intro nonempty empty
      rw [empty, length_nil] at length₁
      exact nonempty (length_eq_zero_iff.mp length₁.symm)
    obtain ⟨top₂, rfl, length₂, known₂⟩ := ihSecond quiet.2 known₁ inside₁ rest
    exact ⟨top₂, rfl, length₂.trans length₁, known₂⟩
  | either first second ihFirst ihSecond =>
    have above := (flow_above accepted).2
    obtain ⟨a, b, tidyFirst, tidySecond, toA, toB, rfl⟩ := flow_either accepted
    rw [Plan.freeMoves, append_eq_nil_iff] at quiet
    obtain ⟨topA, rfl, lengthA, -⟩ := ihFirst quiet.1 known (.inl tidyFirst) toA
    obtain ⟨topB, rfl, lengthB, -⟩ := ihSecond quiet.2 known (.inl tidySecond) toB
    have joined : join (topA ++ scopes) (topB ++ scopes) = join topA topB ++ scopes := by
      unfold join
      rw [List.zipWith_append (lengthA.trans lengthB.symm)]
      exact congrArg _ (join_of_below (AtMost.refl scopes))
    have length : (join topA topB).length = top.length := by
      unfold join
      rw [List.length_zipWith, lengthA, lengthB, Nat.min_self]
    rw [joined] at above ⊢
    refine ⟨_, rfl, length, fun name member => ?_⟩
    exact names_top (above (by simp [Plan.tidy, tidyFirst, tidySecond])) length (known name member)
  | again body ih =>
    obtain ⟨-, -, rfl⟩ := flow_again accepted
    exact ⟨top, rfl, rfl, known⟩
  | within body ih =>
    have above := (flow_above accepted).2 rfl
    obtain ⟨inner, run, rfl⟩ := map_eq_some_iff.mp accepted
    have knownInner : ∀ name ∈ names, Names name ([] :: top) := by
      intro name member
      obtain ⟨scope, found, has⟩ := known name member
      exact ⟨scope, mem_cons_of_mem _ found, has⟩
    obtain ⟨topInner, rfl, length, -⟩ := ih quiet knownInner (.inr (cons_ne_nil _ _)) run
    cases topInner with
    | nil => cases length
    | cons scope top' =>
      have same : top'.length = top.length := Nat.succ.inj length
      exact ⟨top', rfl, same, fun name member => names_top above same (known name member)⟩

/-- A plan that binds and hands over nothing from outside changes nothing. -/
theorem flow_quiet (quiet : plan.freeMoves [] = [])
    (tidy : plan.tidy = true) (accepted : flow plan scopes = some after) : after = scopes := by
  have whole : flow plan ([] ++ scopes) = some after := accepted
  obtain ⟨top, same, length, -⟩ := flow_keeps quiet nofun (.inl tidy) whole
  rw [length_nil, length_eq_zero_iff] at length
  rw [same, length, nil_append]

/-- Nothing is used after it has been handed over, on any path of an accepted plan. -/
theorem flow_safe
    (accepted : flow plan scopes = some after) (run : Run plan ⟨scopes, false⟩ final ends) :
    final.violated = false :=
  (flow_covers run accepted rfl (AtMost.refl scopes)).safe

end Runs

end Koschei.Lib
