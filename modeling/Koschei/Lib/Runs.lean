import Koschei.Lib.Names
import Mathlib.Data.List.Pairwise

/-!
# Runs of a machine that answers calls

A machine is a step function: a state and a call give an answer and the next
state. Its trace on a series of calls lists, for each call, the state it met,
the answer and the state it left.

What every step preserves holds at every moment of a trace, and what every step
relates is related between any two moments, the earlier and the later one.
-/

namespace Koschei.Lib

variable {State Call Answer : Type}

/-- One call of a run. -/
structure Moment (State Call Answer : Type) where
  before : State
  call : Call
  answer : Answer
  after : State

section Traces

variable (step : State → Call → Answer × State)

/-- The moments of a run. -/
def trace : State → List Call → List (Moment State Call Answer)
  | _, [] => []
  | state, call :: calls =>
    ⟨state, call, (step state call).1, (step state call).2⟩ :: trace (step state call).2 calls

/-- The state a run ends in. -/
def finalState : State → List Call → State
  | state, [] => state
  | state, call :: calls => finalState (step state call).2 calls

/-- The states a run visits, the first and the last one included. -/
def visited : State → List Call → List State
  | state, [] => [state]
  | state, call :: calls => state :: visited (step state call).2 calls

variable {step}

variable {state : State} {calls : List Call} {moment : Moment State Call Answer}

section

variable (member : moment ∈ trace step state calls)

include member

theorem step_of_mem_trace : step moment.before moment.call = (moment.answer, moment.after) := by
  induction calls generalizing state with
  | nil => cases member
  | cons call calls ih =>
    rcases mem_cons.mp member with rfl | later
    · rfl
    · exact ih later

theorem call_of_mem_trace : moment.call ∈ calls := by
  induction calls generalizing state with
  | nil => cases member
  | cons call calls ih =>
    rcases mem_cons.mp member with rfl | later
    · exact mem_cons_self
    · exact mem_cons_of_mem _ (ih later)

omit member in
theorem exists_mem_trace {call : Call} (member : call ∈ calls) (state : State) :
    ∃ moment ∈ trace step state calls, moment.call = call := by
  induction calls generalizing state with
  | nil => cases member
  | cons first calls ih =>
    rcases mem_cons.mp member with rfl | later
    · exact ⟨_, mem_cons_self, rfl⟩
    · obtain ⟨moment, inside, same⟩ := ih later (step state first).2
      exact ⟨moment, mem_cons_of_mem _ inside, same⟩

/-- What a moment is known to be once its step is known. -/
theorem outcome_of_mem_trace {answer : Answer} {after : State}
    (ran : step moment.before moment.call = (answer, after)) :
    moment.answer = answer ∧ moment.after = after := by
  have same := step_of_mem_trace member
  rw [ran, Prod.mk.injEq] at same
  exact ⟨same.1.symm, same.2.symm⟩

end

variable {I : State → Prop}

/-- What holds in the first state and is preserved by the moments of a run holds throughout. -/
theorem trace_invariant (start : I state)
    (preserved : ∀ moment ∈ trace step state calls, I moment.before → I moment.after) :
    (∀ moment ∈ trace step state calls, I moment.before ∧ I moment.after) ∧
      I (finalState step state calls) := by
  induction calls generalizing state with
  | nil => exact ⟨forall_mem_nil _, start⟩
  | cons call calls ih =>
    obtain ⟨first, rest⟩ := forall_mem_cons.mp preserved
    obtain ⟨later, ends⟩ := ih (first start) rest
    exact ⟨forall_mem_cons.mpr ⟨⟨start, first start⟩, later⟩, ends⟩

/-- What holds in the first state and is preserved by the moments of a run holds before each. -/
theorem before_of_invariant (start : I state)
    (preserved : ∀ moment ∈ trace step state calls, I moment.before → I moment.after) :
    ∀ moment ∈ trace step state calls, I moment.before :=
  fun moment member => ((trace_invariant start preserved).1 moment member).1

/-- What holds in the first state and is preserved by the moments of a run holds in every visited
state. -/
theorem visited_invariant (start : I state)
    (preserved : ∀ moment ∈ trace step state calls, I moment.before → I moment.after) :
    ∀ later ∈ visited step state calls, I later := by
  induction calls generalizing state with
  | nil => exact List.forall_mem_singleton.mpr start
  | cons call calls ih =>
    obtain ⟨first, rest⟩ := forall_mem_cons.mp preserved
    exact forall_mem_cons.mpr ⟨start, ih (first start) rest⟩

variable {R : State → State → Prop}

section

variable (refl : ∀ state, R state state)
  (trans : ∀ a b c, R a b → R b c → R a c)
  (related : ∀ moment ∈ trace step state calls, R moment.before moment.after)

include refl trans related

theorem trace_from_start : ∀ moment ∈ trace step state calls, R state moment.before :=
  before_of_invariant (refl state) fun moment member earlier =>
    trans _ _ _ earlier (related moment member)

theorem finalState_from_start : R state (finalState step state calls) :=
  (trace_invariant (refl state) fun moment member earlier =>
    trans _ _ _ earlier (related moment member)).2

/-- What every moment relates is related between the end of a moment and the last state. -/
theorem finalState_from_moment :
    ∀ moment ∈ trace step state calls, R moment.after (finalState step state calls) := by
  induction calls generalizing state with
  | nil => exact forall_mem_nil _
  | cons call calls ih =>
    obtain ⟨-, rest⟩ := forall_mem_cons.mp related
    exact forall_mem_cons.mpr ⟨finalState_from_start refl trans rest, ih rest⟩

/-- What every moment relates is related between the end of a moment and the beginning of a later
one. -/
theorem trace_pairwise :
    (trace step state calls).Pairwise fun earlier later => R earlier.after later.before := by
  induction calls generalizing state with
  | nil => exact .nil
  | cons call calls ih =>
    obtain ⟨-, rest⟩ := forall_mem_cons.mp related
    exact .cons (trace_from_start refl trans rest) (ih rest)

/-- What every moment relates is related between the first state and every visited one. -/
theorem visited_from_start : ∀ later ∈ visited step state calls, R state later :=
  visited_invariant (refl state) fun moment member earlier =>
    trans _ _ _ earlier (related moment member)

/-- What every moment relates is related between any two visited states, the earlier and the later
one. -/
theorem visited_pairwise : (visited step state calls).Pairwise R := by
  induction calls generalizing state with
  | nil => exact pairwise_singleton _ _
  | cons call calls ih =>
    obtain ⟨first, rest⟩ := forall_mem_cons.mp related
    refine .cons (fun later member => ?_) (ih rest)
    exact trans _ _ _ first (visited_from_start refl trans rest later member)

end

theorem start_mem_visited (state : State) (calls : List Call) :
    state ∈ visited step state calls := by
  cases calls <;> exact mem_cons_self

theorem finalState_mem_visited (state : State) (calls : List Call) :
    finalState step state calls ∈ visited step state calls := by
  induction calls generalizing state with
  | nil => exact mem_singleton_self state
  | cons call calls ih => exact mem_cons_of_mem _ (ih _)

theorem before_mem_visited
    (member : moment ∈ trace step state calls) : moment.before ∈ visited step state calls := by
  induction calls generalizing state with
  | nil => cases member
  | cons call calls ih =>
    rcases mem_cons.mp member with rfl | later
    · exact mem_cons_self
    · exact mem_cons_of_mem _ (ih later)

theorem after_mem_visited
    (member : moment ∈ trace step state calls) : moment.after ∈ visited step state calls := by
  induction calls generalizing state with
  | nil => cases member
  | cons call calls ih =>
    rcases mem_cons.mp member with rfl | later
    · exact mem_cons_of_mem _ (start_mem_visited _ _)
    · exact mem_cons_of_mem _ (ih later)

theorem related_of_pairwise (pairwise : (visited step state calls).Pairwise R) :
    ∀ moment ∈ trace step state calls, R moment.before moment.after := by
  induction calls generalizing state with
  | nil => exact forall_mem_nil _
  | cons call calls ih =>
    obtain ⟨first, rest⟩ := pairwise_cons.mp pairwise
    exact forall_mem_cons.mpr ⟨first _ (start_mem_visited _ _), ih rest⟩

theorem finalState_append (state : State) (first second : List Call) :
    finalState step state (first ++ second) =
      finalState step (finalState step state first) second := by
  induction first generalizing state with
  | nil => rfl
  | cons call first ih => exact ih _

theorem trace_append (state : State) (first second : List Call) :
    trace step state (first ++ second) =
      trace step state first ++ trace step (finalState step state first) second := by
  induction first generalizing state with
  | nil => rfl
  | cons call first ih =>
    rw [cons_append, trace, trace, cons_append, ih]
    rfl

end Traces

/-- The answers of a run. -/
def answers (step : State → Call → Answer × State) (state : State) (calls : List Call) : List Answer :=
  (trace step state calls).map Moment.answer

/-- A machine whose steps are those of another, as far as a relation of the states and a reading of
the answers go, answers as the other does. -/
theorem answers_eq_of_simulation {State' Answer' : Type} {step : State → Call → Answer × State}
    {step' : State' → Call → Answer' × State'}
    {read : Answer' → Answer} {R : State → State' → Prop} {calls : List Call}
    (simulates : ∀ call ∈ calls, ∀ state state', R state state' →
      (step state call).1 = read (step' state' call).1 ∧ R (step state call).2 (step' state' call).2)
    {state : State} {state' : State'} (start : R state state') :
    answers step state calls = (answers step' state' calls).map read ∧
      R (finalState step state calls) (finalState step' state' calls) := by
  induction calls generalizing state state' with
  | nil => exact ⟨rfl, start⟩
  | cons call calls ih =>
    obtain ⟨first, rest⟩ := forall_mem_cons.mp simulates
    obtain ⟨same, kept⟩ := first state state' start
    obtain ⟨others, ends⟩ := ih rest kept
    refine ⟨?_, ends⟩
    show (step state call).1 :: answers step (step state call).2 calls = _
    rw [same, others]
    rfl

end Koschei.Lib
