import Koschei.Lib.Names

/-!
# Components that answer calls until they stop

A component has a state of its own and works on a world. A call gets an answer
and leaves a new state and a new world, or it stops everything. What a user sees
of a series of calls is its history: the answers, what stopped it, and the world.

Two components that answer related states alike, and leave related states, have
the same histories. Where one of them stops at a call and the other one answers
it, the histories differ.
-/

namespace Koschei.Lib

variable {State State' World Call Answer Fault : Type}

/-- What a call comes to. -/
inductive Reply (State World Answer Fault : Type) where
  | answered (answer : Answer) (state : State) (world : World)
  | stopped (fault : Fault) (world : World)

/-- What is seen of a series of calls. -/
@[ext]
structure History (World Answer Fault : Type) where
  answers : List Answer
  stopped : Option Fault
  world : World
  deriving DecidableEq

section Serving

variable (step : State → World → Call → Reply State World Answer Fault)

def serve : State → World → List Call → History World Answer Fault
  | _, world, [] => ⟨[], none, world⟩
  | state, world, call :: calls =>
    match step state world call with
    | .stopped fault world => ⟨[], some fault, world⟩
    | .answered answer state world =>
      let rest := serve state world calls
      { rest with answers := answer :: rest.answers }

/-- Every call of a series meets a condition, in the state and the world it finds. -/
def Throughout (meets : State → World → Call → Prop) : State → World → List Call → Prop
  | _, _, [] => True
  | state, world, call :: calls =>
    meets state world call ∧ match step state world call with
      | .stopped _ _ => True
      | .answered _ state world => Throughout meets state world calls

end Serving

/-- Replies with one answer and one world, and related states. -/
inductive Reply.Agrees (R : State → State' → Prop) :
    Reply State World Answer Fault → Reply State' World Answer Fault → Prop where
  | answered {answer : Answer} {state : State} {state' : State'} {world : World}
      (related : R state state') :
      Agrees R (.answered answer state world) (.answered answer state' world)

variable {step : State → World → Call → Reply State World Answer Fault}
  {step' : State' → World → Call → Reply State' World Answer Fault} {R : State → State' → Prop}
  {meets : State' → World → Call → Prop} {allowed : Call → Prop} {state : State} {state' : State'}
  {world : World} {calls : List Call}

/-- Components that answer related states alike where a condition is met have the same histories
where it is met throughout. -/
theorem serve_eq (agrees : ∀ state state' world call, R state state' → allowed call →
      meets state' world call → (step state world call).Agrees R (step' state' world call))
    (related : R state state') (all : ∀ call ∈ calls, allowed call)
    (met : Throughout step' meets state' world calls) :
    serve step state world calls = serve step' state' world calls := by
  induction calls generalizing state state' world with
  | nil => rfl
  | cons call calls ih =>
    obtain ⟨first, rest⟩ := forall_mem_cons.mp all
    obtain ⟨here, later⟩ := met
    have agreed := agrees state state' world call related first here
    rw [serve, serve]
    generalize step state world call = reply at agreed
    generalize step' state' world call = reply' at agreed later
    cases agreed with
    | answered related => simp only [ih related rest later]

/-- When the first component stops at every call at which the condition is not met, and the second
one answers it, the histories agree only where the condition is met throughout. -/
theorem serve_eq_iff (agrees : ∀ state state' world call, R state state' → allowed call →
      meets state' world call → (step state world call).Agrees R (step' state' world call))
    (deviates : ∀ state state' world call, R state state' → allowed call →
      ¬ meets state' world call → (∃ fault after, step state world call = .stopped fault after) ∧
        ∃ answer later after, step' state' world call = .answered answer later after)
    (related : R state state') (all : ∀ call ∈ calls, allowed call) :
    serve step state world calls = serve step' state' world calls ↔
      Throughout step' meets state' world calls := by
  refine ⟨fun same => ?_, serve_eq agrees related all⟩
  induction calls generalizing state state' world with
  | nil => trivial
  | cons call calls ih =>
    obtain ⟨first, rest⟩ := forall_mem_cons.mp all
    rw [serve, serve] at same
    by_cases here : meets state' world call
    · refine ⟨here, ?_⟩
      have agreed := agrees state state' world call related first here
      generalize step state world call = reply at agreed same
      generalize step' state' world call = reply' at agreed same
      cases agreed with
      | answered related =>
        simp only [History.mk.injEq, cons.injEq, true_and] at same
        refine ih related rest ?_
        exact History.ext same.1 same.2.1 same.2.2
    · obtain ⟨⟨fault, after, stops⟩, answer, later, next, answers⟩ :=
        deviates state state' world call related first here
      rw [stops, answers] at same
      simp only [History.mk.injEq, reduceCtorEq, false_and] at same

end Koschei.Lib
