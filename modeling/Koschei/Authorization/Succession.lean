import Koschei.Authorization.Store

/-!
# Succession of heads

The ledger in memory and the durable store take a transition from the head to
any sealed state that names it. Their heads go through the authorization state
machine exactly when every transition they commit goes to a state that succeeds
the one it leaves; neither of them looks.
-/

namespace Koschei.Authorization

open Lib KeepsHeads

/-- The heads of a ledger and of a store go through the authorization state machine, in every run,
exactly when every transition that is committed goes to a state that succeeds the one it leaves. -/
theorem heads_follow_iff (library : Library) (primitives : Primitives)
    (calls : List (LedgerCall library)) (events : List (ClientEvent (StoreCall library))) :
    (SealsApart (StatesOf calls) →
      (HeadsFollow (StatesOf calls) Table.find (visited ledgerStep Table.empty calls) ↔
        ∀ moment ∈ trace ledgerStep Table.empty calls, ∀ previous next,
          LedgerCommits moment previous next → Succeeds previous next)) ∧
      (SealsApart (StatesShown events) → (HeadsFollow (StatesShown events) StoreSystem.headsOf
            (visited (authorizationStore library primitives).clientStep (StoreSystem.start library)
              events) ↔
          ∀ moment ∈ trace (authorizationStore library primitives).clientStep
              (StoreSystem.start library) events, ∀ previous next,
            CanCommit moment previous next → Succeeds previous next)) := by
  refine ⟨fun apart => (ledger_keepsHeads calls).follows_iff apart, fun apart => ?_⟩
  rw [(@store_keepsHeads library primitives events).follows_iff apart]
  constructor
  · intro lawful moment member previous next commits
    exact lawful moment member previous next ((committed_iff member).mpr commits)
  · intro lawful moment member previous next committed
    exact lawful moment member previous next ((committed_iff member).mp committed)

/-! ## A recorded history and a forged one -/

theorem sealAt_two_known : some (sealAt 2) ∈ [none, some (sealAt 1), some (sealAt 2)] :=
  mem_cons_of_mem _ (mem_cons_of_mem _ mem_cons_self)

theorem sealAt_three_known : sealAt 3 ∈ ["", sealAt 1, sealAt 2, sealAt 3] :=
  mem_cons_of_mem _ (mem_cons_of_mem _ (mem_cons_of_mem _ mem_cons_self))

/-- An active state that names the suspended one as its predecessor. -/
def forgedState : AuthorizationState recordedLibrary :=
  recordedState .active 3 (some (sealAt 2)) (Int.natCast_nonneg 3) sealAt_two_known
    sealAt_three_known

/-- A transition between two recorded states, sealed. -/
def recordedTransition (kind : String) (epoch : Int) (previous next : String) :
    AuthorizationTransition :=
  let unsealed : AuthorizationTransition := ⟨kind, epoch, previous, next, intentDigest, "", 1⟩
  { unsealed with transitionDigest := unsealed.sealOf recordedLibrary }

/-- The agent is suspended. -/
def suspension : AuthorizationTransition := recordedTransition "SUSPEND" 2 (sealAt 1) (sealAt 2)

/-- The calls that suspend the agent, and go on to another state. -/
def callsTo (final : AuthorizationState recordedLibrary) (kind : String) :
    List (LedgerCall recordedLibrary) :=
  [.registerInitial issuedState, .commitTransition issuedState suspendedState suspension,
    .commitTransition suspendedState final
      (recordedTransition kind 3 (sealAt 2) final.fields.stateDigest)]

variable {final state : AuthorizationState recordedLibrary}

/-- Recorded states of epochs one, two and three have three seals. -/
theorem sealsApart_recorded {presented : AuthorizationState recordedLibrary → Prop}
    (known : ∀ state, presented state → state = issuedState ∨ state = suspendedState ∨ state = final)
    (third : sealOf recordedLibrary final.fields = sealAt 3) : SealsApart presented := by
  have first : sealOf recordedLibrary issuedState.fields = sealAt 1 := rfl
  have second : sealOf recordedLibrary suspendedState.fields = sealAt 2 := rfl
  have distinct : sealAt 1 ≠ sealAt 2 ∧ sealAt 1 ≠ sealAt 3 ∧ sealAt 2 ≠ sealAt 3 := by
    decide +kernel
  intro a b shown shown' same
  rcases known a shown with rfl | rfl | rfl <;> rcases known b shown' with rfl | rfl | rfl <;>
    first
    | rfl
    | (simp only [first, second, third] at same
       first
       | exact absurd same distinct.1
       | exact absurd same distinct.2.1
       | exact absurd same distinct.2.2
       | exact absurd same.symm distinct.1
       | exact absurd same.symm distinct.2.1
       | exact absurd same.symm distinct.2.2)

theorem statesOf_callsTo {kind : String} (shown : StatesOf (callsTo final kind) state) :
    state = issuedState ∨ state = suspendedState ∨ state = final := by
  obtain ⟨call, member, inCall⟩ := shown
  simp only [callsTo, mem_cons, not_mem_nil, or_false] at member
  rcases member with rfl | rfl | rfl <;>
    simp only [LedgerCall.states, mem_cons, not_mem_nil, or_false] at inCall <;> grind

/-- One client makes the calls, each with its transaction. -/
def clientEvents (calls : List (StoreCall recordedLibrary)) :
    List (ClientEvent (StoreCall recordedLibrary)) :=
  calls.flatMap fun call => [.start 0 call, .transact 0 true]

def storeCallsTo (final : AuthorizationState recordedLibrary) (kind : String) :
    List (StoreCall recordedLibrary) :=
  [.registerInitial issuedState, .commitTransition issuedState suspendedState suspension,
    .commitTransition suspendedState final
      (recordedTransition kind 3 (sealAt 2) final.fields.stateDigest)]

theorem presented_clientEvents {calls : List (StoreCall recordedLibrary)}
    {call : StoreCall recordedLibrary} (presented : Database.Presented (clientEvents calls) call) :
    call ∈ calls := by
  obtain ⟨client, member⟩ := presented
  obtain ⟨made, inCalls, event⟩ := mem_flatMap.mp member
  simp only [mem_cons, ClientEvent.start.injEq, reduceCtorEq, not_mem_nil, or_self,
    or_false] at event
  rw [event.2]
  exact inCalls

theorem statesShown_storeCallsTo {kind : String}
    (shown : StatesShown (clientEvents (storeCallsTo final kind)) state) :
    state = issuedState ∨ state = suspendedState ∨ state = final := by
  obtain ⟨call, presented, inCall⟩ := shown
  have member := presented_clientEvents presented
  simp only [storeCallsTo, mem_cons, not_mem_nil, or_false] at member
  rcases member with rfl | rfl | rfl <;>
    simp only [StoreCall.states, mem_cons, not_mem_nil, or_false] at inCall <;> grind

theorem succeeds_suspended : Succeeds issuedState suspendedState where
  live terminal := by rcases terminal with impossible | impossible <;> cases impossible
  suspended impossible := by cases impossible
  epoch := by decide
  intent := rfl
  chain := rfl
  ceiling := rfl

theorem succeeds_revoked : Succeeds suspendedState revokedState where
  live terminal := by rcases terminal with impossible | impossible <;> cases impossible
  suspended _ := nofun
  epoch := by decide
  intent := rfl
  chain := rfl
  ceiling := rfl

/-- The heads of the recorded history follow each other, in the ledger and in the store. -/
theorem recorded_heads_follow : HeadsFollow (StatesOf (callsTo revokedState "REVOKE")) Table.find
        (visited ledgerStep Table.empty (callsTo revokedState "REVOKE")) ∧
      HeadsFollow (StatesShown (clientEvents (storeCallsTo revokedState "REVOKE")))
        StoreSystem.headsOf
        (visited (authorizationStore recordedLibrary hexPrimitives).clientStep
          (StoreSystem.start recordedLibrary)
          (clientEvents (storeCallsTo revokedState "REVOKE"))) := by
  have follow := heads_follow_iff recordedLibrary hexPrimitives (callsTo revokedState "REVOKE")
    (clientEvents (storeCallsTo revokedState "REVOKE"))
  constructor
  · refine (follow.1 (sealsApart_recorded (fun _ => statesOf_callsTo) rfl)).mpr ?_
    rintro moment member previous next ⟨transition, call, -, -⟩
    have made := call_of_mem_trace member
    rw [call] at made
    simp only [callsTo, mem_cons, LedgerCall.commitTransition.injEq, reduceCtorEq,
      not_mem_nil, or_false, false_or] at made
    rcases made with ⟨rfl, rfl, -⟩ | ⟨rfl, rfl, -⟩
    · exact succeeds_suspended
    · exact succeeds_revoked
  · refine (follow.2 (sealsApart_recorded (fun _ => statesShown_storeCallsTo) rfl)).mpr ?_
    rintro moment member previous next ⟨client, transition, -, found, -⟩
    obtain ⟨call, presented, passed⟩ :=
      Database.pending_presented .empty moment member _ (Database.mem_of_lookup found)
    obtain ⟨rfl, -⟩ := preparedBy_of_ok passed
    have made := presented_clientEvents presented
    simp only [storeCallsTo, mem_cons, StoreCall.commitTransition.injEq, reduceCtorEq,
      not_mem_nil, or_false, false_or] at made
    rcases made with ⟨rfl, rfl, -⟩ | ⟨rfl, rfl, -⟩
    · exact succeeds_suspended
    · exact succeeds_revoked

/-- A suspended head becomes active again, in the ledger and in the store. -/
theorem suspended_head_recovers : (SealsApart (StatesOf (callsTo forgedState "STEP_UP")) ∧
      ¬ HeadsFollow (StatesOf (callsTo forgedState "STEP_UP")) Table.find
        (visited ledgerStep Table.empty (callsTo forgedState "STEP_UP"))) ∧
    SealsApart (StatesShown (clientEvents (storeCallsTo forgedState "STEP_UP"))) ∧
      ¬ HeadsFollow (StatesShown (clientEvents (storeCallsTo forgedState "STEP_UP")))
        StoreSystem.headsOf
        (visited (authorizationStore recordedLibrary hexPrimitives).clientStep
          (StoreSystem.start recordedLibrary)
          (clientEvents (storeCallsTo forgedState "STEP_UP"))) := by
  have apart : SealsApart (StatesOf (callsTo forgedState "STEP_UP")) :=
    sealsApart_recorded (fun _ => statesOf_callsTo) rfl
  have apart' : SealsApart (StatesShown (clientEvents (storeCallsTo forgedState "STEP_UP"))) :=
    sealsApart_recorded (fun _ => statesShown_storeCallsTo) rfl
  refine ⟨⟨apart, fun follow => ?_⟩, apart', fun follow => ?_⟩
  · have lawful := ((ledger_keepsHeads (callsTo forgedState "STEP_UP")).follows_iff apart).mp follow
    have succeeds := lawful _ (mem_cons_of_mem _ (mem_cons_of_mem _ mem_cons_self))
      suspendedState forgedState ⟨_, rfl, ⟨rfl, rfl, rfl, rfl, rfl, rfl, rfl, rfl⟩, rfl⟩
    exact succeeds.suspended rfl rfl
  · have lawful := ((@store_keepsHeads recordedLibrary hexPrimitives
      (clientEvents (storeCallsTo forgedState "STEP_UP"))).follows_iff apart').mp follow
    let start := StoreSystem.start recordedLibrary
    have member := @List.getElem_mem _
      (trace (authorizationStore recordedLibrary hexPrimitives).clientStep start
        (clientEvents (storeCallsTo forgedState "STEP_UP"))) 5 (by decide)
    have succeeds := lawful _ member suspendedState forgedState
      ((committed_iff member).mpr ⟨0, _, rfl, rfl, ⟨_, rfl, rfl⟩, by decide, rfl⟩)
    exact succeeds.suspended rfl rfl

end Koschei.Authorization
