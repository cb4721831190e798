import Koschei.Authorization.Heads
import Koschei.Lib.Table

/-!
# The authorization state ledger

`AuthorizationStateLedgerV1` keeps the head of each subject in a dictionary. It
registers a sealed active state without a predecessor, and commits a sealed
transition from the head to a sealed state that names it.

It does not look at the status, the epoch, the ceiling, the intent or the chain
of the two states.
-/

namespace Koschei.Authorization

open Lib

section Transitions

variable {library : Library}

/-- `_assert_transition_sealed`. -/
def AuthorizationTransition.assertSealed (library : Library) (transition : AuthorizationTransition) :
    Checked Unit :=
  refuse (transition.sealOf library ≠ transition.transitionDigest)
    "authorization transition seal mismatch"

/-- A sealed transition from one sealed state to another that names it. -/
structure Linking (previous next : AuthorizationState library) (transition : AuthorizationTransition) :
    Prop where
  sealing : previous.Sealed
  sealing' : next.Sealed
  transitionSealed : transition.sealOf library = transition.transitionDigest
  subject : previous.fields.subject = next.fields.subject
  named : next.fields.previousStateDigest = some previous.fields.stateDigest
  leaves : transition.previousStateDigest = previous.fields.stateDigest
  reaches : transition.nextStateDigest = next.fields.stateDigest
  epoch : transition.epoch = next.fields.epoch

end Transitions

/-! ## The operations -/

/-- The heads of `AuthorizationStateLedgerV1`: the state digest of each subject. -/
abbrev LedgerHeads : Type := Table String String

section Ledger

variable {library : Library}

/-- `register_initial`. -/
def registerInitial (heads : LedgerHeads) (state : AuthorizationState library) :
    Checked LedgerHeads := do
  state.assertSealed
  refuse (state.fields.previousStateDigest ≠ none)
    "initial authorization state cannot have a predecessor"
  refuse (state.fields.status ≠ .active) "initial authorization state must be active"
  refuse (heads.find state.fields.subject ≠ none) "authorization state head already exists"
  .ok (heads.put state.fields.subject state.fields.stateDigest)

/-- `assert_current`. -/
def assertCurrent (heads : LedgerHeads) (state : AuthorizationState library) : Checked Unit := do
  state.assertSealed
  match heads.find state.fields.subject with
  | none => .error "authorization state head is unavailable"
  | some head =>
    refuse (head ≠ state.fields.stateDigest)
      "authorization state is not the current monotonic head"

/-- `commit_transition`. -/
def commitTransition (heads : LedgerHeads) (previous next : AuthorizationState library)
    (transition : AuthorizationTransition) : Checked LedgerHeads := do
  assertCurrent heads previous
  next.assertSealed
  transition.assertSealed library
  refuse (previous.fields.subject ≠ next.fields.subject) "authorization transition changes subject"
  refuse (next.fields.previousStateDigest ≠ some previous.fields.stateDigest)
    "next authorization state predecessor mismatch"
  refuse (transition.previousStateDigest ≠ previous.fields.stateDigest)
    "authorization transition previous-state mismatch"
  refuse (transition.nextStateDigest ≠ next.fields.stateDigest)
    "authorization transition next-state mismatch"
  refuse (transition.epoch ≠ next.fields.epoch) "authorization transition epoch mismatch"
  .ok (heads.put previous.fields.subject next.fields.stateDigest)

variable {heads after : LedgerHeads} {state : AuthorizationState library}

theorem registerInitial_eq_ok (registered : registerInitial heads state = .ok after) :
    state.Sealed ∧ state.fields.previousStateDigest = none ∧ state.fields.status = .active ∧
      heads.find state.fields.subject = none ∧
      after = heads.put state.fields.subject state.fields.stateDigest := by
  unfold registerInitial at registered
  obtain ⟨_, sealing, registered⟩ := bind_eq_ok registered
  obtain ⟨_, first, registered⟩ := bind_eq_ok registered
  obtain ⟨_, active, registered⟩ := bind_eq_ok registered
  obtain ⟨_, absent, registered⟩ := bind_eq_ok registered
  cases registered
  exact ⟨AuthorizationState.sealed_of_assertSealed sealing, not_not.mp (refuse_eq_ok first),
    not_not.mp (refuse_eq_ok active), not_not.mp (refuse_eq_ok absent), rfl⟩

theorem assertCurrent_eq_ok_iff : assertCurrent heads state = .ok () ↔
      state.Sealed ∧ heads.find state.fields.subject = some state.fields.stateDigest := by
  constructor
  · intro passed
    unfold assertCurrent at passed
    obtain ⟨_, sealing, current⟩ := bind_eq_ok passed
    refine ⟨AuthorizationState.sealed_of_assertSealed sealing, ?_⟩
    split at current
    · cases current
    · rename_i head found
      rw [found, not_not.mp (refuse_eq_ok current)]
  · rintro ⟨sealing, current⟩
    unfold assertCurrent
    rw [bind_of_ok (AuthorizationState.assertSealed_of_sealed sealing), current]
    exact refuse_of_not fun differs => differs rfl

theorem commitTransition_eq_ok_iff
    {previous next : AuthorizationState library} {transition : AuthorizationTransition} :
    commitTransition heads previous next transition = .ok after ↔ Linking previous next transition ∧
        heads.find previous.fields.subject = some previous.fields.stateDigest ∧
        after = heads.put previous.fields.subject next.fields.stateDigest := by
  simp only [commitTransition, bind_unit_iff, assertCurrent_eq_ok_iff,
    AuthorizationState.assertSealed_iff, AuthorizationTransition.assertSealed, refuse_iff, ne_eq,
    not_not, ok.injEq]
  constructor
  · rintro ⟨⟨sealing, head⟩, sealing', sealed, subject, named, leaves, reaches, epoch, rfl⟩
    exact ⟨⟨sealing, sealing', sealed, subject, named, leaves, reaches, epoch⟩, head, rfl⟩
  · rintro ⟨⟨sealing, sealing', sealed, subject, named, leaves, reaches, epoch⟩, head, rfl⟩
    exact ⟨⟨sealing, head⟩, sealing', sealed, subject, named, leaves, reaches, epoch, rfl⟩

/-! ## Runs -/

variable (library)

/-- The calls that change the heads. -/
inductive LedgerCall where
  | registerInitial (state : AuthorizationState library)
  | commitTransition (previous next : AuthorizationState library)
      (transition : AuthorizationTransition)

variable {library}

def LedgerCall.states : LedgerCall library → List (AuthorizationState library)
  | .registerInitial state => [state]
  | .commitTransition previous next _ => [previous, next]

def LedgerCall.run (heads : LedgerHeads) : LedgerCall library → Checked LedgerHeads
  | .registerInitial state => Authorization.registerInitial heads state
  | .commitTransition previous next transition =>
    Authorization.commitTransition heads previous next transition

/-- One call on a ledger: what raises leaves the heads. -/
def ledgerStep (heads : LedgerHeads) (call : LedgerCall library) : Checked Unit × LedgerHeads :=
  match call.run heads with
  | .ok after => (.ok (), after)
  | .error message => (.error message, heads)

def StatesOf (calls : List (LedgerCall library)) (state : AuthorizationState library) : Prop :=
  ∃ call ∈ calls, state ∈ call.states

/-- The call commits a transition between the two states, the first of them the head. -/
def LedgerCommits (moment : Moment LedgerHeads (LedgerCall library) (Checked Unit))
    (previous next : AuthorizationState library) : Prop :=
  ∃ transition, moment.call = .commitTransition previous next transition ∧
    Linking previous next transition ∧
    moment.before.find previous.fields.subject = some previous.fields.stateDigest

theorem ledgerStep_cases (heads : LedgerHeads) (call : LedgerCall library) :
    (ledgerStep heads call).2 = heads ∨ call.run heads = .ok (ledgerStep heads call).2 := by
  unfold ledgerStep
  cases call.run heads with
  | ok after => exact .inr rfl
  | error message => exact .inl rfl

theorem ledgerStep_of_ok {call : LedgerCall library}
    (ran : call.run heads = .ok after) : (ledgerStep heads call).2 = after := by
  unfold ledgerStep
  rw [ran]

theorem find_put_update (table : LedgerHeads) (subject digest : String) :
    (table.put subject digest).find = Function.update table.find subject (some digest) := by
  funext other
  rw [find_put, Function.update_apply]

theorem ledger_keepsHeads (calls : List (LedgerCall library)) :
    KeepsHeads (StatesOf calls) Table.find ledgerStep Table.empty calls LedgerCommits where
  empty := rfl
  outcome := by
    intro moment member
    have presented := call_of_mem_trace member
    have after : moment.after = (ledgerStep moment.before moment.call).2 := by
      rw [step_of_mem_trace member]
    rcases ledgerStep_cases moment.before moment.call with same | ran
    · exact .inl (by rw [after, same])
    · rw [← after] at ran
      cases call : moment.call with
      | registerInitial state =>
        rw [call] at ran presented
        obtain ⟨sealing, first, active, absent, put⟩ := registerInitial_eq_ok ran
        refine .inr (.inl ⟨state, ⟨_, presented, mem_singleton_self _⟩, sealing, first, active,
          absent, ?_⟩)
        rw [put, find_put_update]
      | commitTransition previous next transition =>
        rw [call] at ran
        obtain ⟨linking, current, -⟩ := commitTransition_eq_ok_iff.mp ran
        exact .inr (.inr ⟨previous, next, transition, call, linking, current⟩)
  moves := by
    rintro moment member previous next ⟨transition, call, linking, current⟩
    have presented := call_of_mem_trace member
    have after : moment.after = (ledgerStep moment.before moment.call).2 := by
      rw [step_of_mem_trace member]
    rw [call] at presented after
    have ran : (LedgerCall.commitTransition previous next transition).run moment.before = .ok _ :=
      commitTransition_eq_ok_iff.mpr ⟨linking, current, rfl⟩
    refine ⟨⟨_, presented, mem_cons_self⟩,
      ⟨_, presented, mem_cons_of_mem _ (mem_singleton_self _)⟩, linking.sealing,
      linking.sealing', linking.subject, linking.named, current, ?_⟩
    rw [after, ledgerStep_of_ok ran, find_put_update]

end Ledger

end Koschei.Authorization
