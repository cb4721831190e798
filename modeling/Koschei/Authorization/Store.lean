import Koschei.Authorization.Binding
import Koschei.Authorization.Ledger
import Koschei.Lib.Transactions

/-!
# The durable authorization store

`DurableAuthorizationStoreV1` keeps heads, transitions and execution claims in
tables that its clients share. A claim binds the state to the request, takes a
snapshot and authenticates the permit before its transaction; under the writer
lock it compares the head of the subject with the state and inserts the claim,
whose key is the digest of the permit.

`storeMoment_cases` says everything a moment of a run can do to the tables.
-/

namespace Koschei.Authorization

open Lib

/-! ## Receipts -/

/-- `_claim_payload`. -/
def claimPayload (permit state snapshot decision evidence request operation : String)
    (epoch : Int) : String :=
  "koschei.durable-execution-claim/v1\x00" ++ lines ["permit=" ++ permit, "state=" ++ state,
    "snapshot=" ++ snapshot, "decision=" ++ decision, "evidence=" ++ evidence,
    "request=" ++ request, "operation=" ++ operation, "epoch=" ++ toString epoch, "claimed=1"]

/-- `DurableExecutionClaimReceiptV1`. -/
structure DurableExecutionClaimReceipt where
  permitDigest : String
  stateDigest : String
  snapshotDigest : String
  authorizationDecisionDigest : String
  evidenceDigest : String
  requestDigest : String
  operation : String
  executionEpoch : Int
  receiptDigest : String
  authority : Bool := false
  deriving DecidableEq

namespace DurableExecutionClaimReceipt

/-- What the digest of a receipt is made of. -/
def payload (receipt : DurableExecutionClaimReceipt) : String :=
  claimPayload receipt.permitDigest receipt.stateDigest receipt.snapshotDigest
    receipt.authorizationDecisionDigest receipt.evidenceDigest receipt.requestDigest
    receipt.operation receipt.executionEpoch

/-- `DurableExecutionClaimReceiptV1.assert_authenticated`. -/
def assertAuthenticated {library : Library} (primitives : Primitives) (claimKey : List UInt8)
    (state : AuthorizationState library) (snapshot : ExecutionAuthorizationSnapshot)
    (permit : ExecutionPermit) (receipt : DurableExecutionClaimReceipt) : Checked Unit := do
  let key ← keyOf claimKey "claim_key"
  refuse receipt.authority "durable execution claim cannot carry ambient authority"
  refuse (receipt.permitDigest ≠ permit.permitDigest) "durable execution claim permit mismatch"
  refuse (receipt.stateDigest ≠ state.fields.stateDigest) "durable execution claim state mismatch"
  refuse (receipt.snapshotDigest ≠ snapshot.snapshotDigest)
    "durable execution claim snapshot mismatch"
  refuse (receipt.authorizationDecisionDigest ≠ permit.authorizationDecisionDigest)
    "durable execution claim decision mismatch"
  refuse (receipt.evidenceDigest ≠ permit.evidenceDigest)
    "durable execution claim evidence mismatch"
  refuse (receipt.requestDigest ≠ permit.requestDigest) "durable execution claim request mismatch"
  refuse (receipt.operation ≠ permit.operation) "durable execution claim operation mismatch"
  refuse (receipt.executionEpoch ≠ snapshot.executionEpoch)
    "durable execution claim epoch mismatch"
  compareDigest receipt.receiptDigest (primitives.hmac key receipt.payload)
    "durable execution claim authentication failed"

end DurableExecutionClaimReceipt

/-! ## Tables -/

/-- A row of `authorization_heads`; the subject is its key. -/
structure HeadRow where
  stateDigest : String
  stateEpoch : Int
  stateStatus : String
  intentCommitmentDigest : String
  deriving DecidableEq

/-- A row of `authorization_transitions`; the transition digest is its key. -/
structure TransitionRow where
  subject : String
  previousStateDigest : String
  nextStateDigest : String
  transitionEpoch : Int
  transitionKind : String
  deriving DecidableEq

/-- A row of `execution_claims`; the permit digest is its key. -/
structure ClaimRow where
  subject : String
  stateDigest : String
  snapshotDigest : String
  authorizationDecisionDigest : String
  evidenceDigest : String
  requestDigest : String
  operation : String
  executionEpoch : Int
  claimReceiptDigest : String
  deriving DecidableEq

structure StoreTables where
  heads : Table String HeadRow
  transitions : Table String TransitionRow
  claims : Table String ClaimRow

def StoreTables.empty : StoreTables := ⟨.empty, .empty, .empty⟩

section Store

variable {library : Library}

/-! ## Calls and their checks -/

variable (library)

/-- The arguments of `claim_execution`. -/
structure ClaimExecution where
  state : AuthorizationState library
  delegationChain : List DelegationLink
  intent : IntentCommitment
  permit : ExecutionPermit
  runtimeKey : List UInt8
  decisionKey : List UInt8
  grant : ExternalAdapterGrant
  evidence : ExternalAdapterEvidence
  decision : AuthorizationDecision
  mir : NativeSigilMir
  request : CanonicalEffectRequest
  currentEpoch : Int
  claimKey : List UInt8

/-- The calls that change the store. -/
inductive StoreCall where
  | registerInitial (state : AuthorizationState library)
  | commitTransition (previous next : AuthorizationState library)
      (transition : AuthorizationTransition)
  | claimExecution (arguments : ClaimExecution library)

/-- What is left for the transaction of a call. -/
inductive StorePrepared where
  | register (state : AuthorizationState library)
  | commit (previous next : AuthorizationState library) (transition : AuthorizationTransition)
  | claim (state : AuthorizationState library) (snapshot : ExecutionAuthorizationSnapshot)
      (receipt : DurableExecutionClaimReceipt)

variable {library}

/-- What a call returns: nothing, or a snapshot and a receipt. -/
inductive StoreAnswer where
  | done
  | claimed (snapshot : ExecutionAuthorizationSnapshot) (receipt : DurableExecutionClaimReceipt)

/-- The checks of `register_initial`. -/
def prepareRegister (state : AuthorizationState library) : Checked (StorePrepared library) := do
  state.assertSealed
  refuse (state.fields.previousStateDigest ≠ none ∨ state.fields.status ≠ .active)
    "initial authorization state must be active with no predecessor"
  .ok (.register state)

/-- The checks of `commit_transition`. -/
def prepareCommit (previous next : AuthorizationState library)
    (transition : AuthorizationTransition) : Checked (StorePrepared library) := do
  previous.assertSealed
  next.assertSealed
  transition.assertSealed library
  refuse (previous.fields.subject ≠ next.fields.subject) "authorization transition changes subject"
  refuse (next.fields.previousStateDigest ≠ some previous.fields.stateDigest)
    "next authorization state predecessor mismatch"
  refuse (transition.previousStateDigest ≠ previous.fields.stateDigest ∨
      transition.nextStateDigest ≠ next.fields.stateDigest)
    "authorization transition state binding mismatch"
  refuse (transition.epoch ≠ next.fields.epoch) "authorization transition epoch mismatch"
  .ok (.commit previous next transition)

/-- The receipt of a claim, authenticated with the claim key. -/
def ClaimExecution.receipt (primitives : Primitives) (call : ClaimExecution library)
    (snapshot : ExecutionAuthorizationSnapshot) : DurableExecutionClaimReceipt :=
  let unsealed : DurableExecutionClaimReceipt := {
    permitDigest := call.permit.permitDigest
    stateDigest := call.state.fields.stateDigest
    snapshotDigest := snapshot.snapshotDigest
    authorizationDecisionDigest := call.permit.authorizationDecisionDigest
    evidenceDigest := call.permit.evidenceDigest
    requestDigest := call.permit.requestDigest
    operation := call.permit.operation
    executionEpoch := call.currentEpoch
    receiptDigest := "" }
  { unsealed with receiptDigest := primitives.hmac call.claimKey unsealed.payload }

/-- The checks of `claim_execution`. -/
def prepareClaim (primitives : Primitives) (call : ClaimExecution library) :
    Checked (StorePrepared library) := do
  let _ ← keyOf call.claimKey "claim_key"
  assertEffectAuthorizationBinding primitives call.state call.intent call.grant call.mir
    call.request call.currentEpoch
  call.state.assertSealed
  let snapshot ← authorizationSnapshotForExecution library call.state call.delegationChain
    call.currentEpoch
  call.permit.assertAuthenticated primitives call.runtimeKey call.decisionKey call.grant
    call.evidence call.decision
  let live ← call.permit.isLiveFor call.currentEpoch call.request.digest call.request.operation
  refuse (live = false) "execution permit is not live for durable claim"
  let receipt := call.receipt primitives snapshot
  receipt.assertAuthenticated primitives call.claimKey call.state snapshot call.permit
  .ok (.claim call.state snapshot receipt)

/-! ## Transactions -/

/-- The transaction of `register_initial`. -/
def registerBody (state : AuthorizationState library) (tables : StoreTables) :
    Checked StoreTables := do
  let epoch ← sqlInteger state.fields.epoch
  match tables.heads.insert state.fields.subject
      ⟨state.fields.stateDigest, epoch, state.fields.status.text,
        state.fields.intentCommitmentDigest⟩ with
  | none => .error "authorization state head already exists"
  | some heads => .ok { tables with heads }

/-- The transaction of `commit_transition`. -/
def commitBody (previous next : AuthorizationState library) (transition : AuthorizationTransition)
    (tables : StoreTables) : Checked StoreTables :=
  match tables.heads.find previous.fields.subject with
  | none => .error "authorization state head is unavailable"
  | some row => do
    refuse (row.stateDigest ≠ previous.fields.stateDigest)
      "authorization state is not the current durable monotonic head"
    let current := fun row : HeadRow => decide (row.stateDigest = previous.fields.stateDigest)
    let epoch ← sqlInteger next.fields.epoch
    let heads := tables.heads.update previous.fields.subject current fun _ =>
      ⟨next.fields.stateDigest, epoch, next.fields.status.text, next.fields.intentCommitmentDigest⟩
    refuse (tables.heads.rowcount previous.fields.subject current ≠ 1)
      "authorization state compare-and-swap failed"
    let transitionEpoch ← sqlInteger transition.epoch
    match tables.transitions.insert transition.transitionDigest
        ⟨previous.fields.subject, previous.fields.stateDigest, next.fields.stateDigest,
          transitionEpoch, transition.kind⟩ with
    | none => .error "authorization transition replay detected"
    | some transitions => .ok { tables with heads, transitions }

/-- The transaction of `claim_execution`. -/
def claimBody (state : AuthorizationState library) (receipt : DurableExecutionClaimReceipt)
    (tables : StoreTables) : Checked StoreTables :=
  match tables.heads.find state.fields.subject with
  | none => .error "authorization state head is unavailable"
  | some row => do
    refuse (row.stateDigest ≠ state.fields.stateDigest)
      "authorization state is not the current durable monotonic head"
    refuse (row.stateEpoch ≠ state.fields.epoch ∨ row.stateStatus ≠ "active")
      "durable authorization state is not active"
    refuse (row.intentCommitmentDigest ≠ state.fields.intentCommitmentDigest)
      "durable authorization intent binding mismatch"
    let epoch ← sqlInteger receipt.executionEpoch
    match tables.claims.insert receipt.permitDigest
        ⟨state.fields.subject, receipt.stateDigest, receipt.snapshotDigest,
          receipt.authorizationDecisionDigest, receipt.evidenceDigest, receipt.requestDigest,
          receipt.operation, epoch, receipt.receiptDigest⟩ with
    | none => .error "execution permit replay detected"
    | some claims => .ok { tables with claims }

/-- `DurableAuthorizationStoreV1`. -/
def authorizationStore (library : Library) (primitives : Primitives) :
    Database StoreTables (StoreCall library) (StorePrepared library) StoreAnswer String where
  prepare
    | .registerInitial state => prepareRegister state
    | .commitTransition previous next transition => prepareCommit previous next transition
    | .claimExecution arguments => prepareClaim primitives arguments
  body
    | .register state, tables => (registerBody state tables).map fun after => (after, .done)
    | .commit previous next transition, tables =>
      (commitBody previous next transition tables).map fun after => (after, .done)
    | .claim state snapshot receipt, tables =>
      (claimBody state receipt tables).map fun after => (after, .claimed snapshot receipt)
  unavailable := "durable authorization store is unavailable"

/-! ## What the checks and the transactions do -/

variable {state previous next : AuthorizationState library} {prepared : StorePrepared library}

theorem prepareRegister_eq_ok (passed : prepareRegister state = .ok prepared) :
    prepared = .register state ∧ state.Sealed ∧ state.fields.previousStateDigest = none ∧
      state.fields.status = .active := by
  unfold prepareRegister at passed
  obtain ⟨_, sealing, passed⟩ := bind_eq_ok passed
  obtain ⟨_, first, passed⟩ := bind_eq_ok passed
  cases passed
  have checks := not_or.mp (refuse_eq_ok first)
  exact ⟨rfl, AuthorizationState.sealed_of_assertSealed sealing, not_not.mp checks.1,
    not_not.mp checks.2⟩

variable {transition : AuthorizationTransition}

theorem prepareCommit_eq_ok (passed : prepareCommit previous next transition = .ok prepared) :
    prepared = .commit previous next transition ∧ Linking previous next transition := by
  simp only [prepareCommit, bind_unit_iff, refuse_iff, ne_eq, not_not, not_or] at passed
  obtain ⟨sealing, sealing', sealed, subject, named, ends, epoch, passed⟩ := passed
  cases passed
  exact ⟨rfl, AuthorizationState.sealed_of_assertSealed sealing,
    AuthorizationState.sealed_of_assertSealed sealing', not_not.mp (refuse_eq_ok sealed), subject,
    named, ends.1, ends.2, epoch⟩

theorem prepareClaim_eq_ok {primitives : Primitives} {call : ClaimExecution library}
    (passed : prepareClaim primitives call = .ok prepared) : call.state.Sealed ∧ ∃ snapshot,
      prepared = .claim call.state snapshot (call.receipt primitives snapshot) := by
  simp only [prepareClaim, bind_eq_ok_iff] at passed
  obtain ⟨_, -, _, -, _, sealing, snapshot, -, _, -, _, -, _, -, _, -, passed⟩ := passed
  cases passed
  exact ⟨AuthorizationState.sealed_of_assertSealed sealing, snapshot, rfl⟩

/-- The row of a state in `authorization_heads`. -/
def headRow (state : AuthorizationState library) : HeadRow :=
  ⟨state.fields.stateDigest, state.fields.epoch, state.fields.status.text,
    state.fields.intentCommitmentDigest⟩

variable {tables after : StoreTables}

theorem registerBody_eq_ok (ran : registerBody state tables = .ok after) :
    tables.heads.insert state.fields.subject (headRow state) = some after.heads ∧
      after.claims = tables.claims := by
  unfold registerBody at ran
  obtain ⟨epoch, bound, ran⟩ := bind_eq_ok ran
  rw [sqlInteger_eq_ok bound] at ran
  split at ran
  · cases ran
  · rename_i heads inserted
    cases ran
    exact ⟨inserted, rfl⟩

/-- The transaction of a transition goes through: the first state is the head, the epoch fits into
64 bits, and the transition is not recorded yet. -/
structure Committable (tables : StoreTables) (previous next : AuthorizationState library)
    (transition : AuthorizationTransition) : Prop where
  head : ∃ row, tables.heads.find previous.fields.subject = some row ∧
    row.stateDigest = previous.fields.stateDigest
  epoch : next.fields.epoch < 2 ^ 63
  fresh : tables.transitions.find transition.transitionDigest = none

/-- The state digest of a row is the expected one. -/
def isCurrent (state : AuthorizationState library) (row : HeadRow) : Bool :=
  decide (row.stateDigest = state.fields.stateDigest)

theorem commitBody_eq_ok (ran : commitBody previous next transition tables = .ok after) :
    (∃ row, tables.heads.find previous.fields.subject = some row ∧
        row.stateDigest = previous.fields.stateDigest) ∧
      next.fields.epoch < 2 ^ 63 ∧
      tables.transitions.find transition.transitionDigest = none ∧
      after.heads = tables.heads.update previous.fields.subject (isCurrent previous)
        (fun _ => headRow next) ∧
      after.claims = tables.claims := by
  unfold commitBody at ran
  split at ran
  · cases ran
  · rename_i row found
    obtain ⟨_, current, ran⟩ := bind_eq_ok ran
    obtain ⟨epoch, bound, ran⟩ := bind_eq_ok ran
    obtain ⟨_, -, ran⟩ := bind_eq_ok ran
    obtain ⟨epoch', -, ran⟩ := bind_eq_ok ran
    have inRange := sqlInteger_lt bound
    split at ran
    · cases ran
    · rename_i transitions inserted
      cases ran
      refine ⟨⟨row, found, not_not.mp (refuse_eq_ok current)⟩, inRange,
        (insert_eq_some inserted).1, ?_, rfl⟩
      rw [sqlInteger_eq_ok bound]
      rfl

theorem commitBody_of_committable (committable : Committable tables previous next transition)
    (linking : Linking previous next transition) (clock : 0 ≤ next.fields.epoch) :
    ∃ after, commitBody previous next transition tables = .ok after := by
  obtain ⟨row, found, current⟩ := committable.head
  obtain ⟨transitions, inserted⟩ := insert_of_absent committable.fresh
    ⟨previous.fields.subject, previous.fields.stateDigest, next.fields.stateDigest,
      next.fields.epoch, transition.kind⟩
  have counted : tables.heads.rowcount previous.fields.subject (isCurrent previous) = 1 :=
    Table.rowcount_eq_one found (decide_eq_true current)
  have bound := sqlInteger_of_range clock committable.epoch
  have bound' : sqlInteger transition.epoch = .ok next.fields.epoch := by
    rw [linking.epoch]
    exact bound
  unfold commitBody
  rw [found]
  dsimp only
  rw [bind_of_ok (refuse_of_not (not_not.mpr current)), bind_of_ok bound]
  refine ⟨{ tables with
    heads := tables.heads.update previous.fields.subject (isCurrent previous) fun _ => headRow next
    transitions }, (bind_of_ok (refuse_of_not (not_not.mpr counted))).trans ?_⟩
  rw [bind_of_ok bound', inserted]
  rfl

variable {receipt : DurableExecutionClaimReceipt}

theorem claimBody_eq_ok (ran : claimBody state receipt tables = .ok after) :
    tables.heads.find state.fields.subject = some ⟨state.fields.stateDigest, state.fields.epoch,
        "active", state.fields.intentCommitmentDigest⟩ ∧
      tables.claims.insert receipt.permitDigest
        ⟨state.fields.subject, receipt.stateDigest, receipt.snapshotDigest,
          receipt.authorizationDecisionDigest, receipt.evidenceDigest, receipt.requestDigest,
          receipt.operation, receipt.executionEpoch, receipt.receiptDigest⟩ = some after.claims ∧
      after.heads = tables.heads := by
  unfold claimBody at ran
  split at ran
  · cases ran
  · rename_i row found
    obtain ⟨_, current, ran⟩ := bind_eq_ok ran
    obtain ⟨_, active, ran⟩ := bind_eq_ok ran
    obtain ⟨_, intent, ran⟩ := bind_eq_ok ran
    obtain ⟨epoch, bound, ran⟩ := bind_eq_ok ran
    rw [sqlInteger_eq_ok bound] at ran
    split at ran
    · cases ran
    · rename_i claims inserted
      cases ran
      have checks := not_or.mp (refuse_eq_ok active)
      obtain ⟨digest, stateEpoch, status, commitment⟩ := row
      have digests : digest = state.fields.stateDigest := not_not.mp (refuse_eq_ok current)
      have epochs : stateEpoch = state.fields.epoch := not_not.mp checks.1
      have statuses : status = "active" := not_not.mp checks.2
      have intents : commitment = state.fields.intentCommitmentDigest :=
        not_not.mp (refuse_eq_ok intent)
      rw [found, digests, epochs, statuses, intents]
      exact ⟨rfl, inserted, rfl⟩

theorem claimBody_of_head (head : tables.heads.find state.fields.subject = some (headRow state))
    (active : state.fields.status = .active) (clock : 0 ≤ receipt.executionEpoch)
    (bound : receipt.executionEpoch < 2 ^ 63)
    (fresh : tables.claims.find receipt.permitDigest = none) :
    ∃ after, claimBody state receipt tables = .ok after := by
  obtain ⟨claims, inserted⟩ := insert_of_absent fresh
    ⟨state.fields.subject, receipt.stateDigest, receipt.snapshotDigest,
      receipt.authorizationDecisionDigest, receipt.evidenceDigest, receipt.requestDigest,
      receipt.operation, receipt.executionEpoch, receipt.receiptDigest⟩
  have status : ¬ ((headRow state).stateEpoch ≠ state.fields.epoch ∨
      (headRow state).stateStatus ≠ "active") := by
    rintro (differs | inactive)
    · exact differs rfl
    · exact inactive (congrArg Status.text active)
  unfold claimBody
  rw [head]
  refine ⟨{ tables with claims }, (bind_of_ok (refuse_of_not (not_not.mpr rfl))).trans
    ((bind_of_ok (refuse_of_not status)).trans ((bind_of_ok (refuse_of_not (not_not.mpr rfl))).trans
      ((bind_of_ok (sqlInteger_of_range clock bound)).trans ?_)))⟩
  rw [inserted]

theorem AuthorizationState.epoch_nonneg (state : AuthorizationState library) :
    0 ≤ state.fields.epoch := by
  have admitted := state.admitted
  unfold StateFields.postInit at admitted
  obtain ⟨_, -, admitted⟩ := bind_eq_ok admitted
  obtain ⟨_, -, admitted⟩ := bind_eq_ok admitted
  obtain ⟨_, -, admitted⟩ := bind_eq_ok admitted
  obtain ⟨_, clock, -⟩ := bind_eq_ok admitted
  exact (epochOf_eq_ok clock).2

/-! ## Runs of clients -/

variable (library)

/-- The tables and what the clients of a store have prepared. -/
abbrev StoreSystem : Type := Clients StoreTables (StorePrepared library)

abbrev StoreMoment : Type :=
  Database.Event StoreTables (StoreCall library) (StorePrepared library) StoreAnswer String

/-- Empty tables and no clients. -/
def StoreSystem.start : StoreSystem library := ⟨.empty, []⟩

variable {library}

def StoreCall.states : StoreCall library → List (AuthorizationState library)
  | .registerInitial state => [state]
  | .commitTransition previous next _ => [previous, next]
  | .claimExecution arguments => [arguments.state]

def StatesShown (events : List (ClientEvent (StoreCall library)))
    (state : AuthorizationState library) : Prop :=
  ∃ call, Database.Presented events call ∧ state ∈ call.states

/-- The head digests in the tables. -/
def StoreSystem.headsOf (system : StoreSystem library) : Heads :=
  fun subject => (system.tables.heads.find subject).map HeadRow.stateDigest

/-- What is known of a call that left something for a transaction. -/
def PreparedBy (primitives : Primitives) (call : StoreCall library) : StorePrepared library → Prop
  | .register state => call = .registerInitial state ∧ state.Sealed ∧
      state.fields.previousStateDigest = none ∧ state.fields.status = .active
  | .commit previous next transition =>
    call = .commitTransition previous next transition ∧ Linking previous next transition
  | .claim state snapshot receipt => ∃ arguments, call = .claimExecution arguments ∧
      arguments.state = state ∧ state.Sealed ∧ receipt = arguments.receipt primitives snapshot

variable {primitives : Primitives}

theorem preparedBy_of_ok {call : StoreCall library}
    (passed : (authorizationStore library primitives).prepare call = .ok prepared) :
    PreparedBy primitives call prepared := by
  cases call with
  | registerInitial state =>
    obtain ⟨rfl, sealing, first, active⟩ := prepareRegister_eq_ok passed
    exact ⟨rfl, sealing, first, active⟩
  | commitTransition previous next transition =>
    obtain ⟨rfl, linking⟩ := prepareCommit_eq_ok passed
    exact ⟨rfl, linking⟩
  | claimExecution arguments =>
    obtain ⟨sealing, snapshot, rfl⟩ := prepareClaim_eq_ok passed
    exact ⟨arguments, rfl, rfl, sealing, rfl⟩

theorem headsOf_insert {heads : Table String HeadRow}
    (inserted : tables.heads.insert state.fields.subject (headRow state) = some heads) :
    (fun subject => (heads.find subject).map HeadRow.stateDigest) =
      Function.update (fun subject => (tables.heads.find subject).map HeadRow.stateDigest)
        state.fields.subject (some state.fields.stateDigest) := by
  funext subject
  rw [find_insert inserted, Function.update_apply]
  split <;> rfl

theorem headsOf_update
    {row : HeadRow} (found : tables.heads.find previous.fields.subject = some row)
    (current : row.stateDigest = previous.fields.stateDigest) :
    (fun subject => ((tables.heads.update previous.fields.subject (isCurrent previous)
        fun _ => headRow next).find subject).map HeadRow.stateDigest) =
      Function.update (fun subject => (tables.heads.find subject).map HeadRow.stateDigest)
        previous.fields.subject (some next.fields.stateDigest) := by
  funext subject
  rw [Function.update_apply]
  split
  · rename_i same
    rw [same, find_update_self found (decide_eq_true current)]
    rfl
  · rename_i apart
    rw [find_update_of_ne apart]

/-- At the moment a transition from one state to the next is committed. -/
def Committed (primitives : Primitives) (moment : StoreMoment library)
    (previous next : AuthorizationState library) : Prop :=
  ∃ transition, Database.Ran (authorizationStore library primitives) moment
    (.commit previous next transition) .done

/-- At the moment a claim on the state succeeds. -/
def Claimed (primitives : Primitives) (moment : StoreMoment library)
    (state : AuthorizationState library) (snapshot : ExecutionAuthorizationSnapshot)
    (receipt : DurableExecutionClaimReceipt) : Prop :=
  Database.Ran (authorizationStore library primitives) moment (.claim state snapshot receipt)
    (.claimed snapshot receipt)

variable {answer : StoreAnswer}

theorem body_register (ran : (authorizationStore library primitives).body (.register state)
      tables = .ok (after, answer)) : registerBody state tables = .ok after := by
  obtain ⟨result, body, same⟩ := map_eq_ok ran
  cases same
  exact body

theorem body_commit
    (ran : (authorizationStore library primitives).body (.commit previous next transition) tables =
      .ok (after, answer)) :
    commitBody previous next transition tables = .ok after ∧ answer = .done := by
  obtain ⟨result, body, same⟩ := map_eq_ok ran
  cases same
  exact ⟨body, rfl⟩

variable {snapshot : ExecutionAuthorizationSnapshot}

theorem body_claim
    (ran : (authorizationStore library primitives).body (.claim state snapshot receipt) tables =
      .ok (after, answer)) :
    claimBody state receipt tables = .ok after ∧ answer = .claimed snapshot receipt := by
  obtain ⟨result, body, same⟩ := map_eq_ok ran
  cases same
  exact ⟨body, rfl⟩

theorem body_claim_of_ok (body : claimBody state receipt tables = .ok after)
    (snapshot : ExecutionAuthorizationSnapshot) :
    (authorizationStore library primitives).body (.claim state snapshot receipt) tables =
      .ok (after, .claimed snapshot receipt) :=
  congrArg (Except.map fun after => (after, StoreAnswer.claimed snapshot receipt)) body

variable {events : List (ClientEvent (StoreCall library))} {moment : StoreMoment library}

section

variable (member : moment ∈ trace (authorizationStore library primitives).clientStep (StoreSystem.start library) events)

include member

/-- Everything a moment of a run can do to the store. -/
theorem storeMoment_cases :
    (moment.after.tables = moment.before.tables ∧ ∀ answer, moment.answer ≠ some (.ok answer)) ∨
      (∃ state, StatesShown events state ∧ state.Sealed ∧
        state.fields.previousStateDigest = none ∧ state.fields.status = .active ∧
        registerBody state moment.before.tables = .ok moment.after.tables) ∨
      (∃ previous next, Committed primitives moment previous next) ∨
      ∃ state snapshot receipt, Claimed primitives moment state snapshot receipt := by
  rcases Database.moment_cases member with unchanged | ⟨prepared, answer, ran, -⟩
  · exact .inl unchanged
  · obtain ⟨call, presented, passed⟩ := Database.ran_presented member ran
    have known := preparedBy_of_ok passed
    cases prepared with
    | register state =>
      obtain ⟨rfl, sealing, first, active⟩ := known
      obtain ⟨client, -, -, body⟩ := ran
      exact .inr (.inl ⟨state, ⟨_, presented, mem_singleton_self _⟩, sealing, first, active,
        body_register body⟩)
    | commit previous next transition =>
      obtain ⟨client, event, found, body⟩ := ran
      obtain ⟨-, rfl⟩ := body_commit body
      exact .inr (.inr (.inl ⟨previous, next, transition, client, event, found, body⟩))
    | claim state snapshot receipt =>
      obtain ⟨client, event, found, body⟩ := ran
      obtain ⟨-, rfl⟩ := body_claim body
      exact .inr (.inr (.inr ⟨state, snapshot, receipt, client, event, found, body⟩))

theorem committed_cases (committed : Committed primitives moment previous next) :
    ∃ transition, StatesShown events previous ∧ StatesShown events next ∧
      Linking previous next transition ∧
      commitBody previous next transition moment.before.tables = .ok moment.after.tables := by
  obtain ⟨transition, ran⟩ := committed
  obtain ⟨call, presented, passed⟩ := Database.ran_presented member ran
  obtain ⟨rfl, linking⟩ := preparedBy_of_ok passed
  obtain ⟨client, -, -, body⟩ := ran
  exact ⟨transition, ⟨_, presented, mem_cons_self⟩,
    ⟨_, presented, mem_cons_of_mem _ (mem_singleton_self _)⟩, linking,
    (body_commit body).1⟩

theorem claimed_cases (claimed : Claimed primitives moment state snapshot receipt) :
    StatesShown events state ∧ state.Sealed ∧ receipt.stateDigest = state.fields.stateDigest ∧
      claimBody state receipt moment.before.tables = .ok moment.after.tables := by
  obtain ⟨call, presented, passed⟩ := Database.ran_presented member claimed
  obtain ⟨arguments, rfl, rfl, sealing, rfl⟩ := preparedBy_of_ok passed
  obtain ⟨client, -, -, body⟩ := claimed
  exact ⟨⟨_, presented, mem_singleton_self _⟩, sealing, rfl, (body_claim body).1⟩

end

theorem store_keepsHeads (events : List (ClientEvent (StoreCall library))) :
    KeepsHeads (StatesShown events) StoreSystem.headsOf
      (authorizationStore library primitives).clientStep (StoreSystem.start library) events
      (Committed primitives) where
  empty := rfl
  outcome := by
    intro moment member
    unfold StoreSystem.headsOf
    rcases storeMoment_cases member with ⟨same, -⟩ | ⟨state, shown, sealing, first, active, body⟩ |
      commit | ⟨state, snapshot, receipt, claimed⟩
    · exact .inl (by rw [same])
    · obtain ⟨inserted, -⟩ := registerBody_eq_ok body
      refine .inr (.inl ⟨state, shown, sealing, first, active, ?_, headsOf_insert inserted⟩)
      rw [(insert_eq_some inserted).1]
      rfl
    · exact .inr (.inr commit)
    · obtain ⟨-, -, -, body⟩ := claimed_cases member claimed
      exact .inl (by rw [(claimBody_eq_ok body).2.2])
  moves := by
    intro moment member previous next committed
    obtain ⟨transition, shown, shown', linking, body⟩ := committed_cases member committed
    obtain ⟨⟨row, found, current⟩, -, -, updated, -⟩ := commitBody_eq_ok body
    refine ⟨shown, shown', linking.sealing, linking.sealing', linking.subject, linking.named, ?_, ?_⟩
    · unfold StoreSystem.headsOf
      rw [found, map_some, current]
    · unfold StoreSystem.headsOf
      rw [updated]
      exact headsOf_update found current

/-- The transaction the moment runs commits a transition from one state to the next. -/
def CanCommit (moment : StoreMoment library) (previous next : AuthorizationState library) : Prop :=
  ∃ client transition, moment.call = .transact client true ∧
    moment.before.pending.lookup client = some (.commit previous next transition) ∧
    Committable moment.before.tables previous next transition

theorem committed_iff (member : moment ∈ trace (authorizationStore library primitives).clientStep
    (StoreSystem.start library) events) :
    Committed primitives moment previous next ↔ CanCommit moment previous next := by
  constructor
  · rintro ⟨transition, client, event, found, body⟩
    obtain ⟨head, epoch, fresh, -⟩ := commitBody_eq_ok (body_commit body).1
    exact ⟨client, transition, event, found, head, epoch, fresh⟩
  · rintro ⟨client, transition, event, found, committable⟩
    obtain ⟨call, -, passed⟩ :=
      Database.pending_presented .empty moment member _ (Database.mem_of_lookup found)
    obtain ⟨-, linking⟩ := preparedBy_of_ok passed
    obtain ⟨after, body⟩ := commitBody_of_committable committable linking
      (AuthorizationState.epoch_nonneg next)
    have ran : (authorizationStore library primitives).body (.commit previous next transition)
        moment.before.tables = .ok (after, .done) := congrArg (Except.map _) body
    exact ⟨transition, Database.ran_of_body member event found ran⟩

end Store

end Koschei.Authorization
