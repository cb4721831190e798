import Koschei.Execution.Universe
import Koschei.Lib.Table
import Koschei.Lib.Transactions

/-!
# The atomic execution coordinator

`AtomicExecutionCoordinator` keeps, for each activation plan, the current epoch
and whether it is frozen; the tombstones of epochs; and the claims of requests.
Each of its five operations checks its arguments and then runs one transaction.

That a plan is frozen exactly while its current epoch is tombstoned is stored
nowhere. It is an invariant of the transactions, together with the bound of the
tombstones by the current epoch.
-/

namespace Koschei.Execution

open Lib Authorization

/-! ## Records -/

/-- `AtomicClaim`. -/
structure AtomicClaim where
  requestDigest : String
  activationPlanDigest : String
  epoch : Int
  proofDigest : String
  state : String
  digest : String
  deriving DecidableEq

/-- `ExecutionEpochHead`. -/
structure ExecutionEpochHead where
  activationPlanDigest : String
  currentEpoch : Int
  frozen : Bool
  causeDigest : String
  digest : String
  deriving DecidableEq

section Digests

variable (primitives : Primitives)

/-- `_head_digest`. -/
def headDigest (plan : String) (epoch : Int) (frozen : Bool) (cause : String) : String :=
  primitives.sha256 ("koschei.native-sigil-atomic-execution-coordinator/v1\x00head\x00" ++
    lines [plan, toString epoch, if frozen then "1" else "0", cause])

/-- `_claim_digest`. -/
def claimDigest (request plan : String) (epoch : Int) (proof state : String) : String :=
  primitives.sha256 ("koschei.native-sigil-atomic-execution-coordinator/v1\x00claim\x00" ++
    lines [request, plan, toString epoch, proof, state])

/-- The proof digest of a finalized claim. -/
def terminalProof (proof decision : String) : String :=
  primitives.sha256 ("koschei.native-sigil-atomic-execution-coordinator/v1\x00finality\x00" ++
    (proof ++ "\n" ++ decision))

end Digests

/-- A row of `execution_epoch_heads`; the plan is its key. -/
structure EpochHeadRow where
  currentEpoch : Int
  frozen : Bool
  causeDigest : String
  recordDigest : String
  deriving DecidableEq

/-- A row of `execution_claims`; the request digest is its key. -/
structure AtomicClaimRow where
  activationPlanDigest : String
  epoch : Int
  proofDigest : String
  state : String
  recordDigest : String
  deriving DecidableEq

/-- The tables of the coordinator. A tombstone has a plan and an epoch as its key, and its cause. -/
structure CoordinatorTables where
  heads : Table String EpochHeadRow
  tombstones : Table (String × Int) String
  claims : Table String AtomicClaimRow

def CoordinatorTables.empty : CoordinatorTables := ⟨.empty, .empty, .empty⟩

/-! ## Calls and their checks -/

/-- The five operations. -/
inductive CoordinatorCall where
  | initializePlan (state : UniverseState) (causeDigest : String)
  | atomicClaim (request : CanonicalEffectRequest) (proofDigest : String)
  | finalizeClaim (claim : AtomicClaim) (state decisionDigest : String)
  | applyNuclearContainment (previous contained : UniverseState)
      (receipt : NuclearContainmentReceipt)
  | advanceRebirth (previous fresh : UniverseState) (receipt : RebirthReceipt)

/-- What is left for the transaction of a call. -/
inductive CoordinatorPrepared where
  | initializePlan (plan : String) (epoch : Int) (cause : String)
  | claim (plan : String) (request : CanonicalEffectRequest) (proof : String)
  | finalize (claim : AtomicClaim) (proof state : String)
  | contain (plan : String) (receipt : NuclearContainmentReceipt)
  | rebirth (receipt : RebirthReceipt)

inductive CoordinatorAnswer where
  | head (head : ExecutionEpochHead)
  | claim (claim : AtomicClaim)

def finalStates : List String := ["COMMITTED", "REJECTED", "CONTAINED", "UNCERTAIN"]

/-- `_request_activation_plan`. -/
def requestActivationPlan (request : CanonicalEffectRequest) : Checked String :=
  if request.activationPlanDigest ≠ "" then .ok request.activationPlanDigest
  else if request.universePlanDigest ≠ "" then .ok request.universePlanDigest
  else .error "request has no activation-plan identity"

section Coordinator

variable (primitives : Primitives)

/-- The checks before the transactions. -/
def prepareCall : CoordinatorCall → Checked CoordinatorPrepared
  | .initializePlan state causeDigest =>
    match (state.sigils.map SigilLifecycle.epoch).dedup with
    | [epoch] => .ok (.initializePlan state.activationPlanDigest epoch causeDigest)
    | _ => .error "split-epoch Universe cannot initialize execution coordinator"
  | .atomicClaim request proofDigest => do
    refuse (proofDigest = "") "atomic claim requires proof digest"
    let plan ← requestActivationPlan request
    .ok (.claim plan request proofDigest)
  | .finalizeClaim claim state decisionDigest => do
    refuse (state ∉ finalStates) ("invalid claim final state: " ++ state)
    refuse (decisionDigest = "") "claim finality requires decision digest"
    .ok (.finalize claim (terminalProof primitives claim.proofDigest decisionDigest) state)
  | .applyNuclearContainment previous contained receipt => do
    requireNuclearContainment primitives previous contained receipt
    .ok (.contain previous.activationPlanDigest receipt)
  | .advanceRebirth previous fresh receipt => do
    requireRebirthReceipt primitives previous fresh receipt
    .ok (.rebirth receipt)

/-! ## Transactions -/

/-- The transaction of `initialize`. A failed check and a key that is there are one error. -/
def initializeBody (plan : String) (epoch : Int) (cause : String) (tables : CoordinatorTables) :
    Checked (CoordinatorTables × ExecutionEpochHead) := do
  let digest := headDigest primitives plan epoch false cause
  let bound ← sqlInteger epoch
  refuse (bound < 1) "execution coordinator already initialized"
  match tables.heads.insert plan ⟨bound, false, cause, digest⟩ with
  | none => .error "execution coordinator already initialized"
  | some heads => .ok ({ tables with heads }, ⟨plan, epoch, false, cause, digest⟩)

/-- The transaction of `atomic_claim`. -/
def claimBody (plan : String) (request : CanonicalEffectRequest) (proof : String)
    (tables : CoordinatorTables) : Checked (CoordinatorTables × AtomicClaim) :=
  match tables.heads.find plan with
  | none => .error "no durable execution authority for request Universe"
  | some head => do
    refuse head.frozen "Universe execution boundary is frozen"
    refuse (request.epoch ≠ head.currentEpoch)
      ("request epoch is not current: request=" ++ toString request.epoch ++ " current=" ++
        toString head.currentEpoch)
    let epoch ← sqlInteger request.epoch
    refuse (tables.tombstones.find (plan, epoch) ≠ none)
      "request belongs to a tombstoned epoch"
    let digest := claimDigest primitives request.digest plan request.epoch proof "CLAIMED"
    refuse (epoch < 1) "privileged request already claimed or consumed"
    match tables.claims.insert request.digest ⟨plan, epoch, proof, "CLAIMED", digest⟩ with
    | none => .error "privileged request already claimed or consumed"
    | some claims =>
      .ok ({ tables with claims }, ⟨request.digest, plan, request.epoch, proof, "CLAIMED", digest⟩)

/-- A claim that is not finalized. -/
def isOpen (row : AtomicClaimRow) : Bool := decide (row.state = "CLAIMED")

/-- The transaction of `finalize_claim`. -/
def finalizeBody (claim : AtomicClaim) (proof state : String) (tables : CoordinatorTables) :
    Checked (CoordinatorTables × AtomicClaim) :=
  let digest := claimDigest primitives claim.requestDigest claim.activationPlanDigest claim.epoch
    proof state
  match tables.claims.find claim.requestDigest with
  | none => .error "claim is missing, changed, or already finalized"
  | some row => do
    refuse (row.state ≠ "CLAIMED" ∨ row.proofDigest ≠ claim.proofDigest)
      "claim is missing, changed, or already finalized"
    let claims := tables.claims.update claim.requestDigest isOpen fun row =>
      { row with proofDigest := proof, state := state, recordDigest := digest }
    .ok ({ tables with claims },
      ⟨claim.requestDigest, claim.activationPlanDigest, claim.epoch, proof, state, digest⟩)

def isHeadAt (epoch : Int) (frozen : Bool) (row : EpochHeadRow) : Bool :=
  decide (row.currentEpoch = epoch) && row.frozen == frozen

/-- The transaction of `apply_nuclear_containment`. -/
def containBody (plan : String) (receipt : NuclearContainmentReceipt) (tables : CoordinatorTables) :
    Checked (CoordinatorTables × ExecutionEpochHead) :=
  match tables.heads.find plan with
  | none => .error "execution coordinator is not initialized"
  | some head => do
    refuse (head.currentEpoch ≠ receipt.epoch)
      "nuclear receipt does not match durable current epoch"
    refuse head.frozen "Universe execution boundary is already frozen"
    let epoch ← sqlInteger receipt.epoch
    refuse (epoch < 1) "CHECK constraint failed: epoch >= 1"
    match tables.tombstones.insert (plan, epoch) receipt.digest with
    | none =>
      .error ("UNIQUE constraint failed: execution_epoch_tombstones.activation_plan_digest, " ++
        "execution_epoch_tombstones.epoch")
    | some tombstones => do
      let digest := headDigest primitives plan receipt.epoch true receipt.digest
      let heads := tables.heads.update plan (isHeadAt epoch false) fun row =>
        { row with frozen := true, causeDigest := receipt.digest, recordDigest := digest }
      refuse (tables.heads.rowcount plan (isHeadAt epoch false) ≠ 1)
        "concurrent nuclear containment rejected"
      .ok ({ tables with heads, tombstones }, ⟨plan, receipt.epoch, true, receipt.digest, digest⟩)

/-- The transaction of `advance_rebirth`. -/
def rebirthBody (receipt : RebirthReceipt) (tables : CoordinatorTables) :
    Checked (CoordinatorTables × ExecutionEpochHead) :=
  let plan := receipt.activationPlanDigest
  match tables.heads.find plan with
  | none => .error "execution coordinator is not initialized"
  | some head => do
    refuse (head.currentEpoch ≠ receipt.previousEpoch ∨ head.frozen = false)
      "rebirth requires the frozen previous durable epoch"
    let previous ← sqlInteger receipt.previousEpoch
    refuse (tables.tombstones.find (plan, previous) = none)
      "rebirth requires previous epoch tombstone"
    let digest := headDigest primitives plan receipt.nextEpoch false receipt.digest
    let next ← sqlInteger receipt.nextEpoch
    refuse (next < 1) "CHECK constraint failed: current_epoch >= 1"
    let heads := tables.heads.update plan (isHeadAt previous true) fun _ =>
      ⟨next, false, receipt.digest, digest⟩
    refuse (tables.heads.rowcount plan (isHeadAt previous true) ≠ 1)
      "concurrent or non-monotonic rebirth rejected"
    .ok ({ tables with heads }, ⟨plan, receipt.nextEpoch, false, receipt.digest, digest⟩)

/-- `AtomicExecutionCoordinator`. -/
def coordinator :
    Database CoordinatorTables CoordinatorCall CoordinatorPrepared CoordinatorAnswer String where
  prepare := prepareCall primitives
  body
    | .initializePlan plan epoch cause, tables =>
      (initializeBody primitives plan epoch cause tables).map fun done => (done.1, .head done.2)
    | .claim plan request proof, tables =>
      (claimBody primitives plan request proof tables).map fun done => (done.1, .claim done.2)
    | .finalize claim proof state, tables =>
      (finalizeBody primitives claim proof state tables).map fun done => (done.1, .claim done.2)
    | .contain plan receipt, tables =>
      (containBody primitives plan receipt tables).map fun done => (done.1, .head done.2)
    | .rebirth receipt, tables =>
      (rebirthBody primitives receipt tables).map fun done => (done.1, .head done.2)
  unavailable := "database is locked"

/-! ## What the transactions do -/

variable {primitives} {tables after : CoordinatorTables} {answer : CoordinatorAnswer}

variable {plan proof : String}

theorem initializeBody_eq_ok {epoch : Int} {cause : String}
    (answered : (coordinator primitives).body (.initializePlan plan epoch cause) tables =
      .ok (after, answer)) :
    (∃ row, row.frozen = false ∧ tables.heads.insert plan row = some after.heads) ∧
      after.tombstones = tables.tombstones ∧ after.claims = tables.claims := by
  obtain ⟨done, ran, same⟩ : ∃ done, initializeBody primitives plan epoch cause tables = .ok done ∧
      (done.1, CoordinatorAnswer.head done.2) = (after, answer) := map_eq_ok answered
  cases same
  unfold initializeBody at ran
  obtain ⟨bound, -, ran⟩ := bind_eq_ok ran
  obtain ⟨_, -, ran⟩ := bind_eq_ok ran
  split at ran
  · cases ran
  · rename_i heads inserted
    cases ran
    exact ⟨⟨_, rfl, inserted⟩, rfl, rfl⟩

theorem claimBody_eq_ok {request : CanonicalEffectRequest}
    (answered : (coordinator primitives).body (.claim plan request proof) tables =
      .ok (after, answer)) :
    (∃ head, tables.heads.find plan = some head ∧ head.frozen = false ∧
        head.currentEpoch = request.epoch) ∧
      tables.tombstones.find (plan, request.epoch) = none ∧
      (∃ row, row.activationPlanDigest = plan ∧ row.epoch = request.epoch ∧
        tables.claims.insert request.digest row = some after.claims) ∧
      after.heads = tables.heads ∧ after.tombstones = tables.tombstones := by
  obtain ⟨done, ran, same⟩ : ∃ done, claimBody primitives plan request proof tables = .ok done ∧
      (done.1, CoordinatorAnswer.claim done.2) = (after, answer) := map_eq_ok answered
  cases same
  unfold claimBody at ran
  split at ran
  · cases ran
  · rename_i head found
    obtain ⟨_, open_, ran⟩ := bind_eq_ok ran
    obtain ⟨_, current, ran⟩ := bind_eq_ok ran
    obtain ⟨epoch, bound, ran⟩ := bind_eq_ok ran
    obtain ⟨_, alive, ran⟩ := bind_eq_ok ran
    obtain ⟨_, -, ran⟩ := bind_eq_ok ran
    have sameEpoch := sqlInteger_eq_ok bound
    subst sameEpoch
    split at ran
    · cases ran
    · rename_i claims inserted
      cases ran
      have unfrozen : head.frozen = false := by simpa using refuse_eq_ok open_
      exact ⟨⟨head, found, unfrozen, (not_not.mp (refuse_eq_ok current)).symm⟩,
        not_not.mp (refuse_eq_ok alive), ⟨_, rfl, rfl, inserted⟩, rfl, rfl⟩

theorem finalizeBody_eq_ok {claim : AtomicClaim} {proof state : String}
    (answered : (coordinator primitives).body (.finalize claim proof state) tables =
      .ok (after, answer)) :
    (∃ row, tables.claims.find claim.requestDigest = some row ∧ row.state = "CLAIMED") ∧
      (∃ digest, after.claims = tables.claims.update claim.requestDigest isOpen fun row =>
        { row with proofDigest := proof, state := state, recordDigest := digest }) ∧
      after.heads = tables.heads ∧ after.tombstones = tables.tombstones := by
  obtain ⟨done, ran, same⟩ : ∃ done, finalizeBody primitives claim proof state tables = .ok done ∧
      (done.1, CoordinatorAnswer.claim done.2) = (after, answer) := map_eq_ok answered
  cases same
  unfold finalizeBody at ran
  dsimp only at ran
  split at ran
  · cases ran
  · rename_i row found
    obtain ⟨_, opened, ran⟩ := bind_eq_ok ran
    cases ran
    exact ⟨⟨row, found, not_not.mp (not_or.mp (refuse_eq_ok opened)).1⟩, ⟨_, rfl⟩, rfl, rfl⟩

theorem containBody_eq_ok {receipt : NuclearContainmentReceipt}
    (answered : (coordinator primitives).body (.contain plan receipt) tables = .ok (after, answer)) :
    (∃ head, tables.heads.find plan = some head ∧ head.frozen = false ∧
        head.currentEpoch = receipt.epoch) ∧
      tables.tombstones.insert (plan, receipt.epoch) receipt.digest = some after.tombstones ∧
      (∃ digest, after.heads = tables.heads.update plan (isHeadAt receipt.epoch false) fun row =>
        { row with frozen := true, causeDigest := receipt.digest, recordDigest := digest }) ∧
      after.claims = tables.claims := by
  obtain ⟨done, ran, same⟩ : ∃ done, containBody primitives plan receipt tables = .ok done ∧
      (done.1, CoordinatorAnswer.head done.2) = (after, answer) := map_eq_ok answered
  cases same
  unfold containBody at ran
  split at ran
  · cases ran
  · rename_i head found
    obtain ⟨_, current, ran⟩ := bind_eq_ok ran
    obtain ⟨_, open_, ran⟩ := bind_eq_ok ran
    obtain ⟨epoch, bound, ran⟩ := bind_eq_ok ran
    obtain ⟨_, -, ran⟩ := bind_eq_ok ran
    have sameEpoch := sqlInteger_eq_ok bound
    subst sameEpoch
    split at ran
    · cases ran
    · rename_i tombstones inserted
      obtain ⟨_, -, ran⟩ := bind_eq_ok ran
      cases ran
      have unfrozen : head.frozen = false := by simpa using refuse_eq_ok open_
      exact ⟨⟨head, found, unfrozen, not_not.mp (refuse_eq_ok current)⟩, inserted, ⟨_, rfl⟩, rfl⟩

theorem rebirthBody_eq_ok {receipt : RebirthReceipt}
    (answered : (coordinator primitives).body (.rebirth receipt) tables = .ok (after, answer)) :
    (∃ head, tables.heads.find receipt.activationPlanDigest = some head ∧ head.frozen = true ∧
        head.currentEpoch = receipt.previousEpoch) ∧
      tables.tombstones.find (receipt.activationPlanDigest, receipt.previousEpoch) ≠ none ∧
      (∃ row, row.frozen = false ∧ row.currentEpoch = receipt.nextEpoch ∧
        after.heads = tables.heads.update receipt.activationPlanDigest
          (isHeadAt receipt.previousEpoch true) fun _ => row) ∧
      after.tombstones = tables.tombstones ∧ after.claims = tables.claims := by
  obtain ⟨done, ran, same⟩ : ∃ done, rebirthBody primitives receipt tables = .ok done ∧
      (done.1, CoordinatorAnswer.head done.2) = (after, answer) := map_eq_ok answered
  cases same
  unfold rebirthBody at ran
  dsimp only at ran
  split at ran
  · cases ran
  · rename_i head found
    obtain ⟨_, current, ran⟩ := bind_eq_ok ran
    obtain ⟨previous, bound, ran⟩ := bind_eq_ok ran
    obtain ⟨_, buried, ran⟩ := bind_eq_ok ran
    obtain ⟨next, bound', ran⟩ := bind_eq_ok ran
    obtain ⟨_, -, ran⟩ := bind_eq_ok ran
    obtain ⟨_, -, ran⟩ := bind_eq_ok ran
    have samePrevious := sqlInteger_eq_ok bound
    subst samePrevious
    have sameNext := sqlInteger_eq_ok bound'
    subst sameNext
    cases ran
    have checks := not_or.mp (refuse_eq_ok current)
    have frozen : head.frozen = true := by simpa using checks.2
    exact ⟨⟨head, found, frozen, not_not.mp checks.1⟩, refuse_eq_ok buried, ⟨_, rfl, rfl, rfl⟩, rfl,
      rfl⟩

/-- What is known of what is left for a transaction: a claim is finalized in a final state, and a
rebirth goes to the next epoch. -/
def PreparedWell : CoordinatorPrepared → Prop
  | .finalize _ _ state => state ∈ finalStates
  | .rebirth receipt => receipt.nextEpoch = receipt.previousEpoch + 1
  | _ => True

theorem preparedWell_of_ok {call : CoordinatorCall} {prepared : CoordinatorPrepared}
    (passed : (coordinator primitives).prepare call = .ok prepared) : PreparedWell prepared := by
  have prepares : prepareCall primitives call = .ok prepared := passed
  cases call with
  | initializePlan state cause =>
    unfold prepareCall at prepares
    dsimp only at prepares
    split at prepares
    · cases prepares
      trivial
    · cases prepares
  | atomicClaim request proof =>
    obtain ⟨_, -, prepares⟩ := bind_eq_ok prepares
    obtain ⟨plan, -, prepares⟩ := bind_eq_ok prepares
    cases prepares
    trivial
  | finalizeClaim claim state decision =>
    obtain ⟨_, final, prepares⟩ := bind_eq_ok prepares
    obtain ⟨_, -, prepares⟩ := bind_eq_ok prepares
    cases prepares
    have known : state ∈ finalStates := not_not.mp (refuse_eq_ok final)
    exact known
  | applyNuclearContainment previous contained receipt =>
    obtain ⟨_, -, prepares⟩ := bind_eq_ok prepares
    cases prepares
    trivial
  | advanceRebirth previous fresh receipt =>
    obtain ⟨_, verified, prepares⟩ := bind_eq_ok prepares
    cases prepares
    exact requireRebirthReceipt_eq_ok verified

end Coordinator

end Koschei.Execution
