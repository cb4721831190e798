import Koschei.Recovery.Histories
import Koschei.Recovery.Quorum
import Koschei.Lib.Runs

/-!
# Fencing of recovery writers

`library_recovery_fencing_v0.py` issues leases of a checkpoint to writers, with
epochs that increase, and permits a write under the lease with the current
token. A token is the hash of the terms of its lease, and a lease has a digest of
its terms; a permit is given without looking at either, so the terms that are
presented need not be the terms that were issued.
-/

namespace Koschei.Recovery

open Lib

/-! ## Leases -/

/-- `RecoveryLeaseV0`. -/
structure RecoveryLeaseV0 where
  writerId : String
  graphDigest : Bytes
  recoveryPlanDigest : Bytes
  checkpointDigest : Bytes
  epoch : Int
  issuedTick : Int
  expiresTick : Int
  fencingToken : Bytes
  leaseDigest : Bytes
  authority : Bool
  deriving DecidableEq

/-- `RecoveryFenceStateV0`. -/
structure RecoveryFenceStateV0 where
  graphDigest : Bytes
  recoveryPlanDigest : Bytes
  currentEpoch : Int
  highestFencingTokenDigest : Bytes
  stateDigest : Bytes
  authority : Bool
  deriving DecidableEq

/-- `RecoveryWritePermitV0`. -/
structure RecoveryWritePermitV0 where
  writerId : String
  epoch : Int
  checkpointDigest : Bytes
  fencingTokenDigest : Bytes
  operationDigest : Bytes
  permitDigest : Bytes
  allowed : Bool
  authority : Bool
  deriving DecidableEq

/-- The arguments of `issue_recovery_lease_v0` but the state. -/
structure LeaseRequest where
  checkpoint : RecoveryCheckpointV0
  writerId : String
  nextEpoch : Int
  issuedTick : Int
  expiresTick : Int
  entropyDigest : Bytes

/-- The arguments of `authorize_recovery_write_v0` but the state. -/
structure WriteRequest where
  checkpoint : RecoveryCheckpointV0
  lease : RecoveryLeaseV0
  currentTick : Int
  operationDigest : Bytes

def fencingContext : Bytes := encode "koschei.library-recovery-fencing/v0\x00"

/-- A checkpoint that is durable, without a split brain and without authority. -/
def RecoveryCheckpointV0.Usable (checkpoint : RecoveryCheckpointV0) : Prop :=
  ¬ (checkpoint.authority ∨ ¬ checkpoint.durable ∨ checkpoint.splitBrain)

instance (checkpoint : RecoveryCheckpointV0) : Decidable checkpoint.Usable := by
  unfold RecoveryCheckpointV0.Usable
  infer_instance

section Hashes

variable (sha3 : Bytes → Bytes)

def fenceStateDigest (graph plan epoch highest : Bytes) : Bytes :=
  sha3 (fencingContext ++ encode "state\x00" ++ graph ++ plan ++ epoch ++ highest)

/-- `make_recovery_fence_state_v0`. -/
def makeRecoveryFenceStateV0 (checkpoint : RecoveryCheckpointV0) (currentEpoch : Int)
    (highest : Option Bytes) : Guarded RecoveryFenceStateV0 := do
  raiseIf (¬ checkpoint.Usable)
    (Fault.fencing "durable split-brain-free recovery checkpoint required")
  raiseIf (currentEpoch < 0) (Fault.fencing "current_epoch must be non-negative")
  let highest ← match highest with
    | none => .ok zeros
    | some digest => digest32 .fencing digest "highest_fencing_token_digest"
  let epoch ← intBytes 8 currentEpoch
  .ok {
    graphDigest := checkpoint.graphDigest
    recoveryPlanDigest := checkpoint.recoveryPlanDigest
    currentEpoch := currentEpoch
    highestFencingTokenDigest := highest
    stateDigest :=
      fenceStateDigest sha3 checkpoint.graphDigest checkpoint.recoveryPlanDigest epoch highest
    authority := false }

/-- `issue_recovery_lease_v0`. -/
def issueRecoveryLeaseV0 (state : RecoveryFenceStateV0) (request : LeaseRequest) :
    Guarded (RecoveryLeaseV0 × RecoveryFenceStateV0) := do
  let checkpoint := request.checkpoint
  raiseIf (¬ checkpoint.Usable)
    (Fault.fencing "durable split-brain-free recovery checkpoint required")
  raiseIf state.authority (Fault.fencing "authority-free recovery fence state required")
  raiseIf (checkpoint.graphDigest ≠ state.graphDigest ∨
      checkpoint.recoveryPlanDigest ≠ state.recoveryPlanDigest)
    (Fault.fencing "checkpoint/fence-state drift detected")
  raiseIf (request.writerId = "" ∨ 96 < request.writerId.length)
    (Fault.fencing "invalid writer identity")
  raiseIf (request.nextEpoch ≤ state.currentEpoch)
    (Fault.fencing "lease epoch must advance monotonically")
  raiseIf (request.issuedTick < 0 ∨ request.expiresTick ≤ request.issuedTick)
    (Fault.fencing "invalid lease lifetime")
  raiseIf (1024 < request.expiresTick - request.issuedTick)
    (Fault.fencing "lease lifetime exceeds hard safety window")
  let entropy ← digest32 .fencing request.entropyDigest "entropy_digest"
  raiseIf (entropy = zeros) (Fault.fencing "lease entropy cannot be empty")
  let epoch ← intBytes 8 request.nextEpoch
  let issued ← intBytes 8 request.issuedTick
  let expires ← intBytes 8 request.expiresTick
  let token := sha3 (fencingContext ++ encode "token\x00" ++ encode request.writerId ++ [0] ++
    checkpoint.checkpointDigest ++ epoch ++ issued ++ expires ++ entropy ++ state.stateDigest)
  let lease : RecoveryLeaseV0 := {
    writerId := request.writerId
    graphDigest := checkpoint.graphDigest
    recoveryPlanDigest := checkpoint.recoveryPlanDigest
    checkpointDigest := checkpoint.checkpointDigest
    epoch := request.nextEpoch
    issuedTick := request.issuedTick
    expiresTick := request.expiresTick
    fencingToken := token
    leaseDigest := sha3 (fencingContext ++ encode "lease\x00" ++ encode request.writerId ++ [0] ++
      checkpoint.graphDigest ++ checkpoint.recoveryPlanDigest ++ checkpoint.checkpointDigest ++ epoch ++
      issued ++ expires ++ token)
    authority := false }
  let tokenDigest := sha3 token
  .ok (lease, {
    graphDigest := state.graphDigest
    recoveryPlanDigest := state.recoveryPlanDigest
    currentEpoch := request.nextEpoch
    highestFencingTokenDigest := tokenDigest
    stateDigest := fenceStateDigest sha3 state.graphDigest state.recoveryPlanDigest epoch tokenDigest
    authority := false })

/-- `authorize_recovery_write_v0`. -/
def authorizeRecoveryWriteV0 (state : RecoveryFenceStateV0) (request : WriteRequest) :
    Guarded RecoveryWritePermitV0 := do
  let checkpoint := request.checkpoint
  let lease := request.lease
  raiseIf (¬ checkpoint.Usable)
    (Fault.fencing "durable split-brain-free recovery checkpoint required")
  raiseIf state.authority (Fault.fencing "authority-free recovery fence state required")
  raiseIf lease.authority (Fault.fencing "authority-free recovery lease required")
  raiseIf (checkpoint.graphDigest ≠ state.graphDigest ∨
      checkpoint.recoveryPlanDigest ≠ state.recoveryPlanDigest)
    (Fault.fencing "checkpoint/fence-state drift detected")
  raiseIf (lease.graphDigest ≠ checkpoint.graphDigest ∨
      lease.recoveryPlanDigest ≠ checkpoint.recoveryPlanDigest ∨
      lease.checkpointDigest ≠ checkpoint.checkpointDigest)
    (Fault.fencing "lease bound to different recovery reality")
  raiseIf (lease.epoch ≠ state.currentEpoch) (Fault.fencing "stale recovery leader fenced out")
  raiseIf (request.currentTick < lease.issuedTick ∨ lease.expiresTick ≤ request.currentTick)
    (Fault.fencing "recovery lease not currently valid")
  let token ← digest32 .fencing lease.fencingToken "fencing_token"
  let tokenDigest := sha3 token
  raiseIf (tokenDigest ≠ state.highestFencingTokenDigest)
    (Fault.fencing "fencing token is not current")
  let operation ← digest32 .fencing request.operationDigest "operation_digest"
  raiseIf (operation = zeros) (Fault.fencing "operation digest cannot be empty")
  let epoch ← intBytes 8 lease.epoch
  .ok {
    writerId := lease.writerId
    epoch := lease.epoch
    checkpointDigest := checkpoint.checkpointDigest
    fencingTokenDigest := tokenDigest
    operationDigest := operation
    permitDigest := sha3 (fencingContext ++ encode "permit\x00" ++ encode lease.writerId ++ [0] ++
      epoch ++ checkpoint.checkpointDigest ++ tokenDigest ++ operation ++ lease.leaseDigest ++
      state.stateDigest)
    allowed := true
    authority := false }

end Hashes

/-! ## Runs -/

/-- A fence state, and the leases that were issued, the last one last. -/
structure FenceSystem where
  state : RecoveryFenceStateV0
  leases : List RecoveryLeaseV0

section Runs

variable (sha3 : Bytes → Bytes)

/-- A lease is issued, or the system stays as it is. -/
def fenceStep (system : FenceSystem) (request : LeaseRequest) :
    Guarded RecoveryLeaseV0 × FenceSystem :=
  match issueRecoveryLeaseV0 sha3 system.state request with
  | .ok (lease, state) => (.ok lease, ⟨state, system.leases ++ [lease]⟩)
  | .error fault => (.error fault, system)

/-- The system after requests for leases, from a state on. -/
def fenceAfter (state : RecoveryFenceStateV0) (requests : List LeaseRequest) : FenceSystem :=
  finalState (fenceStep sha3) ⟨state, []⟩ requests

/-- Leases of the same writer for the same checkpoint, epoch and lifetime. -/
structure SameTerms (lease issued : RecoveryLeaseV0) : Prop where
  writerId : lease.writerId = issued.writerId
  checkpointDigest : lease.checkpointDigest = issued.checkpointDigest
  epoch : lease.epoch = issued.epoch
  issuedTick : lease.issuedTick = issued.issuedTick
  expiresTick : lease.expiresTick = issued.expiresTick

/-- A write is permitted only under the terms of the lease that was issued last, in its lifetime, and
never under an earlier lease. -/
structure AdmitsLeaseholder (system : FenceSystem) (request : WriteRequest) : Prop where
  current : ∀ permit, authorizeRecoveryWriteV0 sha3 system.state request = .ok permit →
    ∃ issued, system.leases.getLast? = some issued ∧ SameTerms request.lease issued ∧
      issued.issuedTick ≤ request.currentTick ∧ request.currentTick < issued.expiresTick
  earlier : ∀ lease ∈ system.leases.dropLast, ∀ checkpoint tick operation, ∃ fault,
    authorizeRecoveryWriteV0 sha3 system.state ⟨checkpoint, lease, tick, operation⟩ = .error fault

/-- What a write is permitted for: the token, the epoch and the digests of the recovery are the
current ones, and the tick is in the lifetime the lease says it has. -/
structure Presentable (state : RecoveryFenceStateV0) (request : WriteRequest) : Prop where
  usable : request.checkpoint.Usable
  authority : state.authority = false ∧ request.lease.authority = false
  recovery : request.checkpoint.graphDigest = state.graphDigest ∧
    request.checkpoint.recoveryPlanDigest = state.recoveryPlanDigest
  reality : request.lease.graphDigest = request.checkpoint.graphDigest ∧
    request.lease.recoveryPlanDigest = request.checkpoint.recoveryPlanDigest ∧
    request.lease.checkpointDigest = request.checkpoint.checkpointDigest
  epoch : request.lease.epoch = state.currentEpoch
  lifetime : request.lease.issuedTick ≤ request.currentTick ∧
    request.currentTick < request.lease.expiresTick
  token : request.lease.fencingToken.length = 32 ∧
    sha3 request.lease.fencingToken = state.highestFencingTokenDigest
  operation : request.operationDigest.length = 32 ∧ request.operationDigest ≠ zeros
  range : 0 ≤ request.lease.epoch ∧ request.lease.epoch.toNat < 256 ^ 8

/-- A lease was issued, and the one that is presented has its writer, checkpoint and ticks. -/
def Unaltered (system : FenceSystem) (lease : RecoveryLeaseV0) : Prop :=
  ∃ issued, system.leases.getLast? = some issued ∧ lease.writerId = issued.writerId ∧
    lease.checkpointDigest = issued.checkpointDigest ∧ lease.issuedTick = issued.issuedTick ∧
    lease.expiresTick = issued.expiresTick

variable {sha3} {state : RecoveryFenceStateV0} {system : FenceSystem} {request : WriteRequest}
  {lease : RecoveryLeaseV0}

theorem issue_eq_ok {after : RecoveryFenceStateV0} {leaseRequest : LeaseRequest}
    (issued : issueRecoveryLeaseV0 sha3 state leaseRequest = .ok (lease, after)) :
    state.currentEpoch < lease.epoch ∧ after.currentEpoch = lease.epoch ∧
      after.highestFencingTokenDigest = sha3 lease.fencingToken := by
  simp only [issueRecoveryLeaseV0, bind_eq_ok_iff, raiseIf_iff, exists_and_left, exists_const,
    not_le] at issued
  obtain ⟨-, -, -, -, advances, -, -, _, -, -, _, -, _, -, _, -, ⟨⟩⟩ := issued
  exact ⟨advances, rfl, rfl⟩

theorem authorize_iff : (∃ permit, authorizeRecoveryWriteV0 sha3 state request = .ok permit) ↔
    Presentable sha3 state request := by
  simp only [authorizeRecoveryWriteV0, bind_eq_ok_iff, raiseIf_iff, digest32_iff, intBytes_iff,
    and_assoc, exists_and_left, exists_eq_left, exists_const, exists_eq', ok.injEq, not_or,
    ne_eq, not_not, not_lt, not_le, not_eq_true, and_true]
  constructor
  · rintro ⟨usable, authority, free, graph, plan, graph', plan', digest, epoch, begun, ends, length,
      current, opLength, nonzero, nonneg, small⟩
    exact ⟨usable, ⟨authority, free⟩, ⟨graph, plan⟩, ⟨graph', plan', digest⟩, epoch, ⟨begun, ends⟩,
      ⟨length, current⟩, ⟨opLength, nonzero⟩, nonneg, small⟩
  · rintro ⟨usable, ⟨authority, free⟩, ⟨graph, plan⟩, ⟨graph', plan', digest⟩, epoch, ⟨begun, ends⟩,
      ⟨length, current⟩, ⟨opLength, nonzero⟩, nonneg, small⟩
    exact ⟨usable, authority, free, graph, plan, graph', plan', digest, epoch, begun, ends, length,
      current, opLength, nonzero, nonneg, small⟩

/-- The last lease has the current epoch, and those before it have earlier ones. -/
structure Monotone (system : FenceSystem) : Prop where
  last : ∀ issued, system.leases.getLast? = some issued → issued.epoch = system.state.currentEpoch
  bounded : ∀ lease ∈ system.leases, lease.epoch ≤ system.state.currentEpoch
  earlier : ∀ lease ∈ system.leases.dropLast, lease.epoch < system.state.currentEpoch

theorem step_monotone (monotone : Monotone system) (leaseRequest : LeaseRequest) :
    Monotone (fenceStep sha3 system leaseRequest).2 := by
  unfold fenceStep
  cases issued : issueRecoveryLeaseV0 sha3 system.state leaseRequest with
  | error fault => exact monotone
  | ok result =>
    obtain ⟨lease, after⟩ := result
    obtain ⟨advances, current, -⟩ := issue_eq_ok issued
    dsimp only
    constructor
    · intro last isLast
      rw [getLast?_concat, some.injEq] at isLast
      rw [← isLast, current]
    · intro other member
      rw [current]
      rcases mem_append.mp member with before | here
      · exact le_of_lt (lt_of_le_of_lt (monotone.bounded other before) advances)
      · rw [mem_singleton.mp here]
    · intro other member
      rw [List.dropLast_concat] at member
      rw [current]
      exact lt_of_le_of_lt (monotone.bounded other member) advances

theorem after_monotone (state : RecoveryFenceStateV0) (requests : List LeaseRequest) :
    Monotone (fenceAfter sha3 state requests) := by
  have start : Monotone ⟨state, []⟩ := by
    constructor
    · intro issued impossible
      cases impossible
    · exact forall_mem_nil _
    · exact forall_mem_nil _
  refine (trace_invariant start fun moment member monotone => ?_).2
  have moved := @step_monotone sha3 _ monotone moment.call
  rw [step_of_mem_trace member] at moved
  exact moved

/-- An earlier lease has an earlier epoch, so nothing is permitted under it. -/
theorem earlier_fenced (monotone : Monotone system)
    (member : lease ∈ system.leases.dropLast) (checkpoint : RecoveryCheckpointV0) (tick : Int)
    (operation : Bytes) : ∃ fault,
      authorizeRecoveryWriteV0 sha3 system.state ⟨checkpoint, lease, tick, operation⟩ =
        .error fault := by
  cases outcome : authorizeRecoveryWriteV0 sha3 system.state ⟨checkpoint, lease, tick, operation⟩ with
  | error fault => exact ⟨fault, rfl⟩
  | ok permit =>
    have same := (authorize_iff.mp ⟨_, outcome⟩).epoch
    exact absurd same (ne_of_lt (monotone.earlier lease member))

end Runs

/-! ## An altered lease -/

/-- A checkpoint of the transaction of two steps. -/
def leasedCheckpoint : RecoveryCheckpointV0 where
  graphDigest := filled 1
  recoveryPlanDigest := filled 2
  preparationDigest := filled 3
  canonicalJournalDigest := filled 4
  canonicalSequence := 1
  agreeingReplicaIds := ["a", "b"]
  divergentReplicaIds := []
  quorumThreshold := 2
  checkpointDigest := filled 5
  durable := true
  splitBrain := false
  authority := false

/-- A fence state of the checkpoint, as it is made. -/
def fenceStart : RecoveryFenceStateV0 where
  graphDigest := filled 1
  recoveryPlanDigest := filled 2
  currentEpoch := 0
  highestFencingTokenDigest := zeros
  stateDigest := fenceStateDigest checksum (filled 1) (filled 2) (bigEndian 8 0) zeros
  authority := false

def leaseOfTen : LeaseRequest := ⟨leasedCheckpoint, "writer", 1, 0, 10, filled 6⟩

/-- The state after the lease was issued, and the lease. -/
def fencedSystem : FenceSystem := fenceAfter checksum fenceStart [leaseOfTen]

/-- A write after the lease has expired, under the lease with another writer and a later end. -/
def alteredRequests : List WriteRequest := fencedSystem.leases.map fun lease =>
    ⟨leasedCheckpoint, { lease with writerId := "intruder", expiresTick := 10000 }, 5000, filled 7⟩

end Koschei.Recovery
