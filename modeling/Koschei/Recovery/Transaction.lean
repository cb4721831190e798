import Koschei.Lib.Checks
import Mathlib.Algebra.Order.Ring.Int

/-!
# Recovery transactions

`library_recovery_transaction_v0.py` binds the plan of a recovery into a
transaction: every step is prepared before, and the transaction ends with a
receipt, of the whole of the steps or, when it is aborted, of the first of them.

Bytes are lists, and SHA3-256 is given by the host; nothing is assumed about it
here.
-/

namespace Koschei.Recovery

open Lib

/-! ## Bytes -/

abbrev Bytes : Type := List UInt8

instance : LawfulBEq Bytes := inferInstance

/-- What can be raised: the error of one of the modules, the error of `int.to_bytes`, or the one of
an index. -/
inductive Fault where
  | transaction (message : String)
  | journal (message : String)
  | quorum (message : String)
  | fencing (message : String)
  | exactlyOnce (message : String)
  | graph (message : String)
  | priorities (message : String)
  | overflow
  | index
  deriving DecidableEq

abbrev Guarded (α : Type) : Type := Except Fault α

/-- `text.encode()`. -/
def encode (text : String) : Bytes := text.toUTF8.data.toList

/-- The numbers bytes are compared by. -/
def byteOrder (value : Bytes) : List Nat := value.map UInt8.toNat

/-- The last bytes of a number, the highest one first. -/
def bigEndian : Nat → Nat → Bytes
  | 0, _ => []
  | width + 1, value => bigEndian width (value / 256) ++ [UInt8.ofNat value]

/-- `value.to_bytes(width, "big")`. -/
def toBytes (width value : Nat) : Guarded Bytes := do
  raiseIf (256 ^ width ≤ value) Fault.overflow
  .ok (bigEndian width value)

variable {width : Nat} {bytes : Bytes}

theorem toBytes_eq_ok {value : Nat} :
    toBytes width value = .ok bytes ↔ value < 256 ^ width ∧ bytes = bigEndian width value := by
  simp only [toBytes, bind_unit_iff, raiseIf_iff, not_le, ok.injEq, @eq_comm _ bytes]

/-- `value.to_bytes(width, "big")` of a number that may be negative. -/
def intBytes (width : Nat) (value : Int) : Guarded Bytes := do
  raiseIf (value < 0) Fault.overflow
  toBytes width value.toNat

theorem intBytes_of_range {value : Int} (nonneg : 0 ≤ value) (small : value.toNat < 256 ^ width) :
    intBytes width value = .ok (bigEndian width value.toNat) := by
  unfold intBytes
  rw [bind_raiseIf (Int.not_lt.mpr nonneg)]
  exact toBytes_eq_ok.mpr ⟨small, rfl⟩

theorem intBytes_iff {value : Int} :
    intBytes width value = .ok bytes ↔
      0 ≤ value ∧ value.toNat < 256 ^ width ∧ bytes = bigEndian width value.toNat := by
  simp only [intBytes, bind_unit_iff, raiseIf_iff, not_lt, toBytes_eq_ok]

/-- `b"\x00" * 32`. -/
def zeros : Bytes := replicate 32 0

/-- `_d32`, with the error of its module. -/
def digest32 (fault : String → Fault) (value : Bytes) (name : String) : Guarded Bytes := do
  raiseIf (value.length ≠ 32) (fault (name ++ " must be exactly 32 bytes"))
  .ok value

variable {fault : String → Fault} {name : String}

theorem digest32_eq_ok {value result : Bytes}
    (passed : digest32 fault value name = .ok result) : value.length = 32 ∧ result = value := by
  unfold digest32 at passed
  obtain ⟨_, sized, passed⟩ := bind_eq_ok passed
  cases passed
  exact ⟨not_not.mp (raiseIf_eq_ok sized), rfl⟩

theorem digest32_of_length {value : Bytes}
    (sized : value.length = 32) : digest32 fault value name = .ok value := by
  unfold digest32
  exact bind_raiseIf (not_not.mpr sized)

theorem digest32_iff {value result : Bytes} :
    digest32 fault value name = .ok result ↔ value.length = 32 ∧ result = value := by
  constructor
  · exact digest32_eq_ok
  · rintro ⟨sized, rfl⟩
    exact digest32_of_length sized

/-! ## Transactions -/

/-- `RecoveryTransactionState`. -/
inductive RecoveryTransactionState where
  | prepared
  | committed
  | aborted
  deriving DecidableEq

def RecoveryTransactionState.value : RecoveryTransactionState → String
  | .prepared => "prepared"
  | .committed => "committed"
  | .aborted => "aborted"

/-- `RecoveryPriorityPlanV0`. -/
structure RecoveryPriorityPlanV0 where
  graphDigest : Bytes
  containmentDigest : Bytes
  orderedStepIds : List String
  dependencyEdges : List (String × String)
  deferredStepIds : List String
  planDigest : Bytes
  executable : Bool
  authority : Bool
  deriving DecidableEq

/-- `RecoveryTransactionV0`. -/
structure RecoveryTransactionV0 where
  graphDigest : Bytes
  recoveryPlanDigest : Bytes
  orderedStepIds : List String
  preparedStepIds : List String
  preparationDigest : Bytes
  state : RecoveryTransactionState
  authority : Bool
  deriving DecidableEq

/-- `RecoveryTransactionReceiptV0`. -/
structure RecoveryTransactionReceiptV0 where
  graphDigest : Bytes
  recoveryPlanDigest : Bytes
  preparationDigest : Bytes
  finalState : RecoveryTransactionState
  appliedStepIds : List String
  terminalEvidenceDigest : Bytes
  receiptDigest : Bytes
  authority : Bool
  deriving DecidableEq

def transactionContext : Bytes := encode "koschei.library-recovery-transaction/v0\x00"

section Hashes

variable (sha3 : Bytes → Bytes)

def receiptDigest (transaction : RecoveryTransactionV0) (state : RecoveryTransactionState)
    (applied : List String) (evidence : Bytes) : Bytes :=
  sha3 (transactionContext ++ encode "finalize\x00" ++ transaction.graphDigest ++
    transaction.recoveryPlanDigest ++ transaction.preparationDigest ++ encode state.value ++
    evidence ++ applied.flatMap fun step => encode "A\x00" ++ encode step ++ [0])

def finalStateOf (transaction : RecoveryTransactionV0) (applied : List String) (commit : Bool) :
    Guarded RecoveryTransactionState :=
  if commit then do
    raiseIf (applied ≠ transaction.orderedStepIds)
      (Fault.transaction "commit requires exact ordered completion of every recovery step")
    .ok .committed
  else do
    raiseIf (applied ≠ transaction.orderedStepIds.take applied.length)
      (Fault.transaction "abort may only record an ordered recovery prefix")
    .ok .aborted

/-- `finalize_recovery_transaction_v0`. -/
def finalizeRecoveryTransactionV0 (transaction : RecoveryTransactionV0)
    (plan : RecoveryPriorityPlanV0) (applied : List String) (terminalEvidence : Bytes)
    (commit : Bool) : Guarded RecoveryTransactionReceiptV0 := do
  raiseIf transaction.authority (Fault.transaction "authority-free recovery transaction required")
  raiseIf (transaction.state ≠ .prepared)
    (Fault.transaction "only prepared transaction may finalize")
  raiseIf (plan.authority ∨ ¬ plan.executable)
    (Fault.transaction "executable authority-free recovery plan required")
  raiseIf (transaction.graphDigest ≠ plan.graphDigest ∨
      transaction.recoveryPlanDigest ≠ plan.planDigest ∨
      transaction.orderedStepIds ≠ plan.orderedStepIds)
    (Fault.transaction "transaction/recovery plan drift detected")
  raiseIf (¬ applied.Nodup) (Fault.transaction "duplicate applied recovery step forbidden")
  let evidence ← digest32 .transaction terminalEvidence "terminal_evidence_digest"
  raiseIf (evidence = zeros) (Fault.transaction "terminal evidence cannot be empty")
  let state ← finalStateOf transaction applied commit
  .ok {
    graphDigest := transaction.graphDigest
    recoveryPlanDigest := transaction.recoveryPlanDigest
    preparationDigest := transaction.preparationDigest
    finalState := state
    appliedStepIds := applied
    terminalEvidenceDigest := evidence
    receiptDigest := receiptDigest sha3 transaction state applied evidence
    authority := false }

end Hashes

/-! ## Preparing and finalizing -/

section Results

def RecoveryTransactionV0.plan (transaction : RecoveryTransactionV0) : RecoveryPriorityPlanV0 where
  graphDigest := transaction.graphDigest
  containmentDigest := zeros
  orderedStepIds := transaction.orderedStepIds
  dependencyEdges := []
  deferredStepIds := []
  planDigest := transaction.recoveryPlanDigest
  executable := true
  authority := false

/-- A transaction that can be finalized. -/
structure RecoveryTransactionV0.Prepared (transaction : RecoveryTransactionV0) : Prop where
  state : transaction.state = .prepared
  authority : transaction.authority = false

variable {sha3 : Bytes → Bytes} {transaction : RecoveryTransactionV0} {plan : RecoveryPriorityPlanV0}
  {applied : List String} {evidence : Bytes} {commit : Bool}
  {state : RecoveryTransactionState}

/-- The steps a transaction may end with: all of them, or the first ones. -/
def EndsWith (transaction : RecoveryTransactionV0) (applied : List String) :
    RecoveryTransactionState → Prop
  | .prepared => False
  | .committed => applied = transaction.orderedStepIds
  | .aborted => applied = transaction.orderedStepIds.take applied.length

theorem finalStateOf_eq_ok (ran : finalStateOf transaction applied commit = .ok state) :
    EndsWith transaction applied state ∧ decide (state = .committed) = commit := by
  cases commit with
  | true =>
    simp only [finalStateOf, if_true, bind_unit_iff, raiseIf_iff, ne_eq, not_not] at ran
    obtain ⟨all, ⟨⟩⟩ := ran
    exact ⟨all, rfl⟩
  | false =>
    simp only [finalStateOf, false_eq_true, if_false, bind_unit_iff, raiseIf_iff, ne_eq,
      not_not] at ran
    obtain ⟨first, ⟨⟩⟩ := ran
    exact ⟨first, rfl⟩

theorem finalStateOf_of_ends (ends : EndsWith transaction applied state) :
    finalStateOf transaction applied (decide (state = .committed)) = .ok state := by
  unfold finalStateOf
  cases state with
  | prepared => exact ends.elim
  | committed =>
    have all : applied = transaction.orderedStepIds := ends
    exact bind_raiseIf (not_not.mpr all)
  | aborted =>
    have first : applied = transaction.orderedStepIds.take applied.length := ends
    exact bind_raiseIf (not_not.mpr first)

variable (sha3 transaction applied evidence state)

def receiptOf : RecoveryTransactionReceiptV0 where
  graphDigest := transaction.graphDigest
  recoveryPlanDigest := transaction.recoveryPlanDigest
  preparationDigest := transaction.preparationDigest
  finalState := state
  appliedStepIds := applied
  terminalEvidenceDigest := evidence
  receiptDigest := receiptDigest sha3 transaction state applied evidence
  authority := false

/-- What a transaction is finalized with. -/
structure Finalizable : Prop where
  prepared : transaction.Prepared
  distinct : applied.Nodup
  sized : evidence.length = 32
  nonzero : evidence ≠ zeros
  ends : EndsWith transaction applied state

variable {sha3 transaction applied evidence state}

theorem finalize_eq_ok {receipt : RecoveryTransactionReceiptV0}
    (ran : finalizeRecoveryTransactionV0 sha3 transaction plan applied evidence commit =
      .ok receipt) :
    ∃ state, Finalizable transaction applied evidence state ∧
      receipt = receiptOf sha3 transaction applied evidence state ∧
      decide (state = .committed) = commit := by
  simp only [finalizeRecoveryTransactionV0, bind_eq_ok_iff, raiseIf_iff, digest32_iff, and_assoc,
    exists_and_left, exists_eq_left, exists_const, ne_eq, not_not, not_eq_true] at ran
  obtain ⟨authority, prepared, -, -, distinct, length, nonzero, state, final, ⟨⟩⟩ := ran
  obtain ⟨ends, way⟩ := finalStateOf_eq_ok final
  exact ⟨state, ⟨⟨prepared, authority⟩, distinct, length, nonzero, ends⟩, rfl, way⟩

theorem finalize_of_finalizable (finalizable : Finalizable transaction applied evidence state) :
    finalizeRecoveryTransactionV0 sha3 transaction transaction.plan applied evidence
      (decide (state = .committed)) = .ok (receiptOf sha3 transaction applied evidence state) := by
  obtain ⟨⟨prepared, authority⟩, distinct, sized, nonzero, ends⟩ := finalizable
  unfold finalizeRecoveryTransactionV0
  rw [bind_raiseIf (ne_true_of_eq_false authority), bind_raiseIf (not_not.mpr prepared),
    bind_raiseIf (by simp [RecoveryTransactionV0.plan]),
    bind_raiseIf (by simp [RecoveryTransactionV0.plan]), bind_raiseIf (not_not.mpr distinct),
    bind_of_ok (digest32_of_length sized), bind_raiseIf nonzero,
    bind_of_ok (finalStateOf_of_ends ends)]
  rfl

end Results

end Koschei.Recovery
