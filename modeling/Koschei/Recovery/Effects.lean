import Koschei.Recovery.Fencing

/-!
# Exactly-once recovery effects

`library_recovery_exactly_once_v0.py` commits a write under an idempotency key.
An intent to write is prepared against a state and has its sequence; a commit
takes an intent of the next sequence, adds a record under its key and goes to the
next sequence. The record is returned when the effect is replayed.
-/

namespace Koschei.Recovery

open Lib

/-! ## States, intents and receipts -/

/-- A record of `committed_idempotency`. -/
structure IdempotencyRecord where
  key : Bytes
  operation : Bytes
  receiptDigest : Bytes
  deriving DecidableEq

/-- `RecoveryEffectStateV0`. -/
structure RecoveryEffectStateV0 where
  checkpointDigest : Bytes
  writerId : String
  epoch : Int
  nextSequence : Int
  committedIdempotency : List IdempotencyRecord
  stateDigest : Bytes
  authority : Bool
  deriving DecidableEq

/-- `RecoveryWriteIntentV0`. -/
structure RecoveryWriteIntentV0 where
  writerId : String
  epoch : Int
  checkpointDigest : Bytes
  sequence : Int
  idempotencyKeyDigest : Bytes
  operationDigest : Bytes
  permitDigest : Bytes
  previousStateDigest : Bytes
  intentDigest : Bytes
  authority : Bool
  deriving DecidableEq

/-- `RecoveryEffectReceiptV0`. -/
structure RecoveryEffectReceiptV0 where
  writerId : String
  epoch : Int
  checkpointDigest : Bytes
  sequence : Int
  idempotencyKeyDigest : Bytes
  operationDigest : Bytes
  effectEvidenceDigest : Bytes
  intentDigest : Bytes
  receiptDigest : Bytes
  replayed : Bool
  authority : Bool
  deriving DecidableEq

def effectContext : Bytes := encode "koschei.library-recovery-exactly-once/v0\x00"

/-- `sorted(records, key=lambda x: x[0])`. -/
def sortedRecords (records : List IdempotencyRecord) : List IdempotencyRecord :=
  sortByKey (fun r : IdempotencyRecord => byteOrder r.key) records

/-- The checks of the records, after records with some keys. -/
def checkRecords : List Bytes → List IdempotencyRecord → Guarded Unit
  | _, [] => .ok ()
  | seen, record :: records => do
    let key ← digest32 .exactlyOnce record.key "idempotency_key_digest"
    let _ ← digest32 .exactlyOnce record.operation "operation_digest"
    let _ ← digest32 .exactlyOnce record.receiptDigest "receipt_digest"
    raiseIf (key ∈ seen) (Fault.exactlyOnce "duplicate idempotency key forbidden")
    checkRecords (key :: seen) records

section Hashes

variable (sha3 : Bytes → Bytes)

/-- `make_recovery_effect_state_v0`. -/
def makeRecoveryEffectStateV0 (permit : RecoveryWritePermitV0) (nextSequence : Int)
    (committedIdempotency : List IdempotencyRecord) : Guarded RecoveryEffectStateV0 := do
  raiseIf (permit.authority ∨ ¬ permit.allowed)
    (Fault.exactlyOnce "allowed authority-free recovery write permit required")
  raiseIf (nextSequence < 1) (Fault.exactlyOnce "next_sequence must be positive")
  checkRecords [] committedIdempotency
  let epoch ← intBytes 8 permit.epoch
  let sequence ← intBytes 8 nextSequence
  let records := sortedRecords committedIdempotency
  .ok {
    checkpointDigest := permit.checkpointDigest
    writerId := permit.writerId
    epoch := permit.epoch
    nextSequence := nextSequence
    committedIdempotency := records
    stateDigest := sha3 (effectContext ++ encode "state\x00" ++ permit.checkpointDigest ++
      encode permit.writerId ++ [0] ++ epoch ++ sequence ++
      records.flatMap fun r => encode "I\x00" ++ r.key ++ r.operation ++ r.receiptDigest)
    authority := false }

def recordFor (state : RecoveryEffectStateV0) (key : Bytes) : Option IdempotencyRecord :=
  state.committedIdempotency.find? fun r => decide (r.key = key)

/-- `prepare_recovery_write_intent_v0`. -/
def prepareRecoveryWriteIntentV0 (permit : RecoveryWritePermitV0) (state : RecoveryEffectStateV0)
    (idempotencyKey : Bytes) (sequence : Option Int) : Guarded RecoveryWriteIntentV0 := do
  raiseIf (permit.authority ∨ ¬ permit.allowed)
    (Fault.exactlyOnce "allowed authority-free recovery write permit required")
  raiseIf state.authority (Fault.exactlyOnce "authority-free recovery effect state required")
  raiseIf (permit.checkpointDigest ≠ state.checkpointDigest ∨ permit.writerId ≠ state.writerId ∨
      permit.epoch ≠ state.epoch)
    (Fault.exactlyOnce "permit/effect-state lineage drift detected")
  let seq := sequence.getD state.nextSequence
  raiseIf (seq ≠ state.nextSequence)
    (Fault.exactlyOnce "write intent sequence must exactly match next_sequence")
  let key ← digest32 .exactlyOnce idempotencyKey "idempotency_key_digest"
  raiseIf (key = zeros) (Fault.exactlyOnce "idempotency key cannot be empty")
  let operation ← digest32 .exactlyOnce permit.operationDigest "operation_digest"
  match recordFor state key with
  | some old => do
    raiseIf (old.operation ≠ operation)
      (Fault.exactlyOnce "idempotency key reused for different operation")
    .error (.exactlyOnce "operation already committed under this idempotency key")
  | none => do
    let epoch ← intBytes 8 permit.epoch
    let number ← intBytes 8 seq
    .ok {
      writerId := permit.writerId
      epoch := permit.epoch
      checkpointDigest := permit.checkpointDigest
      sequence := seq
      idempotencyKeyDigest := key
      operationDigest := operation
      permitDigest := permit.permitDigest
      previousStateDigest := state.stateDigest
      intentDigest := sha3 (effectContext ++ encode "intent\x00" ++ encode permit.writerId ++ [0] ++
        epoch ++ permit.checkpointDigest ++ number ++ key ++ operation ++ permit.permitDigest ++
        state.stateDigest)
      authority := false }

def receiptFor (intent : RecoveryWriteIntentV0) (evidence receiptDigest : Bytes) (replayed : Bool) :
    RecoveryEffectReceiptV0 where
  writerId := intent.writerId
  epoch := intent.epoch
  checkpointDigest := intent.checkpointDigest
  sequence := intent.sequence
  idempotencyKeyDigest := intent.idempotencyKeyDigest
  operationDigest := intent.operationDigest
  effectEvidenceDigest := evidence
  intentDigest := intent.intentDigest
  receiptDigest := receiptDigest
  replayed := replayed
  authority := false

/-- The permit the next state is made with. -/
def seedPermit (state : RecoveryEffectStateV0) (operation : Bytes) : RecoveryWritePermitV0 where
  writerId := state.writerId
  epoch := state.epoch
  checkpointDigest := state.checkpointDigest
  fencingTokenDigest := zeros
  operationDigest := operation
  permitDigest := zeros
  allowed := true
  authority := false

/-- `commit_recovery_effect_v0`. -/
def commitRecoveryEffectV0 (intent : RecoveryWriteIntentV0) (state : RecoveryEffectStateV0)
    (effectEvidence : Bytes) : Guarded (RecoveryEffectReceiptV0 × RecoveryEffectStateV0) := do
  raiseIf intent.authority (Fault.exactlyOnce "authority-free recovery write intent required")
  raiseIf state.authority (Fault.exactlyOnce "authority-free recovery effect state required")
  raiseIf (intent.checkpointDigest ≠ state.checkpointDigest ∨ intent.writerId ≠ state.writerId ∨
      intent.epoch ≠ state.epoch ∨ intent.previousStateDigest ≠ state.stateDigest)
    (Fault.exactlyOnce "intent/effect-state lineage drift detected")
  raiseIf (intent.sequence ≠ state.nextSequence)
    (Fault.exactlyOnce "intent sequence is stale or skipped")
  let evidence ← digest32 .exactlyOnce effectEvidence "effect_evidence_digest"
  raiseIf (evidence = zeros) (Fault.exactlyOnce "effect evidence cannot be empty")
  match recordFor state intent.idempotencyKeyDigest with
  | some old => do
    raiseIf (old.operation ≠ intent.operationDigest)
      (Fault.exactlyOnce "idempotency key collision across operations")
    .ok (receiptFor intent evidence old.receiptDigest true, state)
  | none => do
    let receiptDigest := sha3 (effectContext ++ encode "receipt\x00" ++ intent.intentDigest ++
      evidence ++ state.stateDigest)
    let record : IdempotencyRecord :=
      ⟨intent.idempotencyKeyDigest, intent.operationDigest, receiptDigest⟩
    let next ← makeRecoveryEffectStateV0 sha3 (seedPermit state intent.operationDigest)
      (state.nextSequence + 1) (state.committedIdempotency ++ [record])
    .ok (receiptFor intent evidence receiptDigest false, next)

end Hashes

/-- `replay_committed_effect_v0`. -/
def replayCommittedEffectV0 (state : RecoveryEffectStateV0) (idempotencyKey operation : Bytes) :
    Guarded RecoveryEffectReceiptV0 := do
  raiseIf state.authority (Fault.exactlyOnce "authority-free recovery effect state required")
  let key ← digest32 .exactlyOnce idempotencyKey "idempotency_key_digest"
  let operation ← digest32 .exactlyOnce operation "operation_digest"
  match recordFor state key with
  | none => .error (.exactlyOnce "idempotency key not previously committed")
  | some old => do
    raiseIf (old.operation ≠ operation)
      (Fault.exactlyOnce "idempotency key reused for different operation")
    .ok {
      writerId := state.writerId
      epoch := state.epoch
      checkpointDigest := state.checkpointDigest
      sequence := 0
      idempotencyKeyDigest := key
      operationDigest := operation
      effectEvidenceDigest := zeros
      intentDigest := zeros
      receiptDigest := old.receiptDigest
      replayed := true
      authority := false }

/-! ## Runs -/

/-- A call on the current state. -/
inductive EffectCall where
  | prepare (permit : RecoveryWritePermitV0) (key : Bytes) (sequence : Option Int)
  | commit (intent : RecoveryWriteIntentV0) (evidence : Bytes)
  | replay (key operation : Bytes)

/-- What a call gives. -/
inductive EffectAnswer where
  | prepared (intent : RecoveryWriteIntentV0)
  | receipt (receipt : RecoveryEffectReceiptV0)

/-- The current state, the states before it, and the receipts of the commits. -/
structure EffectSystem where
  state : RecoveryEffectStateV0
  earlier : List RecoveryEffectStateV0
  receipts : List RecoveryEffectReceiptV0

/-- The receipts of the commits that were no replays. -/
def EffectSystem.committed (system : EffectSystem) : List RecoveryEffectReceiptV0 :=
  system.receipts.filter fun receipt => !receipt.replayed

section Runs

variable (sha3 : Bytes → Bytes)

def EffectSystem.commit (system : EffectSystem) (receipt : RecoveryEffectReceiptV0)
    (next : RecoveryEffectStateV0) : EffectSystem where
  state := next
  earlier := if receipt.replayed then system.earlier else system.earlier ++ [system.state]
  receipts := system.receipts ++ [receipt]

/-- A call is answered; only a commit changes the system. -/
def effectStep (system : EffectSystem) : EffectCall → Guarded EffectAnswer × EffectSystem
  | .prepare permit key sequence =>
    ((prepareRecoveryWriteIntentV0 sha3 permit system.state key sequence).map .prepared, system)
  | .commit intent evidence =>
    match commitRecoveryEffectV0 sha3 intent system.state evidence with
    | .ok (receipt, next) => (.ok (.receipt receipt), system.commit receipt next)
    | .error fault => (.error fault, system)
  | .replay key operation =>
    ((replayCommittedEffectV0 system.state key operation).map .receipt, system)

def effectsAfter (state : RecoveryEffectStateV0) (calls : List EffectCall) : EffectSystem :=
  finalState (effectStep sha3) ⟨state, [], []⟩ calls

def recordOf (receipt : RecoveryEffectReceiptV0) : IdempotencyRecord :=
  ⟨receipt.idempotencyKeyDigest, receipt.operationDigest, receipt.receiptDigest⟩

/-- Effects are committed once, in the order of the sequence from a number on. -/
structure ExactlyOnce (start : Int) (system : EffectSystem) : Prop where
  once : (system.committed.map RecoveryEffectReceiptV0.idempotencyKeyDigest).Nodup
  sequence : system.state.nextSequence = start + system.state.committedIdempotency.length
  recorded : system.state.committedIdempotency.length = system.committed.length
  stale : ∀ state ∈ system.earlier, ∀ permit key number intent,
    prepareRecoveryWriteIntentV0 sha3 permit state key number = .ok intent → ∀ evidence, ∃ fault,
      commitRecoveryEffectV0 sha3 intent system.state evidence = .error fault
  sorted : system.state.committedIdempotency.Pairwise fun a b => byteOrder a.key < byteOrder b.key
  replays : ∀ receipt ∈ system.committed, ∃ again,
    replayCommittedEffectV0 system.state receipt.idempotencyKeyDigest receipt.operationDigest =
        .ok again ∧
      again.receiptDigest = receipt.receiptDigest ∧ again.replayed = true

variable {sha3} {state next : RecoveryEffectStateV0} {system : EffectSystem}

/-! ## The operations -/

/-- The records that are accepted after some keys. -/
structure Recordable (seen : List Bytes) (records : List IdempotencyRecord) : Prop where
  sized : ∀ record ∈ records, record.key.length = 32 ∧ record.operation.length = 32
  distinct : (records.map IdempotencyRecord.key).Nodup
  fresh : ∀ record ∈ records, record.key ∉ seen

variable {records : List IdempotencyRecord} {seen : List Bytes}

theorem checkRecords_eq_ok
    (checked : checkRecords seen records = .ok ()) : Recordable seen records := by
  induction records generalizing seen with
  | nil => exact ⟨forall_mem_nil _, nodup_nil, forall_mem_nil _⟩
  | cons record records ih =>
    unfold checkRecords at checked
    obtain ⟨key, sized, checked⟩ := bind_eq_ok checked
    obtain ⟨_, operation, checked⟩ := bind_eq_ok checked
    obtain ⟨_, -, checked⟩ := bind_eq_ok checked
    obtain ⟨_, unseen, checked⟩ := bind_eq_ok checked
    obtain ⟨length, rfl⟩ := digest32_eq_ok sized
    have rest := ih checked
    refine ⟨forall_mem_cons.mpr ⟨⟨length, (digest32_eq_ok operation).1⟩, rest.sized⟩,
      nodup_cons.mpr ⟨fun member => ?_, rest.distinct⟩,
      forall_mem_cons.mpr ⟨raiseIf_eq_ok unseen, fun other member => ?_⟩⟩
    · obtain ⟨other, member, same⟩ := mem_map.mp member
      exact rest.fresh other member (same ▸ mem_cons_self)
    · exact fun before => rest.fresh other member (mem_cons_of_mem _ before)

variable {permit : RecoveryWritePermitV0}

theorem make_eq_ok {number : Int}
    (made : makeRecoveryEffectStateV0 sha3 permit number records = .ok state) :
    Recordable [] records ∧ state.nextSequence = number ∧
      state.committedIdempotency = sortedRecords records ∧ state.authority = false := by
  unfold makeRecoveryEffectStateV0 at made
  obtain ⟨_, -, made⟩ := bind_eq_ok made
  obtain ⟨_, -, made⟩ := bind_eq_ok made
  obtain ⟨_, checked, made⟩ := bind_eq_ok made
  obtain ⟨_, -, made⟩ := bind_eq_ok made
  obtain ⟨_, -, made⟩ := bind_eq_ok made
  cases made
  exact ⟨checkRecords_eq_ok checked, rfl, rfl, rfl⟩

variable {intent : RecoveryWriteIntentV0}

theorem prepare_sequence {key : Bytes} {number : Option Int}
    (prepared : prepareRecoveryWriteIntentV0 sha3 permit state key number = .ok intent) :
    intent.sequence = state.nextSequence := by
  simp only [prepareRecoveryWriteIntentV0, bind_eq_ok_iff, raiseIf_iff, exists_and_left,
    exists_const, ne_eq, not_not] at prepared
  obtain ⟨-, -, -, same, _, -, -, _, -, prepared⟩ := prepared
  split at prepared
  · obtain ⟨_, -, impossible⟩ := bind_eq_ok prepared
    cases impossible
  · obtain ⟨_, -, prepared⟩ := bind_eq_ok prepared
    obtain ⟨_, -, prepared⟩ := bind_eq_ok prepared
    cases prepared
    exact same

variable {evidence : Bytes} {receipt : RecoveryEffectReceiptV0}

/-- What a commit does: it replays the effect of a recorded key, or records a new one. -/
theorem commit_eq_ok
    (ran : commitRecoveryEffectV0 sha3 intent state evidence = .ok (receipt, next)) :
    intent.sequence = state.nextSequence ∧ (receipt.replayed = true ∧ next = state ∨
        receipt.replayed = false ∧ next.nextSequence = state.nextSequence + 1 ∧
          next.authority = false ∧ Recordable [] (state.committedIdempotency ++ [recordOf receipt]) ∧
          next.committedIdempotency =
            sortedRecords (state.committedIdempotency ++ [recordOf receipt])) := by
  unfold commitRecoveryEffectV0 at ran
  obtain ⟨_, -, ran⟩ := bind_eq_ok ran
  obtain ⟨_, -, ran⟩ := bind_eq_ok ran
  obtain ⟨_, -, ran⟩ := bind_eq_ok ran
  obtain ⟨_, same, ran⟩ := bind_eq_ok ran
  obtain ⟨_, -, ran⟩ := bind_eq_ok ran
  obtain ⟨_, -, ran⟩ := bind_eq_ok ran
  refine ⟨not_not.mp (raiseIf_eq_ok same), ?_⟩
  split at ran
  · obtain ⟨_, -, ran⟩ := bind_eq_ok ran
    cases ran
    exact .inl ⟨rfl, rfl⟩
  · obtain ⟨made, isMade, ran⟩ := bind_eq_ok ran
    cases ran
    obtain ⟨recordable, sequence, records, free⟩ := make_eq_ok isMade
    exact .inr ⟨rfl, sequence, free, recordable, records⟩

variable {record : IdempotencyRecord}

theorem recordFor_eq_some (distinct : (state.committedIdempotency.map IdempotencyRecord.key).Nodup)
    (member : record ∈ state.committedIdempotency) : recordFor state record.key = some record :=
  (find?_key_iff distinct).mpr ⟨member, rfl⟩

theorem replay_recorded (free : state.authority = false)
    (recordable : Recordable [] state.committedIdempotency)
    (member : record ∈ state.committedIdempotency) : ∃ again,
      replayCommittedEffectV0 state record.key record.operation = .ok again ∧
        again.receiptDigest = record.receiptDigest ∧ again.replayed = true := by
  obtain ⟨keyLength, operationLength⟩ := recordable.sized record member
  unfold replayCommittedEffectV0
  rw [bind_raiseIf (ne_true_of_eq_false free), bind_of_ok (digest32_of_length keyLength),
    bind_of_ok (digest32_of_length operationLength), recordFor_eq_some recordable.distinct member]
  dsimp only
  rw [bind_raiseIf (not_not.mpr rfl)]
  exact ⟨_, rfl, rfl, rfl⟩

theorem byteOrder_injective : Function.Injective byteOrder :=
  List.map_injective_iff.mpr fun _ _ => UInt8.toNat_inj.mp

theorem sortedRecords_strict (distinct : (records.map IdempotencyRecord.key).Nodup) :
    (sortedRecords records).Pairwise fun a b => byteOrder a.key < byteOrder b.key := by
  have sorted := sortByKey_pairwise (fun r : IdempotencyRecord => byteOrder r.key) records
  have unequal : (sortedRecords records).Pairwise fun a b => a.key ≠ b.key :=
    List.pairwise_map.mp (((sortByKey_perm _ records).map _).nodup_iff.mpr distinct)
  exact (sorted.and unequal).imp fun ⟨ordered, different⟩ =>
    lt_of_le_of_ne ordered fun same => different (byteOrder_injective same)

/-! ## What holds after calls -/

/-- The records of a state are the commits of its system, and every commit went to a later number. -/
structure Consistent (start : Int) (system : EffectSystem) : Prop where
  free : system.state.authority = false
  recordable : Recordable [] system.state.committedIdempotency
  sorted : system.state.committedIdempotency.Pairwise fun a b => byteOrder a.key < byteOrder b.key
  commits : system.state.committedIdempotency.Perm (system.committed.map recordOf)
  sequence : system.state.nextSequence = start + system.state.committedIdempotency.length
  earlier : ∀ state ∈ system.earlier, state.nextSequence < system.state.nextSequence

theorem Recordable.perm {records others : List IdempotencyRecord}
    (recordable : Recordable seen records) (perm : others.Perm records) : Recordable seen others where
  sized := fun record member => recordable.sized record (perm.mem_iff.mp member)
  distinct := (perm.map _).nodup_iff.mpr recordable.distinct
  fresh := fun record member => recordable.fresh record (perm.mem_iff.mp member)

theorem committed_commit (system : EffectSystem) (receipt : RecoveryEffectReceiptV0)
    (next : RecoveryEffectStateV0) : (system.commit receipt next).committed =
      if receipt.replayed then system.committed else system.committed ++ [receipt] := by
  unfold EffectSystem.committed EffectSystem.commit
  rw [filter_append]
  cases replayed : receipt.replayed with
  | true => rw [List.filter_cons_of_neg (by simp [replayed])]; simp
  | false => rw [List.filter_cons_of_pos (by simp [replayed])]; simp

variable {start : Int}

theorem commit_consistent (consistent : Consistent start system)
    (ran : commitRecoveryEffectV0 sha3 intent system.state evidence = .ok (receipt, next)) :
    Consistent start (system.commit receipt next) := by
  obtain ⟨-, ⟨replayed, rfl⟩ | ⟨first, sequence, free, recordable, records⟩⟩ := commit_eq_ok ran
  · -- a replay leaves the state and the commits as they were
    have commits := committed_commit system receipt system.state
    rw [if_pos replayed] at commits
    refine ⟨consistent.free, consistent.recordable, consistent.sorted, ?_, consistent.sequence, ?_⟩
    · rw [commits]
      exact consistent.commits
    · intro state member
      unfold EffectSystem.commit at member
      rw [if_pos replayed] at member
      exact consistent.earlier state member
  · have commits := committed_commit system receipt next
    rw [first, if_neg false_ne_true] at commits
    have sorted := sortByKey_perm (fun r : IdempotencyRecord => byteOrder r.key)
      (system.state.committedIdempotency ++ [recordOf receipt])
    have perm : next.committedIdempotency.Perm
        (system.state.committedIdempotency ++ [recordOf receipt]) := by
      rw [records]
      exact sorted
    refine ⟨free, recordable.perm perm, ?_, ?_, ?_, ?_⟩
    · have strict := sortedRecords_strict recordable.distinct
      rw [← records] at strict
      exact strict
    · rw [commits, map_append]
      exact perm.trans (consistent.commits.append_right _)
    · show next.nextSequence = start + (next.committedIdempotency.length : Int)
      rw [perm.length_eq, length_append, length_singleton, sequence, consistent.sequence]
      omega
    · intro state member
      unfold EffectSystem.commit at member
      rw [first, if_neg false_ne_true] at member
      show state.nextSequence < next.nextSequence
      rcases mem_append.mp member with before | here
      · have := consistent.earlier state before
        omega
      · rw [mem_singleton.mp here]
        omega

theorem effectStep_of_ok
    (ran : commitRecoveryEffectV0 sha3 intent system.state evidence = .ok (receipt, next)) :
    (effectStep sha3 system (.commit intent evidence)).2 = system.commit receipt next := by
  simp only [effectStep, ran]

theorem effectStep_of_error {fault : Fault}
    (ran : commitRecoveryEffectV0 sha3 intent system.state evidence = .error fault) :
    (effectStep sha3 system (.commit intent evidence)).2 = system := by
  simp only [effectStep, ran]

theorem step_consistent {start : Int} (consistent : Consistent start system) (call : EffectCall) :
    Consistent start (effectStep sha3 system call).2 := by
  cases call with
  | prepare permit key number => exact consistent
  | commit intent evidence =>
    cases ran : commitRecoveryEffectV0 sha3 intent system.state evidence with
    | error fault => rwa [effectStep_of_error ran]
    | ok result =>
      rw [effectStep_of_ok ran]
      exact commit_consistent consistent ran
  | replay key operation => exact consistent

theorem made_consistent (made : makeRecoveryEffectStateV0 sha3 permit start [] = .ok state) :
    Consistent start ⟨state, [], []⟩ := by
  obtain ⟨recordable, sequence, records, free⟩ := make_eq_ok made
  have none : state.committedIdempotency = [] :=
    records.trans (List.perm_nil.mp (sortByKey_perm _ []))
  constructor
  · exact free
  · rw [none]
    exact recordable
  · rw [none]
    exact .nil
  · rw [none]
    exact .nil
  · rw [none, sequence]
    exact (Int.add_zero start).symm
  · exact forall_mem_nil _

theorem stale_refused (past : intent.sequence < state.nextSequence)
    (evidence : Bytes) : ∃ fault, commitRecoveryEffectV0 sha3 intent state evidence = .error fault := by
  cases ran : commitRecoveryEffectV0 sha3 intent state evidence with
  | error fault => exact ⟨fault, rfl⟩
  | ok result => exact absurd (commit_eq_ok ran).1 (ne_of_lt past)

theorem exactlyOnce_of_consistent (consistent : Consistent start system) :
    ExactlyOnce sha3 start system := by
  have commits := consistent.commits
  constructor
  · have keys := (commits.map IdempotencyRecord.key).nodup_iff.mp consistent.recordable.distinct
    rw [map_map] at keys
    exact keys
  · exact consistent.sequence
  · rw [commits.length_eq, length_map]
  · intro earlier member permit key number intent prepared evidence
    have past := consistent.earlier earlier member
    rw [← prepare_sequence prepared] at past
    exact stale_refused past evidence
  · exact consistent.sorted
  · intro receipt member
    have recorded := commits.mem_iff.mpr (mem_map_of_mem member)
    exact replay_recorded consistent.free consistent.recordable recorded

/-- From a state without records, whatever is prepared, committed and replayed, effects are
committed exactly once. -/
theorem effects_exactly_once (sha3 : Bytes → Bytes) (permit : RecoveryWritePermitV0) (start : Int)
    (state : RecoveryEffectStateV0)
    (made : makeRecoveryEffectStateV0 sha3 permit start [] = .ok state) (calls : List EffectCall) :
    ExactlyOnce sha3 start (effectsAfter sha3 state calls) := by
  refine exactlyOnce_of_consistent (trace_invariant (made_consistent made)
    fun moment member consistent => ?_).2
  have kept := @step_consistent sha3 _ start consistent moment.call
  rw [step_of_mem_trace member] at kept
  exact kept

end Runs

/-! ## A commit -/

/-- A permit of an operation. -/
def effectPermit : RecoveryWritePermitV0 where
  writerId := "writer"
  epoch := 1
  checkpointDigest := filled 5
  fencingTokenDigest := filled 8
  operationDigest := filled 7
  permitDigest := filled 9
  allowed := true
  authority := false

/-- The state that is made with the permit, from a number on. -/
def effectState (start : Nat) : RecoveryEffectStateV0 where
  checkpointDigest := filled 5
  writerId := "writer"
  epoch := 1
  nextSequence := start
  committedIdempotency := sortedRecords []
  stateDigest := checksum (effectContext ++ encode "state\x00" ++ filled 5 ++ encode "writer" ++ [0] ++
    bigEndian 8 1 ++ bigEndian 8 start ++
    (sortedRecords []).flatMap fun r => encode "I\x00" ++ r.key ++ r.operation ++ r.receiptDigest)
  authority := false

theorem effectState_made {start : Nat} (positive : 0 < start) (small : start < 256 ^ 8) :
    makeRecoveryEffectStateV0 checksum effectPermit start [] = .ok (effectState start) := by
  have permitted : ¬ (effectPermit.authority = true ∨ ¬ effectPermit.allowed = true) := by decide
  have epoch : intBytes 8 effectPermit.epoch = .ok (bigEndian 8 1) :=
    intBytes_of_range (Int.natCast_nonneg 1) (by decide)
  have number : intBytes 8 (start : Int) = .ok (bigEndian 8 start) :=
    intBytes_of_range (Int.natCast_nonneg start) small
  unfold makeRecoveryEffectStateV0
  rw [bind_raiseIf permitted, bind_raiseIf (by omega), checkRecords, bind_of_ok rfl, bind_of_ok epoch,
    bind_of_ok number]
  rfl

/-- The first intent of the permit. -/
def effectIntents : List RecoveryWriteIntentV0 :=
  (prepareRecoveryWriteIntentV0 checksum effectPermit (effectState 1) (filled 4)
    none).toOption.toList

/-- The calls of a commit that is tried twice and then replayed. -/
def effectCalls : List EffectCall := [.prepare effectPermit (filled 4) none] ++
    effectIntents.map (fun intent => .commit intent (filled 3)) ++
    effectIntents.map (fun intent => .commit intent (filled 3)) ++
    [.replay (filled 4) (filled 7)]

/-- A state is made for a later number without records, so its number is not one more than the number
of its records. -/
theorem later_start_miscounted :
    makeRecoveryEffectStateV0 checksum effectPermit 5 [] = .ok (effectState 5) ∧
      ¬ ExactlyOnce checksum 1 (effectsAfter checksum (effectState 5) []) := by
  refine ⟨@effectState_made 5 (by decide) (by decide), fun exactly => ?_⟩
  have none : (effectState 5).committedIdempotency.length = 0 :=
    (sortByKey_perm (fun r : IdempotencyRecord => byteOrder r.key) []).length_eq
  have counted : (5 : Int) = 1 + ((effectState 5).committedIdempotency.length : Int) :=
    exactly.sequence
  rw [none] at counted
  cases counted

theorem effects_exactly_once_tried_twice :
    makeRecoveryEffectStateV0 checksum effectPermit 1 [] = .ok (effectState 1) ∧
      ExactlyOnce checksum 1 (effectsAfter checksum (effectState 1) effectCalls) :=
  have made := @effectState_made 1 (by decide) (by decide)
  ⟨made, effects_exactly_once checksum effectPermit 1 _ made effectCalls⟩

end Koschei.Recovery
