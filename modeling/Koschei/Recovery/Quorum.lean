import Koschei.Recovery.Journal
import Koschei.Lib.Grouping
import Koschei.Lib.StableSort
import Mathlib.Data.String.Basic

/-!
# Checkpoints of replicas

`library_recovery_replica_quorum_v0.py` derives a checkpoint from replicas of a
journal. Durable replicas are grouped by the length of their journal and by the
digest the journal carries; a state that enough of them are in, and that no
durable replica is ahead of, becomes the checkpoint.

`Selected` says which state that is, and `derive_eq_ok` that it is the one the
checkpoint is of.
-/

namespace Koschei.Recovery

open Lib

/-! ## Replicas -/

/-- `RecoveryJournalReplicaV0`. -/
structure RecoveryJournalReplicaV0 where
  replicaId : String
  journal : RecoveryJournalV0
  storageEvidenceDigest : Bytes
  durable : Bool
  authority : Bool
  deriving DecidableEq

/-- `RecoveryCheckpointV0`. -/
structure RecoveryCheckpointV0 where
  graphDigest : Bytes
  recoveryPlanDigest : Bytes
  preparationDigest : Bytes
  canonicalJournalDigest : Bytes
  canonicalSequence : Nat
  agreeingReplicaIds : List String
  divergentReplicaIds : List String
  quorumThreshold : Int
  checkpointDigest : Bytes
  durable : Bool
  splitBrain : Bool
  authority : Bool
  deriving DecidableEq

def quorumContext : Bytes := encode "koschei.library-recovery-replica-quorum/v0\x00"

/-- The state of a replica: the length of its journal, and the digest the journal carries. -/
def RecoveryJournalReplicaV0.state (replica : RecoveryJournalReplicaV0) : Nat × Bytes :=
  (replica.journal.entries.length, replica.journal.journalDigest)

/-- A replica with its state. -/
structure ReplicaSnapshot where
  replica : RecoveryJournalReplicaV0
  state : Nat × Bytes

/-- A state that enough replicas are in. -/
structure QuorumCandidate where
  sequence : Nat
  digest : Bytes
  agreeing : List String
  deriving DecidableEq

/-- `sorted(ids)`. -/
def sortedIds (ids : List String) : List String := sortByKey id ids

section Hashes

variable (sha3 : Bytes → Bytes)

/-- The journal of a replica is classified; the faults of its module become one of this module. -/
def verifyJournal (replica : RecoveryJournalReplicaV0) (transaction : RecoveryTransactionV0) :
    Guarded Unit :=
  match classifyRecoveryResumeV0 sha3 replica.journal transaction with
  | .ok _ => .ok ()
  | .error (.journal _) => .error (.quorum "replica journal verification failed")
  | .error fault => .error fault

/-- `_validate_replica`. -/
def validateReplica (replica : RecoveryJournalReplicaV0) (transaction : RecoveryTransactionV0) :
    Guarded (Nat × Bytes) := do
  raiseIf replica.authority (Fault.quorum "authority-free recovery journal replica required")
  raiseIf (replica.replicaId = "" ∨ 96 < replica.replicaId.length)
    (Fault.quorum "invalid replica identity")
  let evidence ← digest32 .quorum replica.storageEvidenceDigest "storage_evidence_digest"
  raiseIf (evidence = zeros) (Fault.quorum "storage evidence cannot be empty")
  verifyJournal sha3 replica transaction
  raiseIf (replica.journal.entries = []) (Fault.quorum "replica journal cannot be empty")
  .ok replica.state

/-- The replicas with their states, after replicas with some ids. -/
def snapshotsOf (transaction : RecoveryTransactionV0) : List String → List RecoveryJournalReplicaV0 →
    Guarded (List ReplicaSnapshot)
  | _, [] => .ok []
  | ids, replica :: replicas => do
    raiseIf (replica.replicaId ∈ ids) (Fault.quorum "duplicate replica identity forbidden")
    let state ← validateReplica sha3 replica transaction
    let snapshots ← snapshotsOf transaction (replica.replicaId :: ids) replicas
    .ok (⟨replica, state⟩ :: snapshots)

/-- The groups of durable replicas that are large enough. -/
def candidatesOf (snapshots : List ReplicaSnapshot) (threshold : Int) : List QuorumCandidate :=
  let groups := groupBy ReplicaSnapshot.state (snapshots.filter fun s => s.replica.durable)
  let large := groups.rows.filter fun group => decide (threshold ≤ group.2.length)
  large.map fun group =>
    ⟨group.1.1, group.1.2, sortedIds (group.2.map fun s => s.replica.replicaId)⟩

/-- The candidates with the greatest sequence. -/
def longest (candidates : List QuorumCandidate) : List QuorumCandidate :=
  let maxSequence := ((candidates.map QuorumCandidate.sequence).max?).getD 0
  candidates.filter fun c => decide (c.sequence = maxSequence)

def checkpointText (transaction : RecoveryTransactionV0) (snapshots : List ReplicaSnapshot)
    (canonical : QuorumCandidate) (divergent : List String) (number threshold : Bytes) : Bytes :=
  quorumContext ++ encode "checkpoint\x00" ++ transaction.graphDigest ++
    transaction.recoveryPlanDigest ++ transaction.preparationDigest ++ canonical.digest ++ number ++
    threshold ++
    (canonical.agreeing.flatMap fun id => encode "A\x00" ++ encode id ++ [0]) ++
    (divergent.flatMap fun id => encode "D\x00" ++ encode id ++ [0]) ++
    ((sortByKey (fun s : ReplicaSnapshot => s.replica.replicaId) snapshots).flatMap fun s =>
      encode "R\x00" ++ encode s.replica.replicaId ++ [0] ++ s.replica.storageEvidenceDigest ++
        (if s.replica.durable then [1] else [0]))

/-- The ids of the replicas in other states. -/
def divergentIds (snapshots : List ReplicaSnapshot) (sequence : Nat) (digest : Bytes) : List String :=
  sortedIds ((snapshots.filter fun s =>
    decide (s.state.1 ≠ sequence ∨ s.state.2 ≠ digest)).map fun s => s.replica.replicaId)

/-- The checkpoint of a candidate, unless a durable replica is ahead of it. -/
def checkpointFor (transaction : RecoveryTransactionV0) (snapshots : List ReplicaSnapshot)
    (threshold : Int) (canonical : QuorumCandidate) : Guarded RecoveryCheckpointV0 := do
  raiseIf (snapshots.any fun s => s.replica.durable && decide (canonical.sequence < s.state.1))
    (Fault.quorum "durable replica ahead of quorum checkpoint")
  let divergent := divergentIds snapshots canonical.sequence canonical.digest
  let number ← toBytes 8 canonical.sequence
  let quorum ← toBytes 4 threshold.toNat
  .ok {
    graphDigest := transaction.graphDigest
    recoveryPlanDigest := transaction.recoveryPlanDigest
    preparationDigest := transaction.preparationDigest
    canonicalJournalDigest := canonical.digest
    canonicalSequence := canonical.sequence
    agreeingReplicaIds := canonical.agreeing
    divergentReplicaIds := divergent
    quorumThreshold := threshold
    checkpointDigest :=
      sha3 (checkpointText transaction snapshots canonical divergent number quorum)
    durable := true
    splitBrain := false
    authority := false }

/-- `derive_recovery_checkpoint_v0`. -/
def deriveRecoveryCheckpointV0 (transaction : RecoveryTransactionV0)
    (replicas : List RecoveryJournalReplicaV0) (threshold : Int) : Guarded RecoveryCheckpointV0 := do
  raiseIf transaction.authority (Fault.quorum "authority-free recovery transaction required")
  raiseIf (replicas = []) (Fault.quorum "non-empty immutable replica tuple required")
  raiseIf (threshold < 1 ∨ (replicas.length : Int) < threshold)
    (Fault.quorum "quorum threshold outside replica bounds")
  let snapshots ← snapshotsOf sha3 transaction [] replicas
  let candidates := candidatesOf snapshots threshold
  raiseIf (candidates = []) (Fault.quorum "no durable journal state satisfies quorum")
  raiseIf (1 < ((longest candidates).map QuorumCandidate.digest).dedup.length)
    (Fault.quorum "split-brain: competing quorum journal histories")
  match longest candidates with
  | [] => .error .index
  | canonical :: _ => checkpointFor sha3 transaction snapshots threshold canonical

/-- `verify_recovery_checkpoint_v0`: other faults than those of this module are raised. -/
def verifyRecoveryCheckpointV0 (checkpoint : RecoveryCheckpointV0)
    (transaction : RecoveryTransactionV0) (replicas : List RecoveryJournalReplicaV0) :
    Guarded Bool :=
  if checkpoint.authority ∨ ¬ checkpoint.durable ∨ checkpoint.splitBrain then .ok false
  else match deriveRecoveryCheckpointV0 sha3 transaction replicas checkpoint.quorumThreshold with
    | .ok rebuilt => .ok (decide (rebuilt = checkpoint))
    | .error (.quorum _) => .ok false
    | .error fault => .error fault

end Hashes

/-! ## The state that is selected -/

section Selection

variable (sha3 : Bytes → Bytes) (transaction : RecoveryTransactionV0)

/-- A replica that is validated. -/
structure ReplicaValid (replica : RecoveryJournalReplicaV0) : Prop where
  authority : replica.authority = false
  named : replica.replicaId ≠ "" ∧ replica.replicaId.length ≤ 96
  sized : replica.storageEvidenceDigest.length = 32
  stored : replica.storageEvidenceDigest ≠ zeros
  chained : Chained sha3 transaction replica.journal
  entries : replica.journal.entries ≠ []

def holders (replicas : List RecoveryJournalReplicaV0) (state : Nat × Bytes) :
    List RecoveryJournalReplicaV0 :=
  replicas.filter fun r => r.durable && decide (r.state = state)

/-- What a checkpoint can be derived from, and of which state it is. -/
structure Selected (replicas : List RecoveryJournalReplicaV0) (threshold : Int)
    (state : Nat × Bytes) : Prop where
  authority : transaction.authority = false
  positive : 1 ≤ threshold
  bounded : threshold ≤ replicas.length
  distinct : (replicas.map RecoveryJournalReplicaV0.replicaId).Nodup
  valid : ∀ r ∈ replicas, ReplicaValid sha3 transaction r
  quorum : threshold ≤ (holders replicas state).length
  longest : ∀ other, threshold ≤ (holders replicas other).length → other ≠ state → other.1 < state.1
  ahead : ∀ r ∈ replicas, r.durable = true → r.journal.entries.length ≤ state.1
  sequence : state.1 < 256 ^ 8
  threshold : threshold.toNat < 256 ^ 4

variable {sha3 transaction} {replicas : List RecoveryJournalReplicaV0} {threshold : Int}
  {state : Nat × Bytes} {snapshots : List ReplicaSnapshot}

theorem mem_holders {r : RecoveryJournalReplicaV0} :
    r ∈ holders replicas state ↔ r ∈ replicas ∧ r.durable = true ∧ r.state = state := by
  unfold holders
  rw [mem_filter, and_eq_true, decide_eq_true_eq]

variable {replica : RecoveryJournalReplicaV0}

theorem verifyJournal_eq_ok {u : Unit} :
    verifyJournal sha3 replica transaction = .ok u ↔ Chained sha3 transaction replica.journal := by
  unfold verifyJournal
  constructor
  · intro ran
    split at ran
    · rename_i classified
      exact (classify_eq_ok.mp classified).1
    · cases ran
    · cases ran
  · intro chained
    rw [classify_eq_ok.mpr ⟨chained, rfl⟩]

theorem validate_eq_ok : validateReplica sha3 replica transaction = .ok state ↔
      ReplicaValid sha3 transaction replica ∧ state = replica.state := by
  simp only [validateReplica, bind_eq_ok_iff, raiseIf_iff, digest32_iff, verifyJournal_eq_ok,
    and_assoc, exists_and_left, exists_eq_left, exists_const, not_or, not_lt, not_eq_true,
    ok.injEq]
  constructor
  · rintro ⟨authority, nonempty, short, sized, stored, chained, entries, rfl⟩
    exact ⟨⟨authority, ⟨nonempty, short⟩, sized, stored, chained, entries⟩, rfl⟩
  · rintro ⟨⟨authority, ⟨nonempty, short⟩, sized, stored, chained, entries⟩, rfl⟩
    exact ⟨authority, nonempty, short, sized, stored, chained, entries, rfl⟩

def RecoveryJournalReplicaV0.snapshot (r : RecoveryJournalReplicaV0) : ReplicaSnapshot := ⟨r, r.state⟩

export RecoveryJournalReplicaV0 (snapshot)

theorem snapshotsOf_eq_ok {ids : List String} :
    snapshotsOf sha3 transaction ids replicas = .ok snapshots ↔
      ((replicas.map RecoveryJournalReplicaV0.replicaId).Nodup ∧
          ∀ r ∈ replicas, r.replicaId ∉ ids) ∧
        (∀ r ∈ replicas, ReplicaValid sha3 transaction r) ∧
        snapshots = replicas.map snapshot := by
  induction replicas generalizing ids snapshots with
  | nil =>
    unfold snapshotsOf
    rw [ok.injEq]
    exact ⟨fun same => ⟨⟨nodup_nil, forall_mem_nil _⟩, forall_mem_nil _, same.symm⟩,
      fun all => all.2.2.symm⟩
  | cons replica replicas ih =>
    simp only [snapshotsOf, bind_eq_ok_iff, raiseIf_iff, validate_eq_ok, ih, and_assoc,
      exists_and_left, exists_eq_left, exists_const, ok.injEq, map_cons,
      nodup_cons, forall_mem_cons]
    constructor
    · rintro ⟨new, valid, distinct, apart, valids, rfl⟩
      refine ⟨?_, distinct, new, fun other member known => apart other member
        (mem_cons_of_mem _ known), valid, valids, rfl⟩
      intro again
      obtain ⟨other, member, same⟩ := mem_map.mp again
      exact apart other member (mem_cons.mpr (.inl same))
    · rintro ⟨alone, distinct, new, apart, valid, valids, rfl⟩
      refine ⟨new, valid, distinct, fun other member known => ?_, valids, rfl⟩
      rcases mem_cons.mp known with same | known
      · exact alone (mem_map.mpr ⟨other, member, same⟩)
      · exact apart other member known

/-! ## Candidates -/

def candidateOf (replicas : List RecoveryJournalReplicaV0) (state : Nat × Bytes) :
    QuorumCandidate :=
  ⟨state.1, state.2, sortedIds ((holders replicas state).map RecoveryJournalReplicaV0.replicaId)⟩

variable {c : QuorumCandidate}

theorem mem_candidatesOf (positive : 1 ≤ threshold) :
    c ∈ candidatesOf (replicas.map snapshot) threshold ↔
      ∃ state, threshold ≤ (holders replicas state).length ∧ c = candidateOf replicas state := by
  have durable : (replicas.map snapshot).filter
      (fun s => s.replica.durable) =
        (replicas.filter RecoveryJournalReplicaV0.durable).map snapshot := by
    rw [List.filter_map]
    rfl
  have members : ∀ state : Nat × Bytes, ((replicas.filter RecoveryJournalReplicaV0.durable).map
          snapshot).filter (fun s => decide (s.state = state)) =
        (holders replicas state).map snapshot := by
    intro state
    rw [List.filter_map, List.filter_filter]
    unfold holders
    congr 1
    apply filter_congr
    intro r _
    rw [Bool.and_comm]
    rfl
  unfold candidatesOf
  rw [durable, mem_map]
  constructor
  · rintro ⟨⟨state, group⟩, large, rfl⟩
    obtain ⟨member, enough⟩ := mem_filter.mp large
    obtain ⟨-, rfl⟩ := mem_groupBy.mp member
    have enough := of_decide_eq_true enough
    dsimp only at enough ⊢
    rw [members, length_map] at enough
    refine ⟨state, enough, ?_⟩
    rw [members, map_map]
    rfl
  · rintro ⟨state, enough, rfl⟩
    obtain ⟨r, held⟩ : ∃ r, r ∈ holders replicas state := List.exists_mem_of_length_pos (by omega)
    obtain ⟨member, isDurable, same⟩ := mem_holders.mp held
    refine ⟨(state, (holders replicas state).map snapshot),
      mem_filter.mpr ⟨mem_groupBy.mpr ⟨?_, (members state).symm⟩, ?_⟩, ?_⟩
    · rw [map_map]
      exact mem_map.mpr ⟨r, mem_filter.mpr ⟨member, isDurable⟩, same⟩
    · rw [decide_eq_true_eq, length_map]
      exact enough
    · rw [map_map]
      rfl

theorem mem_longest {candidates : List QuorumCandidate} :
    c ∈ longest candidates ↔ c ∈ candidates ∧ ∀ d ∈ candidates, d.sequence ≤ c.sequence := by
  unfold longest
  rw [mem_filter, decide_eq_true_eq]
  refine and_congr_right fun member => ?_
  cases greatest : (candidates.map QuorumCandidate.sequence).max? with
  | none =>
    rw [List.max?_eq_none_iff, map_eq_nil_iff] at greatest
    rw [greatest] at member
    cases member
  | some m =>
    obtain ⟨attained, bound⟩ := List.max?_eq_some_iff.mp greatest
    rw [getD_some]
    constructor
    · rintro rfl d other
      exact bound _ (mem_map_of_mem other)
    · intro most
      obtain ⟨d, other, rfl⟩ := mem_map.mp attained
      exact le_antisymm (bound _ (mem_map_of_mem member)) (most d other)

/-! ## Deriving -/

variable (sha3 transaction replicas threshold state)

/-- The checkpoint of a state. -/
def checkpointOf : RecoveryCheckpointV0 :=
  let snapshots := replicas.map snapshot
  let divergent := divergentIds snapshots state.1 state.2
  { graphDigest := transaction.graphDigest
    recoveryPlanDigest := transaction.recoveryPlanDigest
    preparationDigest := transaction.preparationDigest
    canonicalJournalDigest := state.2
    canonicalSequence := state.1
    agreeingReplicaIds := (candidateOf replicas state).agreeing
    divergentReplicaIds := divergent
    quorumThreshold := threshold
    checkpointDigest := sha3 (checkpointText transaction snapshots (candidateOf replicas state) divergent
      (bigEndian 8 state.1) (bigEndian 4 threshold.toNat))
    durable := true
    splitBrain := false
    authority := false }

variable {sha3 transaction replicas threshold state}

variable {checkpoint : RecoveryCheckpointV0}

theorem checkpointFor_eq_ok :
    checkpointFor sha3 transaction (replicas.map snapshot) threshold
        (candidateOf replicas state) = .ok checkpoint ↔
      (∀ r ∈ replicas, r.durable = true → r.journal.entries.length ≤ state.1) ∧
        state.1 < 256 ^ 8 ∧ threshold.toNat < 256 ^ 4 ∧
        checkpoint = checkpointOf sha3 transaction replicas threshold state := by
  have ahead : (∀ r ∈ replicas, r.durable = true → r.journal.entries.length ≤ state.1) ↔
      ¬ (replicas.map snapshot).any (fun s =>
        s.replica.durable && decide ((candidateOf replicas state).sequence < s.state.1)) = true := by
    rw [List.any_map, any_eq_true, not_exists]
    refine forall_congr' fun r => ?_
    rw [not_and, Function.comp_apply, and_eq_true, not_and, decide_eq_true_eq, not_lt]
    rfl
  simp only [checkpointFor, bind_eq_ok_iff, raiseIf_iff, toBytes_eq_ok, and_assoc, exists_and_left,
    exists_eq_left, exists_const, ok.injEq, ← ahead, @eq_comm _ checkpoint]
  rfl

/-- A state whose candidate is the only one of the greatest sequence. -/
theorem longest_iff (positive : 1 ≤ threshold) {rest : List QuorumCandidate}
    (found : longest (candidatesOf (replicas.map snapshot) threshold) = c :: rest)
    (single : ¬ 1 < ((longest (candidatesOf (replicas.map snapshot)
      threshold)).map QuorumCandidate.digest).dedup.length) :
    ∃ state, c = candidateOf replicas state ∧ threshold ≤ (holders replicas state).length ∧
      ∀ other, threshold ≤ (holders replicas other).length → other ≠ state → other.1 < state.1 := by
  have member : c ∈ longest (candidatesOf (replicas.map snapshot) threshold) := by
    rw [found]
    exact mem_cons_self
  obtain ⟨candidate, most⟩ := mem_longest.mp member
  obtain ⟨state, enough, rfl⟩ := (mem_candidatesOf positive).mp candidate
  refine ⟨state, rfl, enough, fun other enough' apart => ?_⟩
  have candidate' : candidateOf replicas other ∈ candidatesOf (replicas.map snapshot) threshold :=
    (mem_candidatesOf positive).mpr ⟨other, enough', rfl⟩
  refine lt_of_le_of_ne (most _ candidate') fun same => apart ?_
  -- Two candidates of the greatest sequence have one digest.
  have member' : candidateOf replicas other ∈ longest (candidatesOf
      (replicas.map snapshot) threshold) := by
    refine mem_longest.mpr ⟨candidate', fun d isCandidate => ?_⟩
    exact (most d isCandidate).trans (le_of_eq same.symm)
  have digests := dedup_length_le_one.mp single _ (mem_map_of_mem member') _ (mem_map_of_mem member)
  exact Prod.ext same digests

/-- A checkpoint is derived exactly when a state is selected, and it is the checkpoint of that
state. -/
theorem derive_eq_ok :
    deriveRecoveryCheckpointV0 sha3 transaction replicas threshold = .ok checkpoint ↔
      ∃ state, Selected sha3 transaction replicas threshold state ∧
        checkpoint = checkpointOf sha3 transaction replicas threshold state := by
  unfold deriveRecoveryCheckpointV0
  constructor
  · intro ran
    obtain ⟨_, authority, ran⟩ := bind_eq_ok ran
    obtain ⟨_, -, ran⟩ := bind_eq_ok ran
    obtain ⟨_, bounds, ran⟩ := bind_eq_ok ran
    obtain ⟨snapshots, taken, ran⟩ := bind_eq_ok ran
    obtain ⟨_, -, ran⟩ := bind_eq_ok ran
    obtain ⟨_, single, ran⟩ := bind_eq_ok ran
    obtain ⟨positive, bounded⟩ := not_or.mp (raiseIf_eq_ok bounds)
    rw [not_lt] at positive bounded
    obtain ⟨⟨distinct, -⟩, valid, rfl⟩ := snapshotsOf_eq_ok.mp taken
    split at ran
    · cases ran
    · rename_i canonical rest found
      obtain ⟨state, rfl, quorum, unique⟩ := longest_iff positive found (raiseIf_eq_ok single)
      obtain ⟨ahead, sequence, few, rfl⟩ := checkpointFor_eq_ok.mp ran
      exact ⟨state, ⟨eq_false_of_ne_true (raiseIf_eq_ok authority), positive, bounded, distinct, valid,
        quorum, unique, ahead, sequence, few⟩, rfl⟩
  · rintro ⟨state, selected, rfl⟩
    have nonempty : replicas ≠ [] := by
      rintro rfl
      have bounded := selected.bounded
      have positive := selected.positive
      rw [length_nil] at bounded
      omega
    have bounds : ¬ (threshold < 1 ∨ (replicas.length : Int) < threshold) :=
      not_or.mpr ⟨not_lt.mpr selected.positive, not_lt.mpr selected.bounded⟩
    have taken : snapshotsOf sha3 transaction [] replicas = .ok (replicas.map snapshot) :=
      snapshotsOf_eq_ok.mpr ⟨⟨selected.distinct, fun _ _ => not_mem_nil⟩, selected.valid, rfl⟩
    have candidate : candidateOf replicas state ∈ candidatesOf (replicas.map snapshot) threshold :=
      (mem_candidatesOf selected.positive).mpr ⟨state, selected.quorum, rfl⟩
    have candidates : candidatesOf (replicas.map snapshot) threshold ≠ [] :=
      ne_nil_of_mem candidate
    have only : ∀ c ∈ longest (candidatesOf (replicas.map snapshot)
        threshold), c = candidateOf replicas state := by
      intro c member
      obtain ⟨isCandidate, most⟩ := mem_longest.mp member
      obtain ⟨other, enough, rfl⟩ := (mem_candidatesOf selected.positive).mp isCandidate
      by_contra apart
      have shorter := selected.longest other enough (fun same => apart (by rw [same]))
      exact absurd (most _ candidate) (not_le.mpr shorter)
    have first : candidateOf replicas state ∈
        longest (candidatesOf (replicas.map snapshot) threshold) := by
      refine mem_longest.mpr ⟨candidate, fun d isCandidate => ?_⟩
      obtain ⟨other, enough, rfl⟩ := (mem_candidatesOf selected.positive).mp isCandidate
      by_cases same : other = state
      · rw [same]
      · exact le_of_lt (selected.longest other enough same)
    have single : ¬ 1 < ((longest (candidatesOf (replicas.map snapshot)
        threshold)).map QuorumCandidate.digest).dedup.length := by
      refine dedup_length_le_one.mpr ?_
      intro a isFirst b isSecond
      obtain ⟨c, inside, rfl⟩ := mem_map.mp isFirst
      obtain ⟨d, inside', rfl⟩ := mem_map.mp isSecond
      rw [only c inside, only d inside']
    rw [bind_raiseIf (ne_true_of_eq_false selected.authority), bind_raiseIf nonempty,
      bind_raiseIf bounds, bind_of_ok taken, bind_raiseIf candidates, bind_raiseIf single]
    cases found : longest (candidatesOf (replicas.map snapshot) threshold) with
    | nil =>
      rw [found] at first
      cases first
    | cons c rest =>
      have same := only c (by rw [found]; exact mem_cons_self)
      rw [same]
      exact checkpointFor_eq_ok.mpr ⟨selected.ahead, selected.sequence, selected.threshold, rfl⟩

end Selection

end Koschei.Recovery
