import Koschei.Recovery.Histories
import Koschei.Recovery.Quorum

/-!
# What a checkpoint says of the replicas

A checkpoint does not depend on the order of the replicas, and what is verified
is what is derived. Whether the replicas it names have one history is another
matter: they are compared by the digests their journals carry, and nothing reads
that these are digests of their entries.
-/

namespace Koschei.Recovery

open Lib
open RecoveryJournalReplicaV0 (replicaId)

/-! ## The order of the replicas -/

section Order

variable {sha3 : Bytes → Bytes} {transaction : RecoveryTransactionV0}
  {replicas replicas' : List RecoveryJournalReplicaV0} {threshold : Int} {state : Nat × Bytes}

theorem length_holders_perm (perm : replicas'.Perm replicas) (state : Nat × Bytes) :
    (holders replicas' state).length = (holders replicas state).length :=
  (perm.filter _).length_eq

theorem Selected.perm (selected : Selected sha3 transaction replicas threshold state)
    (perm : replicas'.Perm replicas) : Selected sha3 transaction replicas' threshold state where
  authority := selected.authority
  positive := selected.positive
  bounded := by
    rw [perm.length_eq]
    exact selected.bounded
  distinct := (perm.map _).nodup_iff.mpr selected.distinct
  valid r member := selected.valid r (perm.subset member)
  quorum := by
    rw [length_holders_perm perm]
    exact selected.quorum
  longest other := by
    rw [length_holders_perm perm]
    exact selected.longest other
  ahead r member := selected.ahead r (perm.subset member)
  sequence := selected.sequence
  threshold := selected.threshold

theorem sortedIds_perm {ids ids' : List String} (perm : ids'.Perm ids) :
    sortedIds ids' = sortedIds ids :=
  sortByKey_eq_of_perm perm fun _ _ _ _ same => same

theorem candidateOf_perm (perm : replicas'.Perm replicas) :
    candidateOf replicas' state = candidateOf replicas state := by
  have ids : sortedIds ((holders replicas' state).map replicaId) =
      sortedIds ((holders replicas state).map replicaId) :=
    sortedIds_perm ((perm.filter _).map _)
  unfold candidateOf
  rw [ids]

theorem checkpointOf_perm (perm : replicas'.Perm replicas)
    (distinct : (replicas.map replicaId).Nodup) :
    checkpointOf sha3 transaction replicas' threshold state =
      checkpointOf sha3 transaction replicas threshold state := by
  have snapshots : (replicas'.map snapshot).Perm (replicas.map snapshot) := perm.map _
  have divergent : divergentIds (replicas'.map snapshot) state.1 state.2 =
      divergentIds (replicas.map snapshot) state.1 state.2 :=
    sortedIds_perm ((snapshots.filter _).map _)
  have sorted : sortByKey (fun s : ReplicaSnapshot => s.replica.replicaId)
        (replicas'.map snapshot) =
      sortByKey (fun s : ReplicaSnapshot => s.replica.replicaId) (replicas.map snapshot) := by
    refine sortByKey_eq_of_perm snapshots ?_
    intro a first b second same
    obtain ⟨r, inside, rfl⟩ := mem_map.mp first
    obtain ⟨r', inside', rfl⟩ := mem_map.mp second
    rw [inj_on_of_nodup_map distinct (perm.subset inside) (perm.subset inside') same]
  unfold checkpointOf checkpointText
  dsimp only
  rw [candidateOf_perm perm, divergent, sorted]

variable {checkpoint : RecoveryCheckpointV0}

theorem derive_perm (perm : replicas'.Perm replicas)
    (derived : deriveRecoveryCheckpointV0 sha3 transaction replicas threshold = .ok checkpoint) :
    deriveRecoveryCheckpointV0 sha3 transaction replicas' threshold = .ok checkpoint := by
  obtain ⟨state, selected, rfl⟩ := derive_eq_ok.mp derived
  exact derive_eq_ok.mpr ⟨state, selected.perm perm, (checkpointOf_perm perm selected.distinct).symm⟩

theorem verify_iff : verifyRecoveryCheckpointV0 sha3 checkpoint transaction replicas = .ok true ↔
      ∃ threshold, deriveRecoveryCheckpointV0 sha3 transaction replicas threshold = .ok checkpoint := by
  unfold verifyRecoveryCheckpointV0
  constructor
  · intro verified
    split at verified
    · cases verified
    · split at verified
      · rename_i rebuilt derived
        have same : rebuilt = checkpoint := of_decide_eq_true (ok.inj verified)
        rw [same] at derived
        exact ⟨_, derived⟩
      · cases verified
      · cases verified
  · rintro ⟨threshold, derived⟩
    obtain ⟨state, selected, rfl⟩ := derive_eq_ok.mp derived
    have plain : ¬ ((checkpointOf sha3 transaction replicas threshold state).authority = true ∨
        ¬ (checkpointOf sha3 transaction replicas threshold state).durable = true ∨
        (checkpointOf sha3 transaction replicas threshold state).splitBrain = true) := by
      simp [checkpointOf]
    have again : deriveRecoveryCheckpointV0 sha3 transaction replicas
        (checkpointOf sha3 transaction replicas threshold state).quorumThreshold =
          .ok (checkpointOf sha3 transaction replicas threshold state) := derived
    rw [if_neg plain, again]
    simp

end Order

/-! ## Agreement -/

section Agreement

variable (sha3 : Bytes → Bytes) (transaction : RecoveryTransactionV0)
  (replicas : List RecoveryJournalReplicaV0) (threshold : Int)

/-- A checkpoint of the replicas says what they agree on: the replicas it names are the durable ones
with one history, no durable replica has a longer one, every replica agrees or diverges, and neither
the order of the replicas nor another checkpoint that is verified makes a difference. -/
structure ReflectsAgreement : Prop where
  agreement : ∀ checkpoint,
    deriveRecoveryCheckpointV0 sha3 transaction replicas threshold = .ok checkpoint →
      ∃ entries : List RecoveryJournalEntryV0, entries.length = checkpoint.canonicalSequence ∧
        threshold ≤ checkpoint.agreeingReplicaIds.length ∧
        ∀ r ∈ replicas, r.replicaId ∈ checkpoint.agreeingReplicaIds ↔
          r.durable = true ∧ r.journal.entries = entries
  ahead : ∀ checkpoint,
    deriveRecoveryCheckpointV0 sha3 transaction replicas threshold = .ok checkpoint →
      ∀ r ∈ replicas, r.durable = true → r.journal.entries.length ≤ checkpoint.canonicalSequence
  partition : ∀ checkpoint,
    deriveRecoveryCheckpointV0 sha3 transaction replicas threshold = .ok checkpoint →
      (checkpoint.agreeingReplicaIds ++ checkpoint.divergentReplicaIds).Perm
        (replicas.map RecoveryJournalReplicaV0.replicaId)
  order : ∀ checkpoint,
    deriveRecoveryCheckpointV0 sha3 transaction replicas threshold = .ok checkpoint →
      ∀ replicas', replicas'.Perm replicas →
        deriveRecoveryCheckpointV0 sha3 transaction replicas' threshold = .ok checkpoint
  verified : ∀ checkpoint,
    verifyRecoveryCheckpointV0 sha3 checkpoint transaction replicas = .ok true ↔
      ∃ threshold, deriveRecoveryCheckpointV0 sha3 transaction replicas threshold = .ok checkpoint

/-- In a state that is selected, the durable replicas have one history and no other durable replica
has it, and there are no replicas that are not durable. -/
def OneHistory : Prop := ∀ state, Selected sha3 transaction replicas threshold state →
    (∀ r ∈ replicas, ∀ r' ∈ replicas, r.durable = true → r'.durable = true → r.state = state →
        (r'.state = state ↔ r'.journal.entries = r.journal.entries)) ∧
      ∀ r ∈ replicas, r.state = state → r.durable = true

variable {sha3 transaction replicas threshold} {state : Nat × Bytes}

variable {r : RecoveryJournalReplicaV0}

variable (sha3 transaction threshold) in
theorem agreeingIds_perm :
    (checkpointOf sha3 transaction replicas threshold state).agreeingReplicaIds.Perm
      ((holders replicas state).map replicaId) :=
  sortByKey_perm id _

variable (sha3 transaction threshold) in
theorem divergentIds_perm :
    (checkpointOf sha3 transaction replicas threshold state).divergentReplicaIds.Perm
      ((replicas.filter fun r => !decide (r.state = state)).map replicaId) := by
  have ids : divergentIds (replicas.map snapshot) state.1 state.2 =
      sortedIds ((replicas.filter fun r => !decide (r.state = state)).map
        replicaId) := by
    unfold divergentIds
    rw [List.filter_map, map_map]
    congr 2
    apply filter_congr
    intro r _
    rw [Function.comp_apply, ← decide_not, decide_eq_decide, ne_eq, ne_eq, ← not_and_or, not_iff_not]
    exact Prod.ext_iff.symm
  show (divergentIds (replicas.map snapshot) state.1 state.2).Perm _
  rw [ids]
  exact sortByKey_perm id _

theorem mem_agreeing (selected : Selected sha3 transaction replicas threshold state)
    (member : r ∈ replicas) :
    r.replicaId ∈ (checkpointOf sha3 transaction replicas threshold state).agreeingReplicaIds ↔
      r.durable = true ∧ r.state = state := by
  rw [(agreeingIds_perm ..).mem_iff]
  refine ⟨fun named => ?_, fun held => ?_⟩
  · obtain ⟨other, held, same⟩ := mem_map.mp named
    obtain ⟨inside, holds⟩ := mem_holders.mp held
    rw [← inj_on_of_nodup_map selected.distinct inside member same]
    exact holds
  · exact mem_map_of_mem (mem_holders.mpr ⟨member, held⟩)

theorem mem_divergent (selected : Selected sha3 transaction replicas threshold state)
    (member : r ∈ replicas) :
    r.replicaId ∈ (checkpointOf sha3 transaction replicas threshold state).divergentReplicaIds ↔
      r.state ≠ state := by
  rw [(divergentIds_perm ..).mem_iff]
  refine ⟨fun named => ?_, fun apart => ?_⟩
  · obtain ⟨other, kept, same⟩ := mem_map.mp named
    obtain ⟨inside, apart⟩ := mem_filter.mp kept
    rw [← inj_on_of_nodup_map selected.distinct inside member same]
    simpa using apart
  · exact mem_map_of_mem (mem_filter.mpr ⟨member, by simpa using apart⟩)

/-- Without replicas that are not durable in the state, every replica agrees or diverges. -/
theorem partition_of_durable (durable : ∀ r ∈ replicas, r.state = state → r.durable = true) :
    ((checkpointOf sha3 transaction replicas threshold state).agreeingReplicaIds ++
      (checkpointOf sha3 transaction replicas threshold state).divergentReplicaIds).Perm
        (replicas.map replicaId) := by
  have held : holders replicas state = replicas.filter fun r => decide (r.state = state) := by
    apply filter_congr
    intro r member
    by_cases same : r.state = state
    · rw [durable r member same, Bool.true_and]
    · rw [decide_eq_false same, Bool.and_false]
  refine ((agreeingIds_perm ..).append (divergentIds_perm ..)).trans ?_
  rw [held, ← map_append]
  exact (List.filter_append_perm _ replicas).map _

theorem reflects_of_history (one : OneHistory sha3 transaction replicas threshold) :
    ReflectsAgreement sha3 transaction replicas threshold where
  agreement checkpoint derived := by
    obtain ⟨state, selected, rfl⟩ := derive_eq_ok.mp derived
    have positive := selected.positive
    have quorum := selected.quorum
    obtain ⟨r, held⟩ : ∃ r, r ∈ holders replicas state := List.exists_mem_of_length_pos (by omega)
    obtain ⟨inside, durable, same⟩ := mem_holders.mp held
    refine ⟨r.journal.entries, congrArg fst same, ?_, fun r' member => ?_⟩
    · rw [(agreeingIds_perm ..).length_eq, length_map]
      exact quorum
    · rw [mem_agreeing selected member]
      exact and_congr_right fun durable' => (one state selected).1 r inside r' member durable durable' same
  ahead checkpoint derived := by
    obtain ⟨state, selected, rfl⟩ := derive_eq_ok.mp derived
    exact selected.ahead
  partition checkpoint derived := by
    obtain ⟨state, selected, rfl⟩ := derive_eq_ok.mp derived
    exact partition_of_durable (one state selected).2
  order _ derived _ perm := derive_perm perm derived
  verified _ := verify_iff

theorem history_of_reflects (reflects : ReflectsAgreement sha3 transaction replicas threshold) :
    OneHistory sha3 transaction replicas threshold := by
  intro state selected
  have derived := derive_eq_ok.mpr ⟨state, selected, rfl⟩
  constructor
  · intro r inside r' inside' durable durable' same
    obtain ⟨entries, -, -, named⟩ := reflects.agreement _ derived
    have own := (named r inside).mp ((mem_agreeing selected inside).mpr ⟨durable, same⟩)
    have other := (mem_agreeing selected inside').symm.trans (named r' inside')
    rw [and_iff_right durable', and_iff_right durable'] at other
    rw [own.2]
    exact other
  · intro r inside same
    have member := (reflects.partition _ derived).symm.subset (mem_map_of_mem inside)
    rcases mem_append.mp member with agreeing | divergent
    · exact ((mem_agreeing selected inside).mp agreeing).1
    · exact absurd same ((mem_divergent selected inside).mp divergent)

/-- Checkpoints of replicas reflect their agreement exactly when, in the state that is selected, the
digest a journal carries tells the histories of the replicas, and all are durable. -/
theorem reflects_agreement_iff (sha3 : Bytes → Bytes) (transaction : RecoveryTransactionV0)
    (replicas : List RecoveryJournalReplicaV0) (threshold : Int) :
    ReflectsAgreement sha3 transaction replicas threshold ↔
      OneHistory sha3 transaction replicas threshold :=
  ⟨history_of_reflects, reflects_of_history⟩

end Agreement

/-! ## Two histories under one digest -/

/-- A durable replica of a journal of one entry, with the digest of the journal of another one. -/
def shortReplica (id : String) (byte : UInt8) : RecoveryJournalReplicaV0 where
  replicaId := id
  journal := { shortJournal .prepared byte with
    journalDigest := (shortJournal .prepared 4).journalDigest }
  storageEvidenceDigest := filled 7
  durable := true
  authority := false

/-- A replica with its own journal, and one whose entry was replaced. -/
def twoReplicas : List RecoveryJournalReplicaV0 := [shortReplica "a" 4, shortReplica "b" 5]

def shortState : Nat × Bytes := (1, (shortJournal .prepared 4).journalDigest)

theorem twoReplicas_state : ∀ r ∈ twoReplicas, r.durable = true ∧ r.state = shortState := by
  unfold twoReplicas
  refine forall_mem_cons.mpr ⟨⟨rfl, rfl⟩, forall_mem_cons.mpr ⟨⟨rfl, rfl⟩, ?_⟩⟩
  exact forall_mem_nil _

theorem twoReplicas_valid : ∀ r ∈ twoReplicas, ReplicaValid checksum twoSteps r := by
  have chained : ∀ r, (verifyJournal checksum r twoSteps).toOption = some () →
      Chained checksum twoSteps r.journal := by
    intro r verified
    cases ran : verifyJournal checksum r twoSteps with
    | error fault =>
      rw [ran] at verified
      cases verified
    | ok u => exact verifyJournal_eq_ok.mp ran
  unfold twoReplicas
  refine forall_mem_cons.mpr ⟨?_, forall_mem_cons.mpr ⟨?_, forall_mem_nil _⟩⟩
  · exact ⟨rfl, by decide +kernel, by decide, by decide, chained _ (by decide +kernel), by decide⟩
  · exact ⟨rfl, by decide +kernel, by decide, by decide, chained _ (by decide +kernel), by decide⟩

theorem twoReplicas_selected : Selected checksum twoSteps twoReplicas 2 shortState where
  authority := rfl
  positive := by decide
  bounded := by decide
  distinct := by decide +kernel
  valid := twoReplicas_valid
  quorum := by
    have all : holders twoReplicas shortState = twoReplicas := by
      refine List.filter_eq_self.mpr fun r member => ?_
      obtain ⟨durable, same⟩ := twoReplicas_state r member
      rw [durable, same, decide_eq_true rfl]
      rfl
    rw [all]
    decide
  longest other enough apart := by
    obtain ⟨r, held⟩ : ∃ r, r ∈ holders twoReplicas other :=
      List.exists_mem_of_length_pos (by omega)
    obtain ⟨inside, -, same⟩ := mem_holders.mp held
    exact absurd (same.symm.trans (twoReplicas_state r inside).2) apart
  ahead r inside _ := le_of_eq (congrArg fst (twoReplicas_state r inside).2)
  sequence := by decide
  threshold := by decide

/-- Two replicas with different histories are said to agree. -/
theorem different_histories_agree :
    (∃ checkpoint, deriveRecoveryCheckpointV0 checksum twoSteps twoReplicas 2 = .ok checkpoint ∧
        "a" ∈ checkpoint.agreeingReplicaIds ∧ "b" ∈ checkpoint.agreeingReplicaIds) ∧
      (shortReplica "a" 4).journal.entries ≠ (shortReplica "b" 5).journal.entries ∧
      ¬ ReflectsAgreement checksum twoSteps twoReplicas 2 := by
  have first : shortReplica "a" 4 ∈ twoReplicas := mem_cons_self
  have second : shortReplica "b" 5 ∈ twoReplicas := mem_cons_of_mem _ mem_cons_self
  have different : (shortReplica "a" 4).journal.entries ≠ (shortReplica "b" 5).journal.entries := by
    decide +kernel
  refine ⟨⟨_, derive_eq_ok.mpr ⟨shortState, twoReplicas_selected, rfl⟩,
    (mem_agreeing twoReplicas_selected first).mpr (twoReplicas_state _ first),
    (mem_agreeing twoReplicas_selected second).mpr (twoReplicas_state _ second)⟩, different,
    fun reflects => ?_⟩
  have one := (history_of_reflects reflects shortState twoReplicas_selected).1 _ first _ second rfl rfl
    (twoReplicas_state _ first).2
  exact different (one.mp (twoReplicas_state _ second).2).symm

end Koschei.Recovery
