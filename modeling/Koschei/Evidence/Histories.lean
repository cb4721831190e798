import Koschei.Evidence.Ledger
import Koschei.Lib.Joining

/-!
# What verification says of a ledger

A ledger of records with known commands and outcomes, of projects with an
identity, is verified exactly when it was appended record by record, and then no
other ledger that is verified has its head. Without that, a record with any
command is verified; and where a command or an outcome contains a NUL byte, the
bytes that are hashed can be read in two ways.
-/

namespace Koschei.Evidence

open Lib Lib.Chains
open Recovery (Bytes encode bigEndian)

/-! ## Reading a payload -/

theorem length_bigEndian (width value : Nat) : (bigEndian width value).length = width := by
  induction width generalizing value with
  | zero => rfl
  | succ width ih => rw [bigEndian, length_append, ih, length_singleton]

theorem bigEndian_inj {width first second : Nat} (small : first < 256 ^ width)
    (small' : second < 256 ^ width) (same : bigEndian width first = bigEndian width second) :
    first = second := by
  induction width generalizing first second with
  | zero =>
    rw [Nat.pow_zero] at small small'
    omega
  | succ width ih =>
    rw [bigEndian, bigEndian] at same
    obtain ⟨high, low⟩ := append_inj' same rfl
    have quotients : first / 256 = second / 256 := by
      refine ih (Nat.div_lt_of_lt_mul ?_) (Nat.div_lt_of_lt_mul ?_) high
      · rwa [Nat.pow_succ, Nat.mul_comm] at small
      · rwa [Nat.pow_succ, Nat.mul_comm] at small'
    have remainders : first % 256 = second % 256 := by
      have bytes := congrArg UInt8.toNat (cons.inj low).1
      simpa using bytes
    omega

/-- Numbers of 64 bits are read back from their eight bytes. -/
theorem eq_of_bigEndian {first second : Int} (range : 0 ≤ first ∧ first < 2 ^ 64)
    (range' : 0 ≤ second ∧ second < 2 ^ 64)
    (same : bigEndian 8 first.toNat = bigEndian 8 second.toNat) : first = second := by
  have values : first.toNat = second.toNat := bigEndian_inj (by omega) (by omega) same
  omega

theorem asciiBytes_inj {first second : String} (ascii : IsAscii first) (ascii' : IsAscii second)
    (same : asciiBytes first = asciiBytes second) : first = second := by
  have decoded : ∀ text : String, IsAscii text →
      (asciiBytes text).map (fun b => Char.ofNat b.toNat) = text.toList := by
    intro text small
    unfold asciiBytes
    rw [map_map]
    refine (map_congr_left fun c member => ?_).trans (map_id _)
    have fits : c.toNat < 256 := Nat.lt_trans (small c member) (by decide)
    rw [Function.comp_apply, UInt8.toNat_ofNat', Nat.mod_eq_of_lt fits, Char.ofNat_toNat, id]
  rw [← toList_inj, ← decoded first ascii, ← decoded second ascii', same]

theorem payload_eq (record : RealityEvidenceRecordV1) :
    record.payload = evidenceContext ++ 0 :: (bigEndian 8 record.sequence.toNat ++ 0 ::
      (record.projectCommitment ++ 0 :: (bigEndian 8 record.epoch.toNat ++ 0 ::
        ((asciiBytes record.command ++ 0 :: ((record.authorityScopeDigest ++ 0 ::
          (record.artifactDigest ++ 0 :: record.policyDigest)) ++ 0 ::
            asciiBytes record.outcome)) ++ 0 :: record.previousDigest)))) := by
  unfold RealityEvidenceRecordV1.payload
  simp only [Joining.intercalate_cons (cons_ne_nil _ _), intercalate_singleton,
    append_assoc, cons_append]

/-- What is hashed settles a genuine record when it has no NUL in its texts. -/
theorem eq_of_payload {sha3 : Bytes → Bytes} {record record' : RealityEvidenceRecordV1}
    (genuine : Genuine sha3 record) (genuine' : Genuine sha3 record')
    (command : (0 : UInt8) ∉ asciiBytes record.command)
    (outcome : (0 : UInt8) ∉ asciiBytes record.outcome)
    (same : record.payload = record'.payload) : record = record' := by
  have digest : record.recordDigest = record'.recordDigest := by
    rw [genuine.digest, genuine'.digest, same]
  rw [payload_eq, payload_eq] at same
  have afterContext := (cons.inj (append_cancel_left same)).2
  obtain ⟨sequence, afterSequence⟩ := append_inj afterContext
    (by rw [length_bigEndian, length_bigEndian])
  obtain ⟨project, afterProject⟩ := append_inj (cons.inj afterSequence).2
    (genuine.project.trans genuine'.project.symm)
  obtain ⟨epoch, afterEpoch⟩ := append_inj (cons.inj afterProject).2
    (by rw [length_bigEndian, length_bigEndian])
  -- The last field has its width, so it is read from the right.
  obtain ⟨texts, last⟩ := append_inj' (cons.inj afterEpoch).2
    (by rw [length_cons, length_cons, genuine.previous, genuine'.previous])
  obtain ⟨sameCommand, digests, sameOutcome⟩ := Joining.delimited_inj command outcome
    (by simp only [length_append, length_cons, genuine.authority, genuine.artifact,
      genuine.policy, genuine'.authority, genuine'.artifact, genuine'.policy]) texts
  obtain ⟨authority, rest⟩ := append_inj digests (genuine.authority.trans genuine'.authority.symm)
  obtain ⟨artifact, rest⟩ := append_inj (cons.inj rest).2
    (genuine.artifact.trans genuine'.artifact.symm)
  have inEpoch := genuine.epoch
  have inEpoch' := genuine'.epoch
  exact RealityEvidenceRecordV1.ext (eq_of_bigEndian genuine.sequence genuine'.sequence sequence)
    project (eq_of_bigEndian (by omega) (by omega) epoch)
    (asciiBytes_inj genuine.command genuine'.command sameCommand) authority artifact
    (cons.inj rest).2 (asciiBytes_inj genuine.outcome genuine'.outcome sameOutcome)
    (cons.inj last).2 digest

theorem payload_ne_genesis (record : RealityEvidenceRecordV1) :
    record.payload ≠ evidenceContext ++ encode "genesis" := by
  intro same
  rw [payload_eq] at same
  have rest := append_cancel_left same
  have letters : encode "genesis" = [103, 101, 110, 101, 115, 105, 115] := by decide +kernel
  rw [letters] at rest
  exact absurd (cons.inj rest).1 (by decide)

/-! ## Ledgers that were appended -/

/-- The ledger was appended record by record. -/
inductive Appended (sha3 : Bytes → Bytes) : RealityEvidenceLedgerV1 → Prop where
  | empty : Appended sha3 .empty
  | append {ledger after : RealityEvidenceLedgerV1} {evidence : EvidenceEntry}
      (before : Appended sha3 ledger)
      (ran : appendRealityEvidenceV1 sha3 ledger evidence = .ok after) : Appended sha3 after

/-- The command and the outcome are admitted ones, and the commitment is that of a project. -/
structure Admissible (sha3 : Bytes → Bytes) (record : RealityEvidenceRecordV1) : Prop where
  command : record.command ∈ evidenceCommands
  outcome : record.outcome ∈ evidenceOutcomes
  project : ∃ projectId, projectCommitmentV1 sha3 projectId = .ok record.projectCommitment

section Histories

variable {sha3 : Bytes → Bytes}

variable {ledger : RealityEvidenceLedgerV1}

theorem Appended.admissible (appended : Appended sha3 ledger) :
    ∀ record ∈ ledger.records, Admissible sha3 record := by
  induction appended with
  | empty => exact forall_mem_nil _
  | append before ran ih =>
    obtain ⟨record, appends, rfl⟩ := appendRealityEvidenceV1_eq_ok.mp ran
    intro other member
    rcases mem_append.mp member with earlier | last
    · exact ih other earlier
    · rw [mem_singleton.mp last]
      exact ⟨appends.command.1 ▸ appends.command.2, appends.outcome.1 ▸ appends.outcome.2,
        _, appends.project⟩

section

variable (width : ∀ message, (sha3 message).length = 32)

include width

theorem length_headDigest (genuine : ∀ record ∈ ledger.records, Genuine sha3 record) :
    (ledger.headDigest sha3).length = 32 := by
  rw [headDigest_eq]
  have cases : (ledger.records = [] ∧ headFrom RealityEvidenceRecordV1.recordDigest (genesis sha3)
        ledger.records = genesis sha3) ∨ ∃ record ∈ ledger.records,
      headFrom RealityEvidenceRecordV1.recordDigest (genesis sha3) ledger.records =
        record.recordDigest := headFrom_cases (genesis sha3) ledger.records
  rcases cases with ⟨-, head⟩ | ⟨record, member, head⟩
  · rw [head]
    exact width _
  · rw [head, (genuine record member).digest]
    exact width _

variable {record : RealityEvidenceRecordV1}

theorem Appends.genuine {evidence : EvidenceEntry} (appends : Appends sha3 ledger evidence record)
    (before : ∀ earlier ∈ ledger.records, Genuine sha3 earlier) : Genuine sha3 record := by
  obtain ⟨bounded, ⟨command, known⟩, ⟨outcome, known'⟩, project, ⟨epoch, inEpoch⟩,
    ⟨authority, sized⟩, ⟨artifact, sized'⟩, ⟨policy, sized''⟩, previous, sequence, digest⟩ := appends
  have few : ledger.records.length < 1000000 := bounded
  refine ⟨by omega, ?_, epoch ▸ inEpoch, command ▸ isAscii_of_command known, authority ▸ sized,
    artifact ▸ sized', policy ▸ sized'', outcome ▸ isAscii_of_outcome known', ?_, digest⟩
  · rw [(projectCommitmentV1_eq_ok.mp project).2]
    exact width _
  · rw [previous]
    exact length_headDigest width before

theorem Appended.verified
    (appended : Appended sha3 ledger) : verifyRealityEvidenceLedgerV1 sha3 ledger = .ok () := by
  rw [verifyRealityEvidenceLedgerV1_eq_ok]
  induction appended with
  | empty => exact ⟨Nat.zero_le _, trivial, trivial, forall_mem_nil _⟩
  | append before ran ih =>
    obtain ⟨record, appends, rfl⟩ := appendRealityEvidenceV1_eq_ok.mp ran
    obtain ⟨-, linked, numbered, genuine⟩ := ih
    refine ⟨?_, ?_, ?_, ?_⟩
    · rw [length_append, length_singleton]
      exact appends.bounded
    · rw [linked_snoc, ← headDigest_eq]
      exact ⟨linked, appends.previous⟩
    · rw [numbered_snoc]
      refine ⟨numbered, ?_⟩
      rw [appends.sequence, Int.add_comm]
    · intro other member
      rcases mem_append.mp member with earlier | last
      · exact genuine other earlier
      · rw [mem_singleton.mp last]
        exact appends.genuine width genuine

end

theorem appended_of_verified {records : List RealityEvidenceRecordV1}
    (verified : verifyRealityEvidenceLedgerV1 sha3 ⟨records⟩ = .ok ())
    (admissible : ∀ record ∈ records, Admissible sha3 record) : Appended sha3 ⟨records⟩ := by
  induction records using reverseRecOn with
  | nil => exact .empty
  | append_singleton records record ih =>
    obtain ⟨bounded, linked, numbered, genuine⟩ := verifyRealityEvidenceLedgerV1_eq_ok.mp verified
    dsimp only at bounded linked numbered genuine
    rw [length_append, length_singleton] at bounded
    rw [linked_snoc] at linked
    rw [numbered_snoc] at numbered
    have earlier : Appended sha3 ⟨records⟩ := by
      refine ih (verifyRealityEvidenceLedgerV1_eq_ok.mpr 
        ⟨Nat.le_of_succ_le bounded, linked.1, numbered.1, ?_⟩) ?_
      · exact (forall_mem_append.mp genuine).1
      · exact (forall_mem_append.mp admissible).1
    have isLast : record ∈ records ++ [record] := mem_append_right _ mem_cons_self
    obtain ⟨command, outcome, projectId, project⟩ := admissible record isLast
    obtain ⟨-, -, epoch, -, authority, artifact, policy, -, -, digest⟩ := genuine record isLast
    have appends : Appends sha3 ⟨records⟩ ⟨projectId, record.epoch, record.command,
        record.authorityScopeDigest, record.artifactDigest, record.policyDigest,
        record.outcome⟩ record := by
      refine ⟨bounded, ⟨rfl, command⟩, ⟨rfl, outcome⟩, project, ⟨rfl, epoch⟩, ⟨rfl, authority⟩,
        ⟨rfl, artifact⟩, ⟨rfl, policy⟩, ?_, ?_, digest⟩
      · rw [headDigest_eq]
        exact linked.2
      · rw [numbered.2, Int.add_comm]
    exact .append earlier (appendRealityEvidenceV1_eq_ok.mpr ⟨record, appends, rfl⟩)

/-! ## What a head settles -/

/-- The texts that are hashed to verify a ledger. -/
def RealityEvidenceLedgerV1.hashed (ledger : RealityEvidenceLedgerV1) : List Bytes :=
  (evidenceContext ++ encode "genesis") :: ledger.records.map RealityEvidenceRecordV1.payload

/-- No two of the texts have one hash. -/
def CollisionFree (sha3 : Bytes → Bytes) (texts : List Bytes) : Prop :=
  ∀ a ∈ texts, ∀ b ∈ texts, sha3 a = sha3 b → a = b

theorem mem_hashed (member : record ∈ ledger.records) : record.payload ∈ ledger.hashed :=
  mem_cons_of_mem _ (mem_map_of_mem member)

theorem eq_of_headDigest {ledger other : RealityEvidenceLedgerV1}
    (verified : verifyRealityEvidenceLedgerV1 sha3 ledger = .ok ())
    (verified' : verifyRealityEvidenceLedgerV1 sha3 other = .ok ())
    (admissible : ∀ record ∈ ledger.records, Admissible sha3 record)
    (free : CollisionFree sha3 (ledger.hashed ++ other.hashed))
    (heads : other.headDigest sha3 = ledger.headDigest sha3) : other = ledger := by
  obtain ⟨-, linked, -, genuine⟩ := verifyRealityEvidenceLedgerV1_eq_ok.mp verified
  obtain ⟨-, linked', -, genuine'⟩ := verifyRealityEvidenceLedgerV1_eq_ok.mp verified'
  have start : (evidenceContext ++ encode "genesis") ∈ ledger.hashed ++ other.hashed :=
    mem_append_left _ mem_cons_self
  rw [headDigest_eq, headDigest_eq] at heads
  have same : ledger.records = other.records := by
    refine eq_of_headFrom linked linked' ?_ ?_ ?_ heads.symm
    · intro record member record' member' digests
      rw [(genuine record member).digest, (genuine' record' member').digest] at digests
      have payloads := free _ (mem_append_left _ (mem_hashed member)) _
        (mem_append_right _ (mem_hashed member')) digests
      exact eq_of_payload (genuine record member) (genuine' record' member')
        (zero_not_mem_of_command (admissible record member).command)
        (zero_not_mem_of_outcome (admissible record member).outcome) payloads
    · intro record member isGenesis
      rw [(genuine record member).digest] at isGenesis
      exact payload_ne_genesis record
        (free _ (mem_append_left _ (mem_hashed member)) _ start isGenesis)
    · intro record member isGenesis
      rw [(genuine' record member).digest] at isGenesis
      exact payload_ne_genesis record
        (free _ (mem_append_right _ (mem_hashed member)) _ start isGenesis)
  cases ledger
  cases other
  exact congrArg RealityEvidenceLedgerV1.mk same.symm

end Histories

/-- What the verification of a ledger is to say: its commands and outcomes are admitted, it was
appended record by record, and no other verified ledger has its head. -/
structure Attests (sha3 : Bytes → Bytes) (ledger : RealityEvidenceLedgerV1) : Prop where
  admitted : ∀ record ∈ ledger.records,
    record.command ∈ evidenceCommands ∧ record.outcome ∈ evidenceOutcomes
  appended : Appended sha3 ledger
  unique : ∀ other, verifyRealityEvidenceLedgerV1 sha3 other = .ok () →
    CollisionFree sha3 (ledger.hashed ++ other.hashed) →
      other.headDigest sha3 = ledger.headDigest sha3 → other.records = ledger.records

/-- Every ledger that was appended is verified, and a verified one is what its verification is to
say exactly when its records are admissible. -/
theorem verified_attests_iff (sha3 : Bytes → Bytes) (width : ∀ message, (sha3 message).length = 32)
    (ledger : RealityEvidenceLedgerV1) :
    (Appended sha3 ledger → verifyRealityEvidenceLedgerV1 sha3 ledger = .ok ()) ∧
      (verifyRealityEvidenceLedgerV1 sha3 ledger = .ok () →
        (Attests sha3 ledger ↔ ∀ record ∈ ledger.records, Admissible sha3 record)) := by
  refine ⟨Appended.verified width, fun verified => ⟨fun attests => ?_, fun admissible => ?_⟩⟩
  · exact attests.appended.admissible
  · refine ⟨fun record member => ?_, appended_of_verified verified admissible, ?_⟩
    · exact ⟨(admissible record member).command, (admissible record member).outcome⟩
    · intro other verified' free heads
      rw [eq_of_headDigest verified verified' admissible free heads]

/-! ## Two ledgers -/

/-- The first 32 bytes after the context, for a hash. -/
def sampledHash (message : Bytes) : Bytes := (message.drop 35 ++ replicate 32 0).take 32

theorem length_sampledHash (message : Bytes) : (sampledHash message).length = 32 := by
  unfold sampledHash
  rw [List.length_take, length_append, length_replicate]
  omega

def firstRecord (command : String) : RealityEvidenceRecordV1 :=
  let unsealed : RealityEvidenceRecordV1 := {
    sequence := 1
    projectCommitment :=
      sampledHash (evidenceContext ++ encode "project\x00" ++ replicate 16 0x11)
    epoch := 7
    command := command
    authorityScopeDigest := replicate 32 1
    artifactDigest := replicate 32 2
    policyDigest := replicate 32 3
    outcome := "ALLOW"
    previousDigest := genesis sampledHash
    recordDigest := [] }
  { unsealed with recordDigest := sampledHash unsealed.payload }

theorem firstRecord_verified {command : String} (ascii : IsAscii command) :
    verifyRealityEvidenceLedgerV1 sampledHash ⟨[firstRecord command]⟩ = .ok () := by
  have sequence : (firstRecord command).sequence = 1 := rfl
  have epoch : (firstRecord command).epoch = 7 := rfl
  have genuine : Genuine sampledHash (firstRecord command) :=
    ⟨by omega, length_sampledHash _, by omega, ascii,
      length_replicate, length_replicate, length_replicate,
      isAscii_of_outcome (mem_cons_self), length_sampledHash _, rfl⟩
  refine verifyRealityEvidenceLedgerV1_eq_ok.mpr ⟨?_, ⟨rfl, trivial⟩, ⟨rfl, trivial⟩, ?_⟩
  · exact Nat.le_of_ble_eq_true rfl
  · exact List.forall_mem_singleton.mpr genuine

theorem run_attested : Attests sampledHash ⟨[firstRecord "run"]⟩ := by
  have known : "run" ∈ evidenceCommands := mem_cons_of_mem _ mem_cons_self
  have committed : projectCommitmentV1 sampledHash (replicate 16 0x11) =
      .ok (firstRecord "run").projectCommitment :=
    projectCommitmentV1_eq_ok.mpr ⟨⟨length_replicate, rfl⟩, rfl⟩
  refine ((verified_attests_iff sampledHash length_sampledHash ⟨[firstRecord "run"]⟩).2
    (firstRecord_verified (isAscii_of_command known))).mpr ?_
  exact List.forall_mem_singleton.mpr ⟨known, mem_cons_self, _, committed⟩

/-- A record with a command that no append admits is verified. -/
theorem erase_verified :
    verifyRealityEvidenceLedgerV1 sampledHash ⟨[firstRecord "erase"]⟩ = .ok () ∧
      ¬ Attests sampledHash ⟨[firstRecord "erase"]⟩ := by
  refine ⟨firstRecord_verified (by decide +kernel), fun attests => ?_⟩
  have admitted := (attests.admitted (firstRecord "erase") (mem_singleton_self _)).1
  exact absurd admitted (by decide +kernel)

end Koschei.Evidence
