import Koschei.Lib.Chains
import Koschei.Recovery.Transaction

/-!
# The reality evidence ledger

`reality_evidence_ledger_v1.py` chains records of completed actions. A record is
appended when its command and outcome are known ones and its project is given by
its identity; its digest is the hash of its fields, joined with NUL bytes. The
verification of a ledger hashes the fields of every record again. It takes the
command and the outcome as they are, and the commitment of the project as any 32
bytes.
-/

namespace Koschei.Evidence

open Lib Lib.Chains
open Recovery (Bytes encode bigEndian)

/-! ## Records -/

/-- What can be raised: the error of the module, that of `int.to_bytes`, or that of
`str.encode("ascii")`. -/
inductive EvidenceFault where
  | evidence (message : String)
  | overflow
  | encoding
  deriving DecidableEq

abbrev Recorded (α : Type) : Type := Except EvidenceFault α

/-- `RealityEvidenceRecordV1`. -/
@[ext]
structure RealityEvidenceRecordV1 where
  sequence : Int
  projectCommitment : Bytes
  epoch : Int
  command : String
  authorityScopeDigest : Bytes
  artifactDigest : Bytes
  policyDigest : Bytes
  outcome : String
  previousDigest : Bytes
  recordDigest : Bytes
  deriving DecidableEq

/-- `RealityEvidenceLedgerV1`. -/
structure RealityEvidenceLedgerV1 where
  records : List RealityEvidenceRecordV1
  deriving DecidableEq

def RealityEvidenceLedgerV1.empty : RealityEvidenceLedgerV1 := ⟨[]⟩

/-- What `append_reality_evidence_v1` is given beside the ledger. -/
structure EvidenceEntry where
  projectId : Bytes
  epoch : Int
  command : String
  authorityScopeDigest : Bytes
  artifactDigest : Bytes
  policyDigest : Bytes
  outcome : String

/-- The commands that are admitted. -/
def evidenceCommands : List String := ["check", "run", "build", "quarantine", "revoke", "observe"]

/-- The outcomes that are admitted. -/
def evidenceOutcomes : List String := ["ALLOW", "DENY", "FAIL"]

/-- `_MAX_RECORDS`. -/
def maxRecords : Nat := 1000000

/-- `_CONTEXT`. -/
def evidenceContext : Bytes := encode "koschei.reality-evidence-ledger/v1\x00"

/-! ## Fields as bytes -/

def IsAscii (text : String) : Prop := ∀ c ∈ text.toList, c.toNat < 128

instance (text : String) : Decidable (IsAscii text) :=
  List.decidableBAll (fun c : Char => c.toNat < 128) text.toList

def asciiBytes (text : String) : Bytes := text.toList.map fun c => UInt8.ofNat c.toNat

/-- `text.encode("ascii")`. -/
def encodeAscii (text : String) : Recorded Bytes := do
  raiseIf (¬ IsAscii text) EvidenceFault.encoding
  .ok (asciiBytes text)

/-- `value.to_bytes(8, "big")`. -/
def eightBytes (value : Int) : Recorded Bytes := do
  raiseIf (value < 0 ∨ 2 ^ 64 ≤ value) EvidenceFault.overflow
  .ok (bigEndian 8 value.toNat)

/-- `_digest`. -/
def digestOf (value : Bytes) (label : String) : Recorded Bytes := do
  raiseIf (value.length ≠ 32) (EvidenceFault.evidence (label ++ " must be exactly 32 bytes"))
  .ok value

/-- `_epoch`. -/
def epochOf (value : Int) : Recorded Int := do
  raiseIf (¬ (1 ≤ value ∧ value ≤ 2 ^ 64 - 1))
    (EvidenceFault.evidence "evidence epoch must be a positive uint64")
  .ok value

section Ledger

variable (sha3 : Bytes → Bytes)

/-- `_GENESIS`. -/
def genesis : Bytes := sha3 (evidenceContext ++ encode "genesis")

/-- `RealityEvidenceLedgerV1.head_digest`. -/
def RealityEvidenceLedgerV1.headDigest (ledger : RealityEvidenceLedgerV1) : Bytes :=
  match ledger.records.getLast? with
  | some record => record.recordDigest
  | none => genesis sha3

/-- `project_commitment_v1`. -/
def projectCommitmentV1 (projectId : Bytes) : Recorded Bytes := do
  raiseIf (projectId.length ≠ 16 ∨ ¬ projectId.any (· != 0))
    (EvidenceFault.evidence "project id must be exactly 16 non-zero bytes")
  .ok (sha3 (evidenceContext ++ encode "project\x00" ++ projectId))

/-- `_record_digest`. -/
def recordDigest (sequence : Int) (projectCommitment : Bytes) (epoch : Int) (command : String)
    (authorityScopeDigest artifactDigest policyDigest : Bytes) (outcome : String)
    (previousDigest : Bytes) : Recorded Bytes := do
  let sequence ← eightBytes sequence
  let epoch ← eightBytes epoch
  let command ← encodeAscii command
  let outcome ← encodeAscii outcome
  .ok (sha3 (([0] : Bytes).intercalate [evidenceContext, sequence, projectCommitment, epoch,
    command, authorityScopeDigest, artifactDigest, policyDigest, outcome, previousDigest]))

/-- `append_reality_evidence_v1`. -/
def appendRealityEvidenceV1 (ledger : RealityEvidenceLedgerV1) (evidence : EvidenceEntry) :
    Recorded RealityEvidenceLedgerV1 := do
  raiseIf (maxRecords ≤ ledger.records.length)
    (EvidenceFault.evidence "evidence ledger reached its bounded record limit")
  raiseIf (evidence.command ∉ evidenceCommands)
    (EvidenceFault.evidence "unsupported evidence command")
  raiseIf (evidence.outcome ∉ evidenceOutcomes)
    (EvidenceFault.evidence "unsupported evidence outcome")
  let project ← projectCommitmentV1 sha3 evidence.projectId
  let epoch ← epochOf evidence.epoch
  let authority ← digestOf evidence.authorityScopeDigest "authority scope digest"
  let artifact ← digestOf evidence.artifactDigest "artifact digest"
  let policy ← digestOf evidence.policyDigest "policy digest"
  let previous := ledger.headDigest sha3
  let sequence : Int := ledger.records.length + 1
  let digest ← recordDigest sha3 sequence project epoch evidence.command authority artifact policy
    evidence.outcome previous
  .ok ⟨ledger.records ++ [⟨sequence, project, epoch, evidence.command, authority, artifact, policy,
    evidence.outcome, previous, digest⟩]⟩

/-- The loop of `verify_reality_evidence_ledger_v1`. -/
def verifyRecords : Bytes → Int → List RealityEvidenceRecordV1 → Recorded Unit
  | _, _, [] => .ok ()
  | previous, expectedSequence, record :: records => do
    raiseIf (record.sequence ≠ expectedSequence)
      (EvidenceFault.evidence "evidence sequence is non-canonical")
    raiseIf (record.previousDigest ≠ previous)
      (EvidenceFault.evidence "evidence previous-link mismatch")
    let project ← digestOf record.projectCommitment "project commitment"
    let epoch ← epochOf record.epoch
    let authority ← digestOf record.authorityScopeDigest "authority scope digest"
    let artifact ← digestOf record.artifactDigest "artifact digest"
    let policy ← digestOf record.policyDigest "policy digest"
    let named ← digestOf record.previousDigest "previous digest"
    let expected ← recordDigest sha3 record.sequence project epoch record.command authority
      artifact policy record.outcome named
    raiseIf (record.recordDigest ≠ expected)
      (EvidenceFault.evidence "evidence record digest mismatch")
    verifyRecords record.recordDigest (expectedSequence + 1) records

/-- `verify_reality_evidence_ledger_v1`. -/
def verifyRealityEvidenceLedgerV1 (ledger : RealityEvidenceLedgerV1) : Recorded Unit := do
  raiseIf (maxRecords < ledger.records.length)
    (EvidenceFault.evidence "evidence ledger exceeds its bounded record limit")
  verifyRecords sha3 (genesis sha3) 1 ledger.records

end Ledger

/-! ## What a record hashes -/

/-- What is hashed for a record. -/
def RealityEvidenceRecordV1.payload (record : RealityEvidenceRecordV1) : Bytes :=
  ([0] : Bytes).intercalate [evidenceContext, bigEndian 8 record.sequence.toNat,
    record.projectCommitment, bigEndian 8 record.epoch.toNat, asciiBytes record.command,
    record.authorityScopeDigest, record.artifactDigest, record.policyDigest,
    asciiBytes record.outcome, record.previousDigest]

/-- The fields of a record are what can be hashed, and its digest is their hash. -/
structure Genuine (sha3 : Bytes → Bytes) (record : RealityEvidenceRecordV1) : Prop where
  sequence : 0 ≤ record.sequence ∧ record.sequence < 2 ^ 64
  project : record.projectCommitment.length = 32
  epoch : 1 ≤ record.epoch ∧ record.epoch < 2 ^ 64
  command : IsAscii record.command
  authority : record.authorityScopeDigest.length = 32
  artifact : record.artifactDigest.length = 32
  policy : record.policyDigest.length = 32
  outcome : IsAscii record.outcome
  previous : record.previousDigest.length = 32
  digest : record.recordDigest = sha3 record.payload

section Specifications

variable {sha3 : Bytes → Bytes} {bytes : Bytes}

theorem eightBytes_eq_ok {value : Int} : eightBytes value = .ok bytes ↔
      (0 ≤ value ∧ value < 2 ^ 64) ∧ bytes = bigEndian 8 value.toNat := by
  unfold eightBytes
  constructor
  · intro ran
    obtain ⟨_, range, ran⟩ := bind_eq_ok ran
    cases ran
    obtain ⟨low, high⟩ := not_or.mp (raiseIf_eq_ok range)
    exact ⟨⟨not_lt.mp low, not_le.mp high⟩, rfl⟩
  · rintro ⟨⟨low, high⟩, rfl⟩
    exact bind_raiseIf (not_or.mpr ⟨not_lt.mpr low, not_le.mpr high⟩)

theorem encodeAscii_eq_ok {text : String} :
    encodeAscii text = .ok bytes ↔ IsAscii text ∧ bytes = asciiBytes text := by
  unfold encodeAscii
  constructor
  · intro ran
    obtain ⟨_, ascii, ran⟩ := bind_eq_ok ran
    cases ran
    exact ⟨not_not.mp (raiseIf_eq_ok ascii), rfl⟩
  · rintro ⟨ascii, rfl⟩
    exact bind_raiseIf (not_not.mpr ascii)

theorem digestOf_eq_ok {value result : Bytes} {label : String} :
    digestOf value label = .ok result ↔ value.length = 32 ∧ result = value := by
  unfold digestOf
  constructor
  · intro ran
    obtain ⟨_, sized, ran⟩ := bind_eq_ok ran
    cases ran
    exact ⟨not_not.mp (raiseIf_eq_ok sized), rfl⟩
  · rintro ⟨sized, rfl⟩
    exact bind_raiseIf (not_not.mpr sized)

theorem epochOf_eq_ok {value result : Int} :
    epochOf value = .ok result ↔ (1 ≤ value ∧ value < 2 ^ 64) ∧ result = value := by
  unfold epochOf
  constructor
  · intro ran
    obtain ⟨_, range, ran⟩ := bind_eq_ok ran
    cases ran
    have bounds := not_not.mp (raiseIf_eq_ok range)
    exact ⟨⟨bounds.1, by omega⟩, rfl⟩
  · rintro ⟨⟨low, high⟩, rfl⟩
    exact bind_raiseIf (not_not.mpr ⟨low, by omega⟩)

theorem projectCommitmentV1_eq_ok {projectId commitment : Bytes} :
    projectCommitmentV1 sha3 projectId = .ok commitment ↔
      (projectId.length = 16 ∧ projectId.any (· != 0) = true) ∧
        commitment = sha3 (evidenceContext ++ encode "project\x00" ++ projectId) := by
  unfold projectCommitmentV1
  constructor
  · intro ran
    obtain ⟨_, checked, ran⟩ := bind_eq_ok ran
    cases ran
    obtain ⟨sized, nonzero⟩ := not_or.mp (raiseIf_eq_ok checked)
    exact ⟨⟨not_not.mp sized, not_not.mp nonzero⟩, rfl⟩
  · rintro ⟨⟨sized, nonzero⟩, rfl⟩
    exact bind_raiseIf (not_or.mpr ⟨not_not.mpr sized, not_not.mpr nonzero⟩)

/-- A digest that is computed for the fields of a record is the hash of its payload. -/
theorem recordDigest_eq_ok {record : RealityEvidenceRecordV1} {digest : Bytes} :
    recordDigest sha3 record.sequence record.projectCommitment record.epoch record.command
        record.authorityScopeDigest record.artifactDigest record.policyDigest record.outcome
        record.previousDigest = .ok digest ↔
      (0 ≤ record.sequence ∧ record.sequence < 2 ^ 64) ∧
        (0 ≤ record.epoch ∧ record.epoch < 2 ^ 64) ∧ IsAscii record.command ∧
        IsAscii record.outcome ∧ digest = sha3 record.payload := by
  simp only [recordDigest, bind_eq_ok_iff, eightBytes_eq_ok, encodeAscii_eq_ok, and_assoc,
    exists_and_left, exists_eq_left, ok.injEq]
  rw [eq_comm (a := digest)]
  rfl

theorem verifyRecords_eq_ok {previous : Bytes} {expected : Int}
    {records : List RealityEvidenceRecordV1} :
    verifyRecords sha3 previous expected records = .ok () ↔
      Linked RealityEvidenceRecordV1.previousDigest RealityEvidenceRecordV1.recordDigest previous
          records ∧
        Numbered RealityEvidenceRecordV1.sequence expected records ∧
        ∀ record ∈ records, Genuine sha3 record := by
  induction records generalizing previous expected with
  | nil => exact ⟨fun _ => ⟨trivial, trivial, forall_mem_nil _⟩, fun _ => rfl⟩
  | cons record records ih =>
    simp only [verifyRecords, bind_eq_ok_iff, raiseIf_iff, digestOf_eq_ok, epochOf_eq_ok,
      recordDigest_eq_ok, ih, and_assoc, exists_and_left, exists_eq_left, exists_const, ne_eq,
      not_not, Linked, Numbered, forall_mem_cons]
    constructor
    · rintro ⟨number, link, project, early, late, authority, artifact, policy, previous, low, high,
        -, -, command, outcome, digest, linked, numbered, rest⟩
      exact ⟨link, linked, number, numbered, ⟨⟨low, high⟩, project, ⟨early, late⟩, command,
        authority, artifact, policy, outcome, previous, digest⟩, rest⟩
    · rintro ⟨link, linked, number, numbered, genuine, rest⟩
      have low : 0 ≤ record.epoch := by have := genuine.epoch.1; omega
      exact ⟨number, link, genuine.project, genuine.epoch.1, genuine.epoch.2, genuine.authority,
        genuine.artifact, genuine.policy, genuine.previous, genuine.sequence.1,
        genuine.sequence.2, low, genuine.epoch.2, genuine.command, genuine.outcome,
        genuine.digest, linked, numbered, rest⟩

theorem verifyRealityEvidenceLedgerV1_eq_ok {ledger : RealityEvidenceLedgerV1} :
    verifyRealityEvidenceLedgerV1 sha3 ledger = .ok () ↔ ledger.records.length ≤ maxRecords ∧
        Linked RealityEvidenceRecordV1.previousDigest RealityEvidenceRecordV1.recordDigest
          (genesis sha3) ledger.records ∧
        Numbered RealityEvidenceRecordV1.sequence 1 ledger.records ∧
        ∀ record ∈ ledger.records, Genuine sha3 record := by
  unfold verifyRealityEvidenceLedgerV1
  constructor
  · intro ran
    obtain ⟨_, bounded, ran⟩ := bind_eq_ok ran
    exact ⟨not_lt.mp (raiseIf_eq_ok bounded), verifyRecords_eq_ok.mp ran⟩
  · rintro ⟨bounded, verified⟩
    rw [bind_raiseIf (not_lt.mpr bounded)]
    exact verifyRecords_eq_ok.mpr verified

theorem headDigest_eq (ledger : RealityEvidenceLedgerV1) : ledger.headDigest sha3 =
      headFrom RealityEvidenceRecordV1.recordDigest (genesis sha3) ledger.records := by
  unfold RealityEvidenceLedgerV1.headDigest
  rcases List.eq_nil_or_concat ledger.records with none | ⟨before, last, split⟩
  · rw [none]
    rfl
  · rw [split, List.concat_eq_append, getLast?_concat, headFrom_snoc]

/-- What an append admits, and the record it adds. -/
structure Appends (sha3 : Bytes → Bytes) (ledger : RealityEvidenceLedgerV1) (evidence : EvidenceEntry)
    (record : RealityEvidenceRecordV1) : Prop where
  bounded : ledger.records.length < maxRecords
  command : record.command = evidence.command ∧ evidence.command ∈ evidenceCommands
  outcome : record.outcome = evidence.outcome ∧ evidence.outcome ∈ evidenceOutcomes
  project : projectCommitmentV1 sha3 evidence.projectId = .ok record.projectCommitment
  epoch : record.epoch = evidence.epoch ∧ 1 ≤ evidence.epoch ∧ evidence.epoch < 2 ^ 64
  authority : record.authorityScopeDigest = evidence.authorityScopeDigest ∧
    evidence.authorityScopeDigest.length = 32
  artifact : record.artifactDigest = evidence.artifactDigest ∧ evidence.artifactDigest.length = 32
  policy : record.policyDigest = evidence.policyDigest ∧ evidence.policyDigest.length = 32
  previous : record.previousDigest = ledger.headDigest sha3
  sequence : record.sequence = ledger.records.length + 1
  digest : record.recordDigest = sha3 record.payload

variable {command outcome : String}

theorem isAscii_of_command (admitted : command ∈ evidenceCommands) : IsAscii command := by
  revert command
  decide +kernel

theorem isAscii_of_outcome (admitted : outcome ∈ evidenceOutcomes) : IsAscii outcome := by
  revert outcome
  decide +kernel

/-- They have no NUL. -/
theorem zero_not_mem_of_command (admitted : command ∈ evidenceCommands) :
    (0 : UInt8) ∉ asciiBytes command := by
  revert command
  decide +kernel

theorem zero_not_mem_of_outcome (admitted : outcome ∈ evidenceOutcomes) :
    (0 : UInt8) ∉ asciiBytes outcome := by
  revert outcome
  decide +kernel

theorem appendRealityEvidenceV1_eq_ok {ledger after : RealityEvidenceLedgerV1}
    {evidence : EvidenceEntry} :
    appendRealityEvidenceV1 sha3 ledger evidence = .ok after ↔
      ∃ record, Appends sha3 ledger evidence record ∧ after = ⟨ledger.records ++ [record]⟩ := by
  simp only [appendRealityEvidenceV1, bind_eq_ok_iff, raiseIf_iff, epochOf_eq_ok, digestOf_eq_ok,
    and_assoc, exists_and_left, exists_eq_left, exists_const, not_not, not_le, ok.injEq]
  constructor
  · rintro ⟨bounded, command, outcome, project, committed, early, late, entitled, built, ruled,
      digest, hashed, rfl⟩
    let record : RealityEvidenceRecordV1 := ⟨ledger.records.length + 1, project, evidence.epoch,
      evidence.command, evidence.authorityScopeDigest, evidence.artifactDigest,
      evidence.policyDigest, evidence.outcome, ledger.headDigest sha3, digest⟩
    have own : digest = sha3 record.payload := (recordDigest_eq_ok.mp hashed).2.2.2.2
    exact ⟨record, ⟨bounded, ⟨rfl, command⟩, ⟨rfl, outcome⟩, committed, ⟨rfl, early, late⟩,
      ⟨rfl, entitled⟩, ⟨rfl, built⟩, ⟨rfl, ruled⟩, rfl, rfl, own⟩, rfl⟩
  · rintro ⟨record, appends, rfl⟩
    obtain ⟨bounded, ⟨command, known⟩, ⟨outcome, known'⟩, project, ⟨epoch, early, late⟩,
      ⟨authority, sized⟩, ⟨artifact, sized'⟩, ⟨policy, sized''⟩, previous, sequence, digest⟩ := appends
    have few : ledger.records.length < 1000000 := bounded
    have hashed : recordDigest sha3 record.sequence record.projectCommitment record.epoch
        record.command record.authorityScopeDigest record.artifactDigest record.policyDigest
        record.outcome record.previousDigest = .ok record.recordDigest := recordDigest_eq_ok.mpr
      ⟨by omega, by omega, isAscii_of_command (command ▸ known),
        isAscii_of_outcome (outcome ▸ known'), digest⟩
    refine ⟨bounded, known, known', _, project, early, late, sized, sized', sized'',
      record.recordDigest, ?_⟩
    rw [← epoch, ← command, ← outcome, ← authority, ← artifact, ← policy, ← previous, ← sequence]
    exact ⟨hashed, rfl⟩

end Specifications

end Koschei.Evidence
