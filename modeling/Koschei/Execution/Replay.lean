import Koschei.Authorization.Requests
import Koschei.Lib.Table
import Koschei.Lib.Runs

/-!
# The replay ledgers

`ReplayLedger` keeps the record of each request in a dictionary;
`DurableReplayLedger` keeps it in a row. To finalize, the first puts a new record
of the request it is given; the second updates three columns, and puts into one
of them the digest of a record of the request it is given.

The request is known to the ledgers by its digest. Requests of one digest that
differ in the effect or the epoch make a row that does not say what its digest
says, and that is the only way to one.
-/

namespace Koschei.Execution

open Lib Authorization

/-! ## Records -/

/-- `ReplayRecord`. -/
structure ReplayRecord where
  requestDigest : String
  effectId : String
  epoch : Int
  state : String
  proofDigest : String
  decisionDigest : String
  digest : String
  deriving DecidableEq

/-- A row of `replay_records`; the request digest is its key. -/
structure ReplayRow where
  effectId : String
  epoch : Int
  state : String
  proofDigest : String
  decisionDigest : String
  recordDigest : String
  deriving DecidableEq

/-- The states a claim is finalized in. -/
def terminalStates : List String := ["COMMITTED", "REJECTED", "CONTAINED", "UNCERTAIN"]

abbrev ReplayMemory : Type := Table String ReplayRecord

abbrev ReplayTable : Type := Table String ReplayRow

/-- The checks of `finalize`, which differ in one message: the state is a terminal one, and what is
stored of the request is a claim with the proof. -/
def checkFinal (stored : Option (String × String)) (proof state missing : String) : Checked Unit := do
  refuse (state ∉ terminalStates) ("invalid replay final state: " ++ state)
  match stored with
  | none => .error missing
  | some (current, currentProof) => do
    refuse (current ≠ "CLAIMED") missing
    refuse (currentProof ≠ proof) "claimed proof digest changed before finality"

section Ledgers

variable (primitives : Primitives)

/-- `_record_digest`. -/
def recordDigest (request effect : String) (epoch : Int) (state proof decision : String) : String :=
  primitives.sha256 ("koschei.native-sigil-replay-ledger/v1\x00" ++ lines [
    "request=" ++ request, "effect=" ++ effect, "epoch=" ++ toString epoch, "state=" ++ state,
    "proof=" ++ proof, "decision=" ++ decision])

def recordOf (request : CanonicalEffectRequest) (proof decision state : String) : ReplayRecord where
  requestDigest := request.digest
  effectId := request.effectId
  epoch := request.epoch
  state := state
  proofDigest := proof
  decisionDigest := decision
  digest := recordDigest primitives request.digest request.effectId request.epoch state proof decision

/-! ## The ledger in memory -/

/-- `ReplayLedger.claim`. -/
def ReplayMemory.claim (memory : ReplayMemory) (request : CanonicalEffectRequest) (proof : String) :
    Checked (ReplayMemory × ReplayRecord) :=
  match memory.find request.digest with
  | some existing =>
    .error ("privileged request already consumed or in-flight: " ++ existing.state)
  | none =>
    let record := recordOf primitives request proof "pending" "CLAIMED"
    .ok (memory.put request.digest record, record)

/-- `ReplayLedger.finalize`. -/
def ReplayMemory.finalize (memory : ReplayMemory) (request : CanonicalEffectRequest)
    (proof decision state : String) : Checked (ReplayMemory × ReplayRecord) := do
  checkFinal ((memory.find request.digest).map fun current => (current.state, current.proofDigest))
    proof state "request was not atomically claimed"
  let record := recordOf primitives request proof decision state
  .ok (memory.put request.digest record, record)

/-! ## The durable ledger -/

/-- `_row_to_record`. -/
def rowToRecord (request : String) (row : ReplayRow) : Checked ReplayRecord := do
  let record : ReplayRecord := {
    requestDigest := request
    effectId := row.effectId
    epoch := row.epoch
    state := row.state
    proofDigest := row.proofDigest
    decisionDigest := row.decisionDigest
    digest := row.recordDigest }
  refuse (recordDigest primitives record.requestDigest record.effectId record.epoch record.state
      record.proofDigest record.decisionDigest ≠ record.digest)
    "durable replay record integrity mismatch"
  .ok record

/-- `DurableReplayLedger.get`. -/
def ReplayTable.get (table : ReplayTable) (request : String) : Checked (Option ReplayRecord) :=
  match table.find request with
  | none => .ok none
  | some row => (rowToRecord primitives request row).map some

/-- The columns of a record. -/
def ReplayRecord.row (record : ReplayRecord) : ReplayRow where
  effectId := record.effectId
  epoch := record.epoch
  state := record.state
  proofDigest := record.proofDigest
  decisionDigest := record.decisionDigest
  recordDigest := record.digest

/-- The error of a claim that was not inserted, with the state of the row. -/
def ReplayTable.alreadyClaimed (table : ReplayTable) (request : String) :
    Checked (ReplayTable × ReplayRecord) := do
  let existing ← table.get primitives request
  let state := match existing with
    | none => "UNKNOWN"
    | some existing => existing.state
  .error ("privileged request already consumed or in-flight: " ++ state)

/-- `DurableReplayLedger.claim`. A row that is there, and an epoch below zero, is an integrity
error. -/
def ReplayTable.claim (table : ReplayTable) (request : CanonicalEffectRequest) (proof : String) :
    Checked (ReplayTable × ReplayRecord) := do
  let record := recordOf primitives request proof "pending" "CLAIMED"
  let epoch ← sqlInteger request.epoch
  let inserted := if epoch < 0 then none else table.insert request.digest record.row
  match inserted with
  | some table => .ok (table, record)
  | none => table.alreadyClaimed primitives request.digest

/-- A row whose request is in flight. -/
def isClaimed (row : ReplayRow) : Bool := decide (row.state = "CLAIMED")

/-- `DurableReplayLedger.finalize`. The effect and the epoch of the row stay. -/
def ReplayTable.finalize (table : ReplayTable) (request : CanonicalEffectRequest)
    (proof decision state : String) : Checked (ReplayTable × ReplayRecord) := do
  let record := recordOf primitives request proof decision state
  checkFinal ((table.find request.digest).map fun current => (current.state, current.proofDigest))
    proof state "request was not durably claimed"
  let table := table.update request.digest isClaimed fun row =>
    { row with state := state, decisionDigest := decision, recordDigest := record.digest }
  .ok (table, record)

/-- The rows that are turned into records, one after the other. -/
def rowsToRecords : List (String × ReplayRow) → Checked (List ReplayRecord)
  | [] => .ok []
  | (request, row) :: rows => do
    let record ← rowToRecord primitives request row
    let records ← rowsToRecords rows
    .ok (record :: records)

/-- `DurableReplayLedger.unresolved_claims`, in the order of the request digests. -/
def ReplayTable.unresolvedClaims (table : ReplayTable) : Checked (List ReplayRecord) :=
  rowsToRecords primitives ((table.rows.filter fun entry => isClaimed entry.2).mergeSort
    fun a b => decide (a.1 ≤ b.1))

/-! ## Operations -/

/-- The operations both ledgers have. In memory, an uncertain claim is resolved by finalizing it. -/
inductive ReplayCall where
  | claim (request : CanonicalEffectRequest) (proof : String)
  | finalize (request : CanonicalEffectRequest) (proof decision state : String)
  | resolveUncertainAfterRecovery (request : CanonicalEffectRequest) (proof decision : String)
  | get (requestDigest : String)

/-- What an operation returns: a record, or a record that may be missing. -/
inductive ReplayAnswer where
  | record (record : ReplayRecord)
  | found (record : Option ReplayRecord)
  deriving DecidableEq

/-- The two ledgers side by side. -/
structure ReplayLedgers where
  memory : ReplayMemory
  durable : ReplayTable

def ReplayLedgers.empty : ReplayLedgers := ⟨.empty, .empty⟩

/-- An operation that returns a record, or raises and leaves the ledger. -/
def answered {L : Type} (ledger : L) (outcome : Checked (L × ReplayRecord)) :
    Checked ReplayAnswer × L :=
  match outcome with
  | .ok (after, record) => (.ok (.record record), after)
  | .error message => (.error message, ledger)

/-- An operation on the ledger in memory. -/
def memoryStep (memory : ReplayMemory) : ReplayCall → Checked ReplayAnswer × ReplayMemory
  | .claim request proof => answered memory (memory.claim primitives request proof)
  | .finalize request proof decision state =>
    answered memory (memory.finalize primitives request proof decision state)
  | .resolveUncertainAfterRecovery request proof decision =>
    answered memory (memory.finalize primitives request proof decision "UNCERTAIN")
  | .get requestDigest => (.ok (.found (memory.find requestDigest)), memory)

/-- An operation on the durable ledger. -/
def durableStep (table : ReplayTable) : ReplayCall → Checked ReplayAnswer × ReplayTable
  | .claim request proof => answered table (table.claim primitives request proof)
  | .finalize request proof decision state =>
    answered table (table.finalize primitives request proof decision state)
  | .resolveUncertainAfterRecovery request proof decision =>
    answered table (table.finalize primitives request proof decision "UNCERTAIN")
  | .get requestDigest => ((table.get primitives requestDigest).map .found, table)

/-- One operation on both. -/
def replayStep (ledgers : ReplayLedgers) (call : ReplayCall) :
    (Checked ReplayAnswer × Checked ReplayAnswer) × ReplayLedgers :=
  let memory := memoryStep primitives ledgers.memory call
  let durable := durableStep primitives ledgers.durable call
  ((memory.1, durable.1), ⟨memory.2, durable.2⟩)

end Ledgers

/-! ## Agreement of the ledgers -/

section Agreement

variable {primitives : Primitives}

/-- Two outcomes that are one value, or two errors. -/
def SameOutcome {α : Type} : Checked α → Checked α → Prop
  | .ok a, .ok b => a = b
  | .error _, .error _ => True
  | _, _ => False

/-- The rows have the columns of the records, and the records say what their digests say. -/
structure Agrees (primitives : Primitives) (ledgers : ReplayLedgers) : Prop where
  rows : ∀ digest, ledgers.durable.find digest = (ledgers.memory.find digest).map ReplayRecord.row
  sealing : ∀ digest record, ledgers.memory.find digest = some record →
    rowToRecord primitives digest record.row = .ok record

theorem rowToRecord_recordOf (request : CanonicalEffectRequest) (proof decision state : String) :
    rowToRecord primitives request.digest (recordOf primitives request proof decision state).row =
      .ok (recordOf primitives request proof decision state) := by
  unfold rowToRecord
  have sound : ¬ (recordDigest primitives request.digest request.effectId request.epoch state proof
      decision ≠ (recordOf primitives request proof decision state).digest) := not_not.mpr rfl
  exact (bind_of_ok (refuse_of_not sound)).trans rfl

theorem rowToRecord_eq_ok {digest : String} {row : ReplayRow} {record : ReplayRecord}
    (read : rowToRecord primitives digest row = .ok record) :
    row = record.row ∧ record.requestDigest = digest ∧
      row.recordDigest = recordDigest primitives digest row.effectId row.epoch row.state
        row.proofDigest row.decisionDigest := by
  unfold rowToRecord at read
  obtain ⟨_, sound, read⟩ := bind_eq_ok read
  cases read
  exact ⟨rfl, rfl, (not_not.mp (refuse_eq_ok sound)).symm⟩

namespace Agrees

variable {ledgers : ReplayLedgers}

theorem empty : Agrees primitives .empty where
  rows _ := rfl
  sealing digest record found := by
    have impossible : none = some record := found
    cases impossible

/-- Reading a row is looking up a record. -/
theorem get (agrees : Agrees primitives ledgers) (digest : String) :
    ledgers.durable.get primitives digest = .ok (ledgers.memory.find digest) := by
  unfold ReplayTable.get
  rw [agrees.rows]
  cases found : ledgers.memory.find digest with
  | none => rfl
  | some record =>
    rw [map_some]
    dsimp only
    rw [agrees.sealing digest record found]
    rfl

theorem written (agrees : Agrees primitives ledgers) {request : CanonicalEffectRequest}
    {proof decision state : String} {durable : ReplayTable} (row : durable.find request.digest =
      some (recordOf primitives request proof decision state).row)
    (others : ∀ digest, digest ≠ request.digest →
      durable.find digest = ledgers.durable.find digest) :
    Agrees primitives
      ⟨ledgers.memory.put request.digest (recordOf primitives request proof decision state),
        durable⟩ where
  rows digest := by
    rw [find_put]
    by_cases same : digest = request.digest
    · rw [if_pos same, same, row]
      rfl
    · rw [if_neg same, others digest same]
      exact agrees.rows digest
  sealing digest record found := by
    rw [find_put] at found
    split at found
    · rename_i same
      cases found
      rw [same]
      exact rowToRecord_recordOf request proof decision state
    · exact agrees.sealing digest record found

end Agrees

/-- The request of an operation. -/
def ReplayCall.request? : ReplayCall → Option CanonicalEffectRequest
  | .claim request _ => some request
  | .finalize request _ _ _ => some request
  | .resolveUncertainAfterRecovery request _ _ => some request
  | .get _ => none

/-- The requests of an operation have epochs that are SQLite integers, not below zero. -/
def ReplayCall.InRange (call : ReplayCall) : Prop :=
  ∀ request, call.request? = some request → 0 ≤ request.epoch ∧ request.epoch < 2 ^ 63

/-- The operation finalizes a claimed record, with a request of the same digest. -/
def Finalizes (memory : ReplayMemory) (call : ReplayCall) (request : CanonicalEffectRequest)
    (record : ReplayRecord) : Prop :=
  ∃ proof decision state, (call = .finalize request proof decision state ∨
      call = .resolveUncertainAfterRecovery request proof decision ∧ state = "UNCERTAIN") ∧
    state ∈ terminalStates ∧ memory.find request.digest = some record ∧
    record.state = "CLAIMED" ∧ record.proofDigest = proof

/-- The request has the effect and the epoch of the record. -/
def SameEffect (request : CanonicalEffectRequest) (record : ReplayRecord) : Prop :=
  record.effectId = request.effectId ∧ record.epoch = request.epoch

/-! ## What an operation does -/

section Operations

variable {memory : ReplayMemory} {table : ReplayTable} {request : CanonicalEffectRequest}
  {proof decision state : String}

theorem memory_claim_of_absent (absent : memory.find request.digest = none) :
    memory.claim primitives request proof =
      .ok (memory.put request.digest (recordOf primitives request proof "pending" "CLAIMED"),
        recordOf primitives request proof "pending" "CLAIMED") := by
  unfold ReplayMemory.claim
  rw [absent]

theorem memory_claim_of_present {existing : ReplayRecord}
    (present : memory.find request.digest = some existing) :
    ∃ message, memory.claim primitives request proof = .error message := by
  unfold ReplayMemory.claim
  rw [present]
  exact ⟨_, rfl⟩

theorem durable_claim_of_absent (low : 0 ≤ request.epoch) (high : request.epoch < 2 ^ 63)
    (absent : table.find request.digest = none) :
    ∃ after, table.insert request.digest
        (recordOf primitives request proof "pending" "CLAIMED").row = some after ∧
      table.claim primitives request proof =
        .ok (after, recordOf primitives request proof "pending" "CLAIMED") := by
  obtain ⟨after, inserted⟩ := insert_of_absent absent
    (recordOf primitives request proof "pending" "CLAIMED").row
  refine ⟨after, inserted, ?_⟩
  unfold ReplayTable.claim
  refine (bind_of_ok (sqlInteger_of_range low high)).trans ?_
  dsimp only
  rw [if_neg (not_lt.mpr low), inserted]

theorem alreadyClaimed_error (table : ReplayTable) (digest : String) :
    ∃ message, table.alreadyClaimed primitives digest = .error message := by
  unfold ReplayTable.alreadyClaimed
  cases table.get primitives digest with
  | error message => exact ⟨message, rfl⟩
  | ok existing => exact ⟨_, rfl⟩

theorem durable_claim_of_present {row : ReplayRow} (present : table.find request.digest = some row) :
    ∃ message, table.claim primitives request proof = .error message := by
  have refused : ∀ new, table.insert request.digest new = none := fun new =>
    Table.insert_eq_none.mpr ⟨row, present⟩
  unfold ReplayTable.claim
  cases sqlInteger request.epoch with
  | error message => exact ⟨message, rfl⟩
  | ok epoch =>
    obtain ⟨message, raised⟩ := @alreadyClaimed_error primitives table request.digest
    refine ⟨message, (bind_of_ok rfl).trans ?_⟩
    dsimp only
    rw [refused, ite_self, ← raised]

theorem checkFinal_cases (stored : Option (String × String)) (proof state : String) :
    (state ∈ terminalStates ∧ stored = some ("CLAIMED", proof) ∧
        ∀ missing, checkFinal stored proof state missing = .ok ()) ∨
      (¬ (state ∈ terminalStates ∧ stored = some ("CLAIMED", proof)) ∧
        ∀ missing, ∃ message, checkFinal stored proof state missing = .error message) := by
  by_cases accepted : state ∈ terminalStates ∧ stored = some ("CLAIMED", proof)
  · refine .inl ⟨accepted.1, accepted.2, fun missing => ?_⟩
    unfold checkFinal
    rw [bind_of_ok (refuse_of_not (not_not.mpr accepted.1)), accepted.2]
    dsimp only
    rw [bind_of_ok (refuse_of_not (not_not.mpr rfl))]
    exact refuse_of_not (not_not.mpr rfl)
  · refine .inr ⟨accepted, fun missing => ?_⟩
    cases outcome : checkFinal stored proof state missing with
    | error message => exact ⟨message, rfl⟩
    | ok u =>
      unfold checkFinal at outcome
      obtain ⟨_, final, outcome⟩ := bind_eq_ok outcome
      split at outcome
      · cases outcome
      · obtain ⟨_, claimed, proved⟩ := bind_eq_ok outcome
        rename_i current currentProof
        have first := not_not.mp (refuse_eq_ok claimed)
        have second := not_not.mp (refuse_eq_ok proved)
        rw [first, second] at accepted
        exact absurd ⟨not_not.mp (refuse_eq_ok final), rfl⟩ accepted

section

variable (agrees : Agrees primitives ⟨memory, table⟩)

include agrees

/-- Both ledgers finalize, or both raise. -/
theorem finalize_cases (request : CanonicalEffectRequest) (proof decision state : String) :
    (∃ record, state ∈ terminalStates ∧ memory.find request.digest = some record ∧
        record.state = "CLAIMED" ∧ record.proofDigest = proof ∧
        memory.finalize primitives request proof decision state =
          .ok (memory.put request.digest (recordOf primitives request proof decision state),
            recordOf primitives request proof decision state) ∧
        ∃ after, table.finalize primitives request proof decision state =
            .ok (after, recordOf primitives request proof decision state) ∧
          after.find request.digest = some { record.row with
            state := state
            decisionDigest := decision
            recordDigest := (recordOf primitives request proof decision state).digest } ∧
          ∀ digest, digest ≠ request.digest → after.find digest = table.find digest) ∨
      ((∀ record, ¬ (state ∈ terminalStates ∧ memory.find request.digest = some record ∧
          record.state = "CLAIMED" ∧ record.proofDigest = proof)) ∧
        (∃ message, memory.finalize primitives request proof decision state = .error message) ∧
        ∃ message, table.finalize primitives request proof decision state = .error message) := by
  have rows : table.find request.digest = (memory.find request.digest).map ReplayRecord.row :=
    agrees.rows request.digest
  have stored : (table.find request.digest).map (fun row => (row.state, row.proofDigest)) =
      (memory.find request.digest).map fun record => (record.state, record.proofDigest) := by
    rw [rows, Option.map_map]
    rfl
  rcases checkFinal_cases ((memory.find request.digest).map fun record =>
      (record.state, record.proofDigest)) proof state with
    ⟨final, found, passes⟩ | ⟨refused, raises⟩
  · obtain ⟨record, there, same⟩ := map_eq_some_iff.mp found
    obtain ⟨claimed, proved⟩ := Prod.mk.injEq .. ▸ same
    rw [there, map_some] at rows
    refine .inl ⟨record, final, there, claimed, proved, ?_, table.update request.digest isClaimed
      fun row => { row with
        state := state
        decisionDigest := decision
        recordDigest := (recordOf primitives request proof decision state).digest }, ?_, ?_, ?_⟩
    · unfold ReplayMemory.finalize
      rw [bind_of_ok (passes _)]
    · unfold ReplayTable.finalize
      rw [stored]
      exact (bind_of_ok (passes _)).trans rfl
    · exact find_update_self rows (decide_eq_true claimed)
    · exact fun digest apart => find_update_of_ne apart
  · refine .inr ⟨?_, ?_, ?_⟩
    · rintro record ⟨final, there, claimed, proved⟩
      apply refused
      rw [there, map_some, claimed, proved]
      exact ⟨final, rfl⟩
    · obtain ⟨message, raised⟩ := raises "request was not atomically claimed"
      unfold ReplayMemory.finalize
      rw [raised]
      exact ⟨message, rfl⟩
    · obtain ⟨message, raised⟩ := raises "request was not durably claimed"
      unfold ReplayTable.finalize
      rw [stored, raised]
      exact ⟨message, rfl⟩

theorem claim_agrees (low : 0 ≤ request.epoch) (high : request.epoch < 2 ^ 63) (proof : String) :
    SameOutcome (answered memory (memory.claim primitives request proof)).1
        (answered table (table.claim primitives request proof)).1 ∧
      Agrees primitives ⟨(answered memory (memory.claim primitives request proof)).2,
        (answered table (table.claim primitives request proof)).2⟩ := by
  have rows : table.find request.digest = (memory.find request.digest).map ReplayRecord.row :=
    agrees.rows request.digest
  cases found : memory.find request.digest with
  | none =>
    rw [found, map_none] at rows
    obtain ⟨after, inserted, claimed⟩ := durable_claim_of_absent low high rows
    rw [memory_claim_of_absent found, claimed]
    refine ⟨rfl, agrees.written ?_ fun digest apart => ?_⟩
    · exact (find_insert inserted).trans (if_pos rfl)
    · exact (find_insert inserted).trans (if_neg apart)
  | some existing =>
    rw [found, map_some] at rows
    obtain ⟨message, raised⟩ := @memory_claim_of_present primitives _ _ proof _ found
    obtain ⟨message', raised'⟩ := @durable_claim_of_present primitives _ _ proof _ rows
    rw [raised, raised']
    exact ⟨trivial, agrees⟩

/-- To finalize keeps the agreement when the request has the effect and the epoch of the record. -/
theorem finalize_agrees
    (same : ∀ record, state ∈ terminalStates → memory.find request.digest = some record →
      record.state = "CLAIMED" → record.proofDigest = proof → SameEffect request record) :
    SameOutcome (answered memory (memory.finalize primitives request proof decision state)).1
        (answered table (table.finalize primitives request proof decision state)).1 ∧
      Agrees primitives ⟨(answered memory (memory.finalize primitives request proof decision state)).2,
        (answered table (table.finalize primitives request proof decision state)).2⟩ := by
  rcases finalize_cases agrees request proof decision state with
    ⟨record, final, found, claimed, proved, memoryRan, after, tableRan, row, others⟩ |
    ⟨-, ⟨message, raised⟩, message', raised'⟩
  · rw [memoryRan, tableRan]
    refine ⟨rfl, agrees.written ?_ others⟩
    obtain ⟨effect, epoch⟩ := same record final found claimed proved
    refine row.trans ?_
    simp only [ReplayRecord.row, recordOf, effect, epoch, proved]
  · rw [raised, raised']
    exact ⟨trivial, agrees⟩

end

end Operations

/-- An operation keeps the agreement when it finalizes no record of another effect or epoch. -/
theorem call_agrees {ledgers : ReplayLedgers} (agrees : Agrees primitives ledgers)
    {call : ReplayCall} (range : call.InRange)
    (same : ∀ request record, Finalizes ledgers.memory call request record →
      SameEffect request record) :
    SameOutcome (replayStep primitives ledgers call).1.1 (replayStep primitives ledgers call).1.2 ∧
      Agrees primitives (replayStep primitives ledgers call).2 := by
  obtain ⟨memory, table⟩ := ledgers
  cases call with
  | claim request proof =>
    obtain ⟨low, high⟩ := range request rfl
    exact claim_agrees agrees low high proof
  | finalize request proof decision state =>
    exact finalize_agrees agrees fun record final found claimed proved =>
      same request record ⟨proof, decision, state, .inl rfl, final, found, claimed, proved⟩
  | resolveUncertainAfterRecovery request proof decision =>
    exact finalize_agrees agrees fun record final found claimed proved =>
      same request record
        ⟨proof, decision, "UNCERTAIN", .inr ⟨rfl, rfl⟩, final, found, claimed, proved⟩
  | get digest =>
    refine ⟨?_, agrees⟩
    unfold replayStep memoryStep durableStep
    dsimp only
    rw [agrees.get digest]
    rfl

end Agreement

end Koschei.Execution
