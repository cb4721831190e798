import Koschei.Execution.Replay

/-!
# The durable ledger refines the one in memory

On one series of operations the two ledgers return the same, and every row can
be read, exactly when no operation finalizes a claimed record with a request of
another effect or epoch. Requests with newlines in their fields can have one
digest and differ in these.
-/

namespace Koschei.Execution

open Lib Authorization

/-! ## States -/

section Advances

variable {R : Type}

/-- Rows stay, and a row that changes goes from a claim to a terminal state. -/
def Advances (stateOf : R → String) (earlier later : Table String R) : Prop :=
  ∀ digest row, earlier.find digest = some row → ∃ row', later.find digest = some row' ∧
    (row' = row ∨ stateOf row = "CLAIMED" ∧ stateOf row' ∈ terminalStates)

theorem advances_refl (stateOf : R → String) (table : Table String R) :
    Advances stateOf table table := fun _ row found => ⟨row, found, .inl rfl⟩

variable {stateOf : R → String}

theorem advances_trans {a b c : Table String R}
    (first : Advances stateOf a b) (second : Advances stateOf b c) : Advances stateOf a c := by
  intro digest row found
  obtain ⟨row', found', moved⟩ := first digest row found
  obtain ⟨row'', found'', moved'⟩ := second digest row' found'
  refine ⟨row'', found'', ?_⟩
  rcases moved with rfl | ⟨claimed, final⟩
  · exact moved'
  · rcases moved' with rfl | ⟨again, -⟩
    · exact .inr ⟨claimed, final⟩
    · -- A terminal state is no claim.
      rw [again] at final
      exact absurd final (by decide)

theorem advances_of_written {earlier later : Table String R} {digest : String}
    {row : R} (written : later.find digest = some row)
    (replaces : ∀ old, earlier.find digest = some old →
      stateOf old = "CLAIMED" ∧ stateOf row ∈ terminalStates)
    (others : ∀ other, other ≠ digest → later.find other = earlier.find other) :
    Advances stateOf earlier later := by
  intro other old found
  by_cases same : other = digest
  · subst same
    exact ⟨row, written, .inr (replaces old found)⟩
  · exact ⟨old, (others other same).trans found, .inl rfl⟩

end Advances

section Runs

variable {primitives : Primitives} {request : CanonicalEffectRequest} {memory : ReplayMemory}
  {table : ReplayTable}

theorem claim_advances (agrees : Agrees primitives ⟨memory, table⟩)
    (low : 0 ≤ request.epoch) (high : request.epoch < 2 ^ 63) (proof : String) :
    Advances ReplayRecord.state memory (answered memory (memory.claim primitives request proof)).2 ∧
      Advances ReplayRow.state table (answered table (table.claim primitives request proof)).2 := by
  have rows : table.find request.digest = (memory.find request.digest).map ReplayRecord.row :=
    agrees.rows request.digest
  cases found : memory.find request.digest with
  | none =>
    rw [found, map_none] at rows
    obtain ⟨after, inserted, claimed⟩ := durable_claim_of_absent low high rows
    rw [memory_claim_of_absent found, claimed]
    constructor
    · refine advances_of_written ((find_put _ _ _ _).trans (if_pos rfl)) ?_
        fun other apart => (find_put _ _ _ _).trans (if_neg apart)
      intro old there
      rw [found] at there
      cases there
    · refine advances_of_written ((find_insert inserted).trans (if_pos rfl)) ?_
        fun other apart => (find_insert inserted).trans (if_neg apart)
      intro old there
      rw [rows] at there
      cases there
  | some existing =>
    rw [found, map_some] at rows
    obtain ⟨message, raised⟩ := @memory_claim_of_present primitives _ _ proof _ found
    obtain ⟨message', raised'⟩ := @durable_claim_of_present primitives _ _ proof _ rows
    rw [raised, raised']
    exact ⟨advances_refl _ _, advances_refl _ _⟩

theorem finalize_advances
    (agrees : Agrees primitives ⟨memory, table⟩) (request : CanonicalEffectRequest)
    (proof decision state : String) :
    Advances ReplayRecord.state memory
        (answered memory (memory.finalize primitives request proof decision state)).2 ∧
      Advances ReplayRow.state table
        (answered table (table.finalize primitives request proof decision state)).2 := by
  have rows : table.find request.digest = (memory.find request.digest).map ReplayRecord.row :=
    agrees.rows request.digest
  rcases finalize_cases agrees request proof decision state with
    ⟨record, final, found, claimed, -, memoryRan, after, tableRan, row, others⟩ |
    ⟨-, ⟨message, raised⟩, message', raised'⟩
  · rw [found, map_some] at rows
    rw [memoryRan, tableRan]
    constructor
    · refine advances_of_written ((find_put _ _ _ _).trans (if_pos rfl)) ?_
        fun other apart => (find_put _ _ _ _).trans (if_neg apart)
      intro old there
      rw [found] at there
      cases there
      exact ⟨claimed, final⟩
    · refine advances_of_written row ?_ others
      intro old there
      rw [rows] at there
      cases there
      exact ⟨claimed, final⟩
  · rw [raised, raised']
    exact ⟨advances_refl _ _, advances_refl _ _⟩

variable {ledgers : ReplayLedgers} {call : ReplayCall}

theorem call_advances (agrees : Agrees primitives ledgers) (range : call.InRange) :
    Advances ReplayRecord.state ledgers.memory (replayStep primitives ledgers call).2.memory ∧
      Advances ReplayRow.state ledgers.durable (replayStep primitives ledgers call).2.durable := by
  cases call with
  | claim request proof =>
    obtain ⟨low, high⟩ := range request rfl
    exact claim_advances agrees low high proof
  | finalize request proof decision state => exact finalize_advances agrees request proof decision state
  | resolveUncertainAfterRecovery request proof decision =>
    exact finalize_advances agrees request proof decision "UNCERTAIN"
  | get digest => exact ⟨advances_refl _ _, advances_refl _ _⟩

/-! ## Rows that can be read -/

theorem rowsToRecords_of_read {rows : List (String × ReplayRow)}
    (read : ∀ entry ∈ rows, ∃ record, rowToRecord primitives entry.1 entry.2 = .ok record) :
    ∃ records, rowsToRecords primitives rows = .ok records := by
  induction rows with
  | nil => exact ⟨[], rfl⟩
  | cons entry rows ih =>
    obtain ⟨first, rest⟩ := forall_mem_cons.mp read
    obtain ⟨record, one⟩ := first
    obtain ⟨records, others⟩ := ih rest
    obtain ⟨digest, row⟩ := entry
    refine ⟨record :: records, ?_⟩
    unfold rowsToRecords
    rw [bind_of_ok one, bind_of_ok others]

theorem Agrees.row_read (agrees : Agrees primitives ledgers)
    {digest : String} {row : ReplayRow} (found : ledgers.durable.find digest = some row) :
    ∃ record, rowToRecord primitives digest row = .ok record := by
  rw [agrees.rows] at found
  obtain ⟨record, there, rfl⟩ := map_eq_some_iff.mp found
  exact ⟨record, agrees.sealing digest record there⟩

theorem Agrees.unresolved (agrees : Agrees primitives ledgers) :
    ∃ records, ledgers.durable.unresolvedClaims primitives = .ok records := by
  apply rowsToRecords_of_read
  intro entry member
  rw [mem_mergeSort] at member
  exact agrees.row_read (Table.find_of_mem (mem_filter.mp member).1)

/-! ## Refinement -/

variable (primitives)

/-- On the operations, the durable ledger returns what the ledger in memory returns, every row says
what its digest says and can be read, and a request goes from a claim to one terminal state. -/
structure Refines (calls : List ReplayCall) : Prop where
  answers : ∀ moment ∈ trace (replayStep primitives) .empty calls,
    SameOutcome moment.answer.1 moment.answer.2
  reads : ∀ ledgers ∈ visited (replayStep primitives) .empty calls, ∀ digest,
    ledgers.durable.get primitives digest = .ok (ledgers.memory.find digest)
  sealing : ∀ ledgers ∈ visited (replayStep primitives) .empty calls, ∀ digest row,
    ledgers.durable.find digest = some row → row.recordDigest = recordDigest primitives digest
      row.effectId row.epoch row.state row.proofDigest row.decisionDigest
  unresolved : ∀ ledgers ∈ visited (replayStep primitives) .empty calls,
    ∃ records, ledgers.durable.unresolvedClaims primitives = .ok records
  advances : (visited (replayStep primitives) .empty calls).Pairwise fun earlier later =>
    Advances ReplayRecord.state earlier.memory later.memory ∧
      Advances ReplayRow.state earlier.durable later.durable

/-- No operation finalizes a claimed record with a request of another effect or epoch. -/
def FinalizesOwn (calls : List ReplayCall) : Prop :=
  ∀ moment ∈ trace (replayStep primitives) .empty calls, ∀ request record,
    Finalizes moment.before.memory moment.call request record → SameEffect request record

variable {primitives} {calls : List ReplayCall}

section

variable (range : ∀ call ∈ calls, call.InRange)
  (own : FinalizesOwn primitives calls)

include range own

theorem moment_agrees
    {moment : Moment ReplayLedgers ReplayCall (Checked ReplayAnswer × Checked ReplayAnswer)}
    (member : moment ∈ trace (replayStep primitives) .empty calls)
    (agrees : Agrees primitives moment.before) :
    SameOutcome moment.answer.1 moment.answer.2 ∧ Agrees primitives moment.after := by
  have outcome := call_agrees agrees (range _ (call_of_mem_trace member)) (own moment member)
  rw [step_of_mem_trace member] at outcome
  exact outcome

theorem agrees_throughout :
    ∀ ledgers ∈ visited (replayStep primitives) .empty calls, Agrees primitives ledgers :=
  visited_invariant Agrees.empty fun _ member agrees => (moment_agrees range own member agrees).2

theorem refines_of_own : Refines primitives calls where
  answers moment member :=
    (moment_agrees range own member (agrees_throughout range own _ (before_mem_visited member))).1
  reads ledgers member := (agrees_throughout range own ledgers member).get
  sealing ledgers member digest row found := by
    obtain ⟨record, read⟩ := (agrees_throughout range own ledgers member).row_read found
    exact (rowToRecord_eq_ok read).2.2
  unresolved ledgers member := (agrees_throughout range own ledgers member).unresolved
  advances := by
    have moves : ∀ moment ∈ trace (replayStep primitives) .empty calls,
        Advances ReplayRecord.state moment.before.memory moment.after.memory ∧
          Advances ReplayRow.state moment.before.durable moment.after.durable := by
      intro moment member
      have moved := call_advances (agrees_throughout range own _ (before_mem_visited member))
        (range _ (call_of_mem_trace member))
      rw [step_of_mem_trace member] at moved
      exact moved
    exact visited_pairwise (fun _ => ⟨advances_refl _ _, advances_refl _ _⟩)
      (fun _ _ _ first second =>
        ⟨advances_trans first.1 second.1, advances_trans first.2 second.2⟩) moves

end

theorem agrees_of_reads
    (reads : ∀ digest, ledgers.durable.get primitives digest = .ok (ledgers.memory.find digest)) :
    Agrees primitives ledgers := by
  have read : ∀ digest, (ledgers.durable.find digest = none ∧ ledgers.memory.find digest = none) ∨
      ∃ row record, ledgers.durable.find digest = some row ∧
        ledgers.memory.find digest = some record ∧
        rowToRecord primitives digest row = .ok record := by
    intro digest
    have got := reads digest
    unfold ReplayTable.get at got
    cases found : ledgers.durable.find digest with
    | none =>
      rw [found] at got
      exact .inl ⟨rfl, (ok.inj got).symm⟩
    | some row =>
      rw [found] at got
      obtain ⟨record, ran, same⟩ := map_eq_ok got
      exact .inr ⟨row, record, rfl, same.symm, ran⟩
  refine ⟨fun digest => ?_, fun digest record there => ?_⟩
  · rcases read digest with ⟨missing, absent⟩ | ⟨row, record, found, there, ran⟩
    · rw [missing, absent]
      rfl
    · rw [found, there, (rowToRecord_eq_ok ran).1]
      rfl
  · rcases read digest with ⟨missing, absent⟩ | ⟨row, record', found, there', ran⟩
    · rw [absent] at there
      cases there
    · rw [there'] at there
      cases there
      rw [(rowToRecord_eq_ok ran).1] at ran
      exact ran

/-- To finalize, on both ledgers: the durable row keeps the effect and the epoch of the claim. -/
theorem finalizes_step (agrees : Agrees primitives ledgers) {record : ReplayRecord}
    (finalizes : Finalizes ledgers.memory call request record) :
    ∃ written row, (replayStep primitives ledgers call).2.memory.find request.digest = some written ∧
      (replayStep primitives ledgers call).2.durable.find request.digest = some row ∧
      written.effectId = request.effectId ∧ written.epoch = request.epoch ∧
      row.effectId = record.effectId ∧ row.epoch = record.epoch := by
  obtain ⟨proof, decision, state, called, final, found, claimed, proved⟩ := finalizes
  have both : (replayStep primitives ledgers call).2 = ⟨(answered ledgers.memory
          (ledgers.memory.finalize primitives request proof decision state)).2,
        (answered ledgers.durable
          (ledgers.durable.finalize primitives request proof decision state)).2⟩ := by
    rcases called with rfl | ⟨rfl, rfl⟩
    · rfl
    · rfl
  rcases finalize_cases agrees request proof decision state with
    ⟨record', -, found', -, -, memoryRan, after, tableRan, row, -⟩ | ⟨refused, -⟩
  · rw [found] at found'
    cases found'
    rw [both, memoryRan, tableRan]
    exact ⟨_, _, (find_put _ _ _ _).trans (if_pos rfl), row, rfl, rfl, rfl, rfl⟩
  · exact absurd ⟨final, found, claimed, proved⟩ (refused record)

theorem own_of_refines (refines : Refines primitives calls) : FinalizesOwn primitives calls := by
  intro moment member request record finalizes
  have before := agrees_of_reads (refines.reads _ (before_mem_visited member))
  have after := agrees_of_reads (refines.reads _ (after_mem_visited member))
  obtain ⟨written, row, memory, durable, effect, epoch, kept, keptEpoch⟩ :=
    finalizes_step before finalizes
  rw [step_of_mem_trace member] at memory durable
  -- The row has the effect of the claim, and reads as a record with the effect of the request.
  have columns := after.rows request.digest
  rw [memory, durable, map_some, some.injEq] at columns
  subst columns
  exact ⟨kept.symm.trans effect, keptEpoch.symm.trans epoch⟩

/-- The durable ledger refines the one in memory exactly on the series in which no operation
finalizes a claimed record with a request of another effect or epoch. -/
theorem refines_iff (primitives : Primitives) (calls : List ReplayCall)
    (range : ∀ call ∈ calls, call.InRange) :
    Refines primitives calls ↔ FinalizesOwn primitives calls :=
  ⟨own_of_refines, refines_of_own range⟩

end Runs

/-! ## Two requests of one digest -/

/-- A request for an operation under an effect, sealed. -/
def vaultEffect (effect operation : String) : CanonicalEffectRequest :=
  let unsealed := { vaultRequest operation "x" with effectId := effect }
  { unsealed with digest := plainPrimitives.sha256 unsealed.sealedText }

def vaultCalls (claimed finalized : CanonicalEffectRequest) : List ReplayCall :=
  [.claim claimed "proof", .finalize finalized "proof" "decision" "COMMITTED"]

theorem vaultCalls_range (claimed finalized : CanonicalEffectRequest) (first : claimed.epoch = 1)
    (second : finalized.epoch = 1) : ∀ call ∈ vaultCalls claimed finalized, call.InRange := by
  have range : ∀ request : CanonicalEffectRequest, request.epoch = 1 →
      0 ≤ request.epoch ∧ request.epoch < 2 ^ 63 := by
    intro request one
    rw [one]
    omega
  unfold vaultCalls ReplayCall.InRange
  refine forall_mem_cons.mpr ⟨?_, forall_mem_cons.mpr ⟨?_, forall_mem_nil _⟩⟩
  · rintro request same
    cases same
    exact range _ first
  · rintro request same
    cases same
    exact range _ second

theorem refines_iff_vault :
    Refines plainPrimitives (vaultCalls (vaultEffect "effect" "read") (vaultEffect "effect" "read")) ↔
      FinalizesOwn plainPrimitives
        (vaultCalls (vaultEffect "effect" "read") (vaultEffect "effect" "read")) :=
  refines_iff plainPrimitives _ (vaultCalls_range _ _ rfl rfl)

/-- The ledgers after a claim of a request with a newline in its effect, finalized with another
request of its digest. -/
def vaultLedgers : ReplayLedgers := finalState (replayStep plainPrimitives) .empty
    (vaultCalls (vaultEffect "effect\nvault" "o") (vaultEffect "effect" "vault\no"))

theorem vaultLedgers_visited : vaultLedgers ∈ visited (replayStep plainPrimitives) .empty
    (vaultCalls (vaultEffect "effect\nvault" "o") (vaultEffect "effect" "vault\no")) :=
  mem_cons_of_mem _ (mem_cons_of_mem _ (mem_singleton_self _))

/-- Both requests are sealed, and their row cannot be read. -/
theorem finalized_row_unreadable :
    (vaultEffect "effect\nvault" "o").assertSealed plainPrimitives vaultMir = .ok () ∧
      (vaultEffect "effect" "vault\no").assertSealed plainPrimitives vaultMir = .ok () ∧
      (∀ call ∈ vaultCalls (vaultEffect "effect\nvault" "o") (vaultEffect "effect" "vault\no"),
        call.InRange) ∧
      vaultLedgers.durable.get plainPrimitives (vaultEffect "effect" "vault\no").digest =
        .error "durable replay record integrity mismatch" ∧
      ¬ Refines plainPrimitives
        (vaultCalls (vaultEffect "effect\nvault" "o") (vaultEffect "effect" "vault\no")) := by
  have unreadable : vaultLedgers.durable.get plainPrimitives
      (vaultEffect "effect" "vault\no").digest =
        .error "durable replay record integrity mismatch" := by decide +kernel
  refine ⟨by decide +kernel, by decide +kernel, vaultCalls_range _ _ rfl rfl, unreadable,
    fun refines => ?_⟩
  have read := refines.reads vaultLedgers vaultLedgers_visited
    (vaultEffect "effect" "vault\no").digest
  rw [unreadable] at read
  cases read

end Koschei.Execution
