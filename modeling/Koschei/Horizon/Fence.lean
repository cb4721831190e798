import Koschei.Authorization.Texts
import Koschei.Lib.Table
import Koschei.Lib.Transactions

/-!
# The fence of the Matrix horizon

`matrix_horizon_fence_v1.py` keeps one current Hara for each Aevra, and a
tombstone for each Hara that was replaced. A transition checks inside its
transaction that the Hara it leaves has no tombstone. Nothing checks that of the
Hara it enters, nor of the one an Aevra begins with; these are only kept apart
from the Haras that are current.
-/

namespace Koschei.Horizon

open Lib Authorization

/-! ## Records -/

/-- `MatrixAdmission`, as far as the fence reads it. -/
structure MatrixAdmission where
  matrixDigest : String
  haraDigest : String
  aevraDigest : String
  veyraDigest : String
  epoch : Int
  deriving DecidableEq

/-- `HaraHead`. -/
structure HaraHead where
  veyraDigest : String
  aevraDigest : String
  matrixDigest : String
  haraDigest : String
  epoch : Int
  previousHaraDigest : Option String
  causeDigest : String
  recordDigest : String
  deriving DecidableEq

/-- A row of `matrix_hara_heads`; the Aevra is its key. -/
structure HaraHeadRow where
  veyraDigest : String
  matrixDigest : String
  haraDigest : String
  epoch : Int
  previousHaraDigest : Option String
  causeDigest : String
  recordDigest : String
  deriving DecidableEq

/-- A row of `matrix_hara_tombstones`; the Hara is its key. -/
structure HaraTombstoneRow where
  aevraDigest : String
  veyraDigest : String
  deathEpoch : Int
  successorHaraDigest : String
  causeDigest : String
  deriving DecidableEq

/-- The two tables of the fence. -/
structure FenceTables where
  heads : Table String HaraHeadRow
  tombstones : Table String HaraTombstoneRow

def FenceTables.empty : FenceTables := ⟨.empty, .empty⟩

/-- A transition that passed the checks before its transaction. -/
structure HorizonTransition where
  previous : MatrixAdmission
  successor : MatrixAdmission
  causeDigest : String
  caused : causeDigest ≠ ""
  sameAevra : previous.aevraDigest = successor.aevraDigest
  sameVeyra : previous.veyraDigest = successor.veyraDigest
  newHara : previous.haraDigest ≠ successor.haraDigest
  newMatrix : previous.matrixDigest ≠ successor.matrixDigest
  nextEpoch : successor.epoch = previous.epoch + 1

/-- The calls of a client. `require_current` makes the two that only read, one after the other. -/
inductive FenceCall where
  | initializeHead (admission : MatrixAdmission) (causeDigest : String)
  | current (aevraDigest : String)
  | isTombstoned (haraDigest : String)
  | advance (previous successor : MatrixAdmission) (causeDigest : String)

/-- What is left for the transaction of a call. -/
inductive FencePrepared where
  | initializeHead (admission : MatrixAdmission) (causeDigest : String)
  | current (aevraDigest : String)
  | isTombstoned (haraDigest : String)
  | advance (transition : HorizonTransition)

inductive FenceAnswer where
  | moved (head : HaraHead)
  | current (head : Option HaraHead)
  | isTombstoned (found : Bool)
  deriving DecidableEq

/-! ## The operations -/

/-- The checks of `advance` before its transaction. -/
def prepareAdvance (previous successor : MatrixAdmission) (causeDigest : String) :
    Checked HorizonTransition :=
  if caused : causeDigest = "" then .error "Matrix transition requires cause"
  else if aevra : previous.aevraDigest ≠ successor.aevraDigest then
    .error "Matrix transition cannot move between Aevras"
  else if veyra : previous.veyraDigest ≠ successor.veyraDigest then
    .error "Matrix transition cannot move between Veyras"
  else if hara : previous.haraDigest = successor.haraDigest then
    .error "Matrix transition requires a new Hara"
  else if matrix : previous.matrixDigest = successor.matrixDigest then
    .error "cross-Matrix transition requires a different Matrix"
  else if epoch : successor.epoch ≠ previous.epoch + 1 then
    .error "Matrix transition requires exactly one next epoch"
  else .ok ⟨previous, successor, causeDigest, caused, not_not.mp aevra, not_not.mp veyra, hara,
    matrix, not_not.mp epoch⟩

/-- The checks before the transactions. -/
def prepareCall : FenceCall → Checked FencePrepared
  | .initializeHead admission causeDigest => do
    refuse (causeDigest = "") "Matrix horizon genesis requires cause"
    .ok (.initializeHead admission causeDigest)
  | .current aevraDigest => .ok (.current aevraDigest)
  | .isTombstoned haraDigest => .ok (.isTombstoned haraDigest)
  | .advance previous successor causeDigest =>
    (prepareAdvance previous successor causeDigest).map .advance

def haraElsewhere (heads : Table String HaraHeadRow) (key haraDigest : String) : Bool :=
  heads.rows.any fun entry => entry.1 != key && entry.2.haraDigest == haraDigest

def isHeadAt (haraDigest : String) (epoch : Int) (row : HaraHeadRow) : Bool :=
  row.haraDigest == haraDigest && row.epoch == epoch

section Fence

variable (primitives : Primitives)

/-- `_record_digest`. -/
def recordDigest (veyra aevra matrix hara : String) (epoch : Int) (previous : Option String)
    (cause : String) : String :=
  primitives.sha256 ("koschei.matrix-horizon-fence/v1\x00" ++
    lines ["veyra=" ++ veyra, "aevra=" ++ aevra, "matrix=" ++ matrix, "hara=" ++ hara,
      "epoch=" ++ toString epoch, "previous=" ++ previous.getD "", "cause=" ++ cause])

def headOf (admission : MatrixAdmission) (previous : Option String) (cause : String) : HaraHead :=
  ⟨admission.veyraDigest, admission.aevraDigest, admission.matrixDigest, admission.haraDigest,
    admission.epoch, previous, cause,
    recordDigest primitives admission.veyraDigest admission.aevraDigest admission.matrixDigest
      admission.haraDigest admission.epoch previous cause⟩

/-- The columns of a head. -/
def HaraHead.row (head : HaraHead) (epoch : Int) : HaraHeadRow :=
  ⟨head.veyraDigest, head.matrixDigest, head.haraDigest, epoch, head.previousHaraDigest,
    head.causeDigest, head.recordDigest⟩

/-- The transaction of `initialize`. A failed check, a key and a Hara that are there are one
error. -/
def initializeBody (admission : MatrixAdmission) (cause : String) (tables : FenceTables) :
    Checked (FenceTables × HaraHead) := do
  let head := headOf primitives admission none cause
  let epoch ← sqlInteger admission.epoch
  refuse (epoch < 0 ∨ haraElsewhere tables.heads admission.aevraDigest admission.haraDigest)
    "Matrix horizon already initialized for Aevra"
  match tables.heads.insert admission.aevraDigest (head.row epoch) with
  | none => .error "Matrix horizon already initialized for Aevra"
  | some heads => .ok ({ tables with heads }, head)

/-- The query of `current`, and the check of what it finds. -/
def currentBody (aevraDigest : String) (tables : FenceTables) : Checked (Option HaraHead) :=
  match tables.heads.find aevraDigest with
  | none => .ok none
  | some row => do
    let expected := recordDigest primitives row.veyraDigest aevraDigest row.matrixDigest
      row.haraDigest row.epoch row.previousHaraDigest row.causeDigest
    refuse (row.recordDigest ≠ expected) "Matrix Hara head integrity mismatch"
    .ok (some ⟨row.veyraDigest, aevraDigest, row.matrixDigest, row.haraDigest, row.epoch,
      row.previousHaraDigest, row.causeDigest, row.recordDigest⟩)

/-- The transaction of `advance`. -/
def advanceBody (transition : HorizonTransition) (tables : FenceTables) :
    Checked (FenceTables × HaraHead) :=
  let previous := transition.previous
  let successor := transition.successor
  let head := headOf primitives successor (some previous.haraDigest) transition.causeDigest
  match tables.heads.find previous.aevraDigest with
  | none => .error "Matrix horizon is not initialized for Aevra"
  | some row => do
    refuse (row.haraDigest ≠ previous.haraDigest ∨ row.epoch ≠ previous.epoch ∨
        row.veyraDigest ≠ previous.veyraDigest)
      "previous Hara is not the durable current horizon"
    refuse (tables.tombstones.find previous.haraDigest ≠ none) "previous Hara is already Morth"
    let death ← sqlInteger previous.epoch
    refuse (death < 0) "CHECK constraint failed: death_epoch >= 0"
    match tables.tombstones.insert previous.haraDigest ⟨previous.aevraDigest,
        previous.veyraDigest, death, successor.haraDigest, transition.causeDigest⟩ with
    | none => .error "UNIQUE constraint failed: matrix_hara_tombstones.hara_digest"
    | some tombstones => do
      let epoch ← sqlInteger successor.epoch
      refuse (epoch < 0) "CHECK constraint failed: epoch >= 0"
      refuse (haraElsewhere tables.heads previous.aevraDigest successor.haraDigest)
        "UNIQUE constraint failed: matrix_hara_heads.hara_digest"
      let heads := tables.heads.update previous.aevraDigest (isHeadAt previous.haraDigest death)
        fun row => { row with
          matrixDigest := successor.matrixDigest
          haraDigest := successor.haraDigest
          epoch := epoch
          previousHaraDigest := some previous.haraDigest
          causeDigest := transition.causeDigest
          recordDigest := head.recordDigest }
      refuse (tables.heads.rowcount previous.aevraDigest
          (isHeadAt previous.haraDigest death) ≠ 1)
        "concurrent Matrix horizon transition rejected"
      .ok (⟨heads, tombstones⟩, head)

/-- `DurableMatrixHorizonFence`. -/
def fence : Database FenceTables FenceCall FencePrepared FenceAnswer String where
  prepare := prepareCall
  body
    | .initializeHead admission cause, tables =>
      (initializeBody primitives admission cause tables).map fun done => (done.1, .moved done.2)
    | .current aevraDigest, tables =>
      (currentBody primitives aevraDigest tables).map fun head => (tables, .current head)
    | .isTombstoned haraDigest, tables =>
      .ok (tables, .isTombstoned (tables.tombstones.find haraDigest).isSome)
    | .advance transition, tables =>
      (advanceBody primitives transition tables).map fun done => (done.1, .moved done.2)
  unavailable := "database is locked"

/-- The rest of `require_current`, once it has read the head and then the tombstones. -/
def requireCurrent (admission : MatrixAdmission) (current : Option HaraHead) (tombstoned : Bool) :
    Checked HaraHead :=
  match current with
  | none => .error "no durable current Hara for Aevra"
  | some head => do
    refuse tombstoned "Matrix admission Hara is Morth"
    refuse (head.veyraDigest ≠ admission.veyraDigest) "Matrix admission Veyra is not current"
    refuse (head.matrixDigest ≠ admission.matrixDigest) "Matrix admission Matrix is not current"
    refuse (head.haraDigest ≠ admission.haraDigest) "Matrix admission Hara is not current"
    refuse (head.epoch ≠ admission.epoch) "Matrix admission epoch is not current"
    .ok head

end Fence

/-! ## What the transactions do -/

/-- The Hara is current. -/
def IsHead (tables : FenceTables) (haraDigest : String) : Prop :=
  ∃ aevra row, tables.heads.find aevra = some row ∧ row.haraDigest = haraDigest

def IsTombstoned (tables : FenceTables) (haraDigest : String) : Prop :=
  ∃ row, tables.tombstones.find haraDigest = some row

/-- The head of the Aevra is what the admission says, its Matrix left out. -/
def IsCurrent (tables : FenceTables) (admission : MatrixAdmission) : Prop :=
  ∃ row, tables.heads.find admission.aevraDigest = some row ∧
    row.haraDigest = admission.haraDigest ∧ row.epoch = admission.epoch ∧
      row.veyraDigest = admission.veyraDigest

variable {aevra hara : String}

theorem haraElsewhere_eq_false {heads : Table String HaraHeadRow} {key hara : String}
    (apart : haraElsewhere heads key hara = false) {row : HaraHeadRow}
    (found : heads.find aevra = some row) (other : aevra ≠ key) : row.haraDigest ≠ hara := by
  intro same
  have taken : haraElsewhere heads key hara = true :=
    any_eq_true.mpr ⟨(aevra, row), Table.mem_of_find found, by simp [other, same]⟩
  rw [apart] at taken
  cases taken

theorem haraElsewhere_of_not_isHead {tables : FenceTables} (key : String)
    (unused : ¬ IsHead tables hara) : haraElsewhere tables.heads key hara = false := by
  rw [haraElsewhere, List.any_eq_false]
  rintro ⟨aevra, row⟩ member both
  rw [and_eq_true, beq_iff_eq] at both
  exact unused ⟨aevra, row, Table.find_of_mem member, both.2⟩

theorem isHeadAt_iff {epoch : Int} {row : HaraHeadRow} :
    isHeadAt hara epoch row = true ↔ row.haraDigest = hara ∧ row.epoch = epoch := by
  unfold isHeadAt
  rw [and_eq_true, beq_iff_eq, beq_iff_eq]

variable {primitives : Primitives} {tables after : FenceTables} {answer : FenceAnswer}
  {admission : MatrixAdmission}

/-- What `initialize` checks and writes. -/
theorem initializeBody_eq_ok {cause : String}
    (answered : (fence primitives).body (.initializeHead admission cause) tables =
      .ok (after, answer)) :
    (0 ≤ admission.epoch ∧ admission.epoch < 2 ^ 63 ∧ ¬ IsHead tables admission.haraDigest) ∧
      tables.heads.insert admission.aevraDigest
          ((headOf primitives admission none cause).row admission.epoch) = some after.heads ∧
        after.tombstones = tables.tombstones := by
  obtain ⟨done, ran, same⟩ : ∃ done, initializeBody primitives admission cause tables = .ok done ∧
      (done.1, FenceAnswer.moved done.2) = (after, answer) := map_eq_ok answered
  cases same
  unfold initializeBody at ran
  obtain ⟨epoch, bound, ran⟩ := bind_eq_ok ran
  have sameEpoch := sqlInteger_eq_ok bound
  subst sameEpoch
  obtain ⟨_, checked, ran⟩ := bind_eq_ok ran
  split at ran
  · cases ran
  · rename_i heads inserted
    cases ran
    obtain ⟨nonneg, apart⟩ := not_or.mp (refuse_eq_ok checked)
    refine ⟨⟨not_lt.mp nonneg, sqlInteger_lt bound, ?_⟩, inserted, rfl⟩
    rintro ⟨aevra, row, found, same⟩
    by_cases here : aevra = admission.aevraDigest
    · rw [here, (insert_eq_some inserted).1] at found
      cases found
    · exact haraElsewhere_eq_false (Bool.eq_false_of_not_eq_true apart) found here same

/-- The row that a transition writes over the old one. -/
def HorizonTransition.write (primitives : Primitives) (transition : HorizonTransition)
    (row : HaraHeadRow) : HaraHeadRow :=
  { (headOf primitives transition.successor (some transition.previous.haraDigest)
        transition.causeDigest).row transition.successor.epoch with
    veyraDigest := row.veyraDigest }

/-- What `advance` checks and writes. -/
theorem advanceBody_eq_ok {transition : HorizonTransition}
    (answered : (fence primitives).body (.advance transition) tables = .ok (after, answer)) :
    (IsCurrent tables transition.previous ∧ 0 ≤ transition.previous.epoch ∧
        transition.successor.epoch < 2 ^ 63 ∧ ¬ IsHead tables transition.successor.haraDigest) ∧
      (∃ stone, tables.tombstones.insert transition.previous.haraDigest stone =
        some after.tombstones) ∧
        after.heads = tables.heads.update transition.previous.aevraDigest
          (isHeadAt transition.previous.haraDigest transition.previous.epoch)
          (transition.write primitives) := by
  obtain ⟨done, ran, same⟩ : ∃ done, advanceBody primitives transition tables = .ok done ∧
      (done.1, FenceAnswer.moved done.2) = (after, answer) := map_eq_ok answered
  cases same
  unfold advanceBody at ran
  dsimp only at ran
  split at ran
  · cases ran
  · rename_i row found
    obtain ⟨_, current, ran⟩ := bind_eq_ok ran
    obtain ⟨_, -, ran⟩ := bind_eq_ok ran
    obtain ⟨death, bound, ran⟩ := bind_eq_ok ran
    have sameDeath := sqlInteger_eq_ok bound
    subst sameDeath
    obtain ⟨_, nonneg, ran⟩ := bind_eq_ok ran
    split at ran
    · cases ran
    · rename_i tombstones inserted
      obtain ⟨epoch, bound', ran⟩ := bind_eq_ok ran
      have sameEpoch := sqlInteger_eq_ok bound'
      subst sameEpoch
      obtain ⟨_, -, ran⟩ := bind_eq_ok ran
      obtain ⟨_, apart, ran⟩ := bind_eq_ok ran
      obtain ⟨_, -, ran⟩ := bind_eq_ok ran
      cases ran
      obtain ⟨hara, rest⟩ := not_or.mp (refuse_eq_ok current)
      obtain ⟨epoch, veyra⟩ := not_or.mp rest
      refine ⟨⟨⟨row, found, not_not.mp hara, not_not.mp epoch, not_not.mp veyra⟩,
        not_lt.mp (refuse_eq_ok nonneg), sqlInteger_lt bound', ?_⟩, ⟨_, inserted⟩, rfl⟩
      rintro ⟨aevra, other, found', same⟩
      by_cases here : aevra = transition.previous.aevraDigest
      · -- The row of this Aevra has the Hara that is left.
        rw [here, found] at found'
        cases found'
        exact transition.newHara ((not_not.mp hara).symm.trans same)
      · exact haraElsewhere_eq_false (Bool.eq_false_of_not_eq_true (refuse_eq_ok apart)) found' here
          same

theorem currentBody_eq_ok
    (answered : (fence primitives).body (.current aevra) tables = .ok (after, answer)) :
    after = tables ∧ ∃ head, answer = .current head ∧
      currentBody primitives aevra tables = .ok head := by
  obtain ⟨head, ran, same⟩ : ∃ head, currentBody primitives aevra tables = .ok head ∧
      (tables, FenceAnswer.current head) = (after, answer) := map_eq_ok answered
  cases same
  exact ⟨rfl, head, rfl, ran⟩

variable {head : HaraHead}

theorem currentBody_eq_some (ran : currentBody primitives aevra tables = .ok (some head)) :
    ∃ row, tables.heads.find aevra = some row ∧ row.veyraDigest = head.veyraDigest ∧
      row.matrixDigest = head.matrixDigest ∧ row.haraDigest = head.haraDigest ∧
        row.epoch = head.epoch := by
  unfold currentBody at ran
  split at ran
  · cases ran
  · rename_i row found
    obtain ⟨_, -, ran⟩ := bind_eq_ok ran
    cases ran
    exact ⟨row, found, rfl, rfl, rfl, rfl⟩

theorem isTombstonedBody_eq_ok
    (answered : (fence primitives).body (.isTombstoned hara) tables = .ok (after, answer)) :
    after = tables := by
  cases answered
  rfl

theorem requireCurrent_eq_ok {current : Option HaraHead} {tombstoned : Bool}
    (accepted : requireCurrent admission current tombstoned = .ok head) :
    current = some head ∧ head.veyraDigest = admission.veyraDigest ∧
      head.matrixDigest = admission.matrixDigest ∧ head.haraDigest = admission.haraDigest ∧
        head.epoch = admission.epoch := by
  unfold requireCurrent at accepted
  split at accepted
  · cases accepted
  · obtain ⟨_, -, accepted⟩ := bind_eq_ok accepted
    obtain ⟨_, veyra, accepted⟩ := bind_eq_ok accepted
    obtain ⟨_, matrix, accepted⟩ := bind_eq_ok accepted
    obtain ⟨_, hara, accepted⟩ := bind_eq_ok accepted
    obtain ⟨_, epoch, accepted⟩ := bind_eq_ok accepted
    cases accepted
    exact ⟨rfl, not_not.mp (refuse_eq_ok veyra), not_not.mp (refuse_eq_ok matrix),
      not_not.mp (refuse_eq_ok hara), not_not.mp (refuse_eq_ok epoch)⟩

end Koschei.Horizon
