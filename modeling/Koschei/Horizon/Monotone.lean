import Koschei.Horizon.Fence

/-!
# When the Matrix horizon never goes back

A Hara that was replaced has a tombstone and keeps it. So the fence never goes
back exactly when no transaction makes a Hara current that is tombstoned before
it, and this is the one thing the fence does not check. That the Haras of the
heads are distinct and that the heads are sealed holds in every run.
-/

namespace Koschei.Horizon

open Lib Authorization

/-! ## When a transaction is let through -/

/-- The Hara that a call makes current. -/
def FencePrepared.entering : FencePrepared → Option String
  | .initializeHead admission _ => some admission.haraDigest
  | .advance transition => some transition.successor.haraDigest
  | _ => none

/-- The fence lets the call go through. -/
def Admits (tables : FenceTables) : FencePrepared → Prop
  | .initializeHead admission _ =>
    tables.heads.find admission.aevraDigest = none ∧ ¬ IsHead tables admission.haraDigest ∧
      0 ≤ admission.epoch ∧ admission.epoch < 2 ^ 63
  | .advance transition =>
    IsCurrent tables transition.previous ∧ ¬ IsTombstoned tables transition.previous.haraDigest ∧
      ¬ IsHead tables transition.successor.haraDigest ∧
      0 ≤ transition.previous.epoch ∧ transition.successor.epoch < 2 ^ 63
  | _ => True

section Bodies

variable {primitives : Primitives} {tables after : FenceTables} {answer : FenceAnswer}

variable {hara cause : String}

theorem not_isTombstoned : ¬ IsTombstoned tables hara ↔ tables.tombstones.find hara = none := by
  unfold IsTombstoned
  cases tables.tombstones.find hara <;> simp

variable {admission : MatrixAdmission}

theorem admits_initialize (admits : Admits tables (.initializeHead admission cause)) :
    ∃ after answer, (fence primitives).body (.initializeHead admission cause) tables =
      .ok (after, answer) := by
  obtain ⟨absent, unused, nonneg, fits⟩ := admits
  obtain ⟨heads, inserted⟩ := insert_of_absent absent
    ((headOf primitives admission none cause).row admission.epoch)
  refine ⟨{ tables with heads }, .moved (headOf primitives admission none cause), ?_⟩
  have ran : initializeBody primitives admission cause tables =
      .ok ({ tables with heads }, headOf primitives admission none cause) := by
    unfold initializeBody
    rw [bind_of_ok (sqlInteger_of_range nonneg fits), bind_of_ok (refuse_of_not (by
        rw [haraElsewhere_of_not_isHead _ unused]
        simpa using nonneg)), inserted]
  exact congrArg (Except.map _) ran

variable {transition : HorizonTransition}

theorem admits_advance (admits : Admits tables (.advance transition)) :
    ∃ after answer, (fence primitives).body (.advance transition) tables = .ok (after, answer) := by
  obtain ⟨⟨row, found, hara, epoch, veyra⟩, alive, unused, nonneg, fits⟩ := admits
  have next := transition.nextEpoch
  rw [not_isTombstoned] at alive
  obtain ⟨tombstones, inserted⟩ := insert_of_absent alive
    ⟨transition.previous.aevraDigest, transition.previous.veyraDigest, transition.previous.epoch,
      transition.successor.haraDigest, transition.causeDigest⟩
  have changes : tables.heads.rowcount transition.previous.aevraDigest
      (isHeadAt transition.previous.haraDigest transition.previous.epoch) = 1 :=
    Table.rowcount_eq_one found (isHeadAt_iff.mpr ⟨hara, epoch⟩)
  have ran : ∃ done, advanceBody primitives transition tables = .ok done := by
    unfold advanceBody
    dsimp only
    rw [found]
    dsimp only
    rw [bind_of_ok (refuse_of_not (by simp [hara, epoch, veyra])),
      bind_of_ok (refuse_of_not (not_not.mpr alive)),
      bind_of_ok (sqlInteger_of_range nonneg (by omega)), bind_of_ok (refuse_of_not (by omega)),
      inserted]
    dsimp only
    rw [bind_of_ok (sqlInteger_of_range (by omega) fits), bind_of_ok (refuse_of_not (by omega)),
      bind_of_ok (refuse_of_not (by simp [haraElsewhere_of_not_isHead _ unused])),
      bind_of_ok (refuse_of_not (not_not.mpr changes))]
    exact ⟨_, rfl⟩
  obtain ⟨done, ran⟩ := ran
  exact ⟨done.1, .moved done.2, congrArg (Except.map _) ran⟩

variable {prepared : FencePrepared}

theorem admits_of_ok (answered : (fence primitives).body prepared tables = .ok (after, answer)) :
    Admits tables prepared := by
  cases prepared with
  | initializeHead admission cause =>
    obtain ⟨⟨nonneg, fits, unused⟩, inserted, -⟩ := initializeBody_eq_ok answered
    exact ⟨(insert_eq_some inserted).1, unused, nonneg, fits⟩
  | advance transition =>
    obtain ⟨⟨current, nonneg, fits, unused⟩, ⟨_, inserted⟩, -⟩ := advanceBody_eq_ok answered
    exact ⟨current, not_isTombstoned.mpr (insert_eq_some inserted).1, unused, nonneg, fits⟩
  | current aevra => trivial
  | isTombstoned hara => trivial

theorem ok_of_admits (enters : prepared.entering = some hara) (admits : Admits tables prepared) :
    ∃ after answer, (fence primitives).body prepared tables = .ok (after, answer) := by
  cases prepared with
  | initializeHead admission cause => exact admits_initialize admits
  | advance transition => exact admits_advance admits
  | current aevra => cases enters
  | isTombstoned hara => cases enters

/-! ## What a transaction that goes through does -/

theorem find_initialized
    (answered : (fence primitives).body (.initializeHead admission cause) tables =
      .ok (after, answer)) (aevra : String) :
    after.heads.find aevra = if aevra = admission.aevraDigest then
        some ((headOf primitives admission none cause).row admission.epoch)
      else tables.heads.find aevra :=
  find_insert (initializeBody_eq_ok answered).2.1

theorem isTombstoned_initialized
    (answered : (fence primitives).body (.initializeHead admission cause) tables =
    .ok (after, answer)) : IsTombstoned after hara ↔ IsTombstoned tables hara := by
  unfold IsTombstoned
  rw [(initializeBody_eq_ok answered).2.2]

theorem find_advanced
    (answered : (fence primitives).body (.advance transition) tables = .ok (after, answer)) :
    ∃ row, tables.heads.find transition.previous.aevraDigest = some row ∧
      row.haraDigest = transition.previous.haraDigest ∧
      row.epoch = transition.previous.epoch ∧
      row.veyraDigest = transition.previous.veyraDigest ∧
      ∀ aevra, after.heads.find aevra = if aevra = transition.previous.aevraDigest then
          some (transition.write primitives row)
        else tables.heads.find aevra := by
  obtain ⟨⟨⟨row, found, hara, epoch, veyra⟩, -⟩, -, heads⟩ := advanceBody_eq_ok answered
  refine ⟨row, found, hara, epoch, veyra, fun aevra => ?_⟩
  rw [heads]
  by_cases here : aevra = transition.previous.aevraDigest
  · rw [if_pos here, here]
    exact find_update_self found (isHeadAt_iff.mpr ⟨hara, epoch⟩)
  · rw [if_neg here, find_update_of_ne here]

theorem isTombstoned_advanced
    (answered : (fence primitives).body (.advance transition) tables = .ok (after, answer))
    : IsTombstoned after hara ↔
      hara = transition.previous.haraDigest ∨ IsTombstoned tables hara := by
  obtain ⟨-, ⟨stone, inserted⟩, -⟩ := advanceBody_eq_ok answered
  unfold IsTombstoned
  rw [find_insert inserted]
  by_cases here : hara = transition.previous.haraDigest
  · rw [if_pos here]
    exact ⟨fun _ => .inl here, fun _ => ⟨stone, rfl⟩⟩
  · rw [if_neg here]
    exact ⟨.inr, fun either => either.resolve_left here⟩

/-- What a call makes current is current after it. -/
theorem isHead_entered (enters : prepared.entering = some hara)
    (answered : (fence primitives).body prepared tables = .ok (after, answer)) :
    IsHead after hara := by
  cases prepared with
  | initializeHead admission cause =>
    cases enters
    refine ⟨admission.aevraDigest,
      (headOf primitives admission none cause).row admission.epoch, ?_, rfl⟩
    rw [find_initialized answered, if_pos rfl]
  | advance transition =>
    cases enters
    obtain ⟨row, -, -, -, -, heads⟩ := find_advanced answered
    refine ⟨transition.previous.aevraDigest, transition.write primitives row, ?_, rfl⟩
    rw [heads, if_pos rfl]
  | current aevra => cases enters
  | isTombstoned hara => cases enters

theorem isTombstoned_kept (answered : (fence primitives).body prepared tables = .ok (after, answer))
    (buried : IsTombstoned tables hara) : IsTombstoned after hara := by
  cases prepared with
  | initializeHead admission cause => exact (isTombstoned_initialized answered).mpr buried
  | advance transition => exact (isTombstoned_advanced answered).mpr (.inr buried)
  | current aevra => exact (currentBody_eq_ok answered).1 ▸ buried
  | isTombstoned other => exact isTombstonedBody_eq_ok answered ▸ buried

end Bodies

/-! ## The invariants -/

/-- No Hara is the head of two Aevras. -/
def Distinct (tables : FenceTables) : Prop :=
  ∀ aevra aevra' row row', tables.heads.find aevra = some row →
    tables.heads.find aevra' = some row' → row.haraDigest = row'.haraDigest → aevra = aevra'

/-- The heads have the digests of their columns. -/
def Sealed (primitives : Primitives) (tables : FenceTables) : Prop :=
  ∀ aevra row, tables.heads.find aevra = some row → row.recordDigest =
    recordDigest primitives row.veyraDigest aevra row.matrixDigest row.haraDigest row.epoch
      row.previousHaraDigest row.causeDigest

/-- No tombstoned Hara is current. -/
def Separate (tables : FenceTables) : Prop :=
  ∀ hara, IsTombstoned tables hara → ¬ IsHead tables hara

section Invariants

variable {primitives : Primitives} {tables after : FenceTables} {answer : FenceAnswer}
  {prepared : FencePrepared}

theorem Distinct.written_over (distinct : Distinct tables) {key : String} {written : HaraHeadRow}
    (heads : ∀ aevra, after.heads.find aevra =
      if aevra = key then some written else tables.heads.find aevra)
    (unused : ¬ IsHead tables written.haraDigest) : Distinct after := by
  intro aevra aevra' row row' found found' same
  rw [heads] at found found'
  by_cases here : aevra = key <;> by_cases here' : aevra' = key
  · exact here.trans here'.symm
  · rw [if_pos here] at found
    rw [if_neg here'] at found'
    cases found
    exact absurd ⟨aevra', row', found', same.symm⟩ unused
  · rw [if_neg here] at found
    rw [if_pos here'] at found'
    cases found'
    exact absurd ⟨aevra, row, found, same⟩ unused
  · rw [if_neg here] at found
    rw [if_neg here'] at found'
    exact distinct aevra aevra' row row' found found' same

section

variable (answered : (fence primitives).body prepared tables = .ok (after, answer))

include answered

theorem distinct_kept (distinct : Distinct tables) : Distinct after := by
  cases prepared with
  | initializeHead admission cause =>
    exact distinct.written_over (find_initialized answered) (initializeBody_eq_ok answered).1.2.2
  | advance transition =>
    obtain ⟨row, -, -, -, -, heads⟩ := find_advanced answered
    exact distinct.written_over heads (advanceBody_eq_ok answered).1.2.2.2
  | current aevra => exact (currentBody_eq_ok answered).1 ▸ distinct
  | isTombstoned hara => exact isTombstonedBody_eq_ok answered ▸ distinct

theorem sealed_kept (sound : Sealed primitives tables) : Sealed primitives after := by
  cases prepared with
  | initializeHead admission cause =>
    intro aevra row found
    rw [find_initialized answered] at found
    split at found
    · rename_i here
      cases found
      subst here
      rfl
    · exact sound aevra row found
  | advance transition =>
    obtain ⟨old, -, -, -, veyra, heads⟩ := find_advanced answered
    intro aevra row found
    rw [heads] at found
    split at found
    · rename_i here
      cases found
      subst here
      unfold HorizonTransition.write headOf HaraHead.row
      dsimp only
      rw [veyra, transition.sameVeyra, transition.sameAevra]
    · exact sound aevra row found
  | current aevra => exact (currentBody_eq_ok answered).1 ▸ sound
  | isTombstoned hara => exact isTombstonedBody_eq_ok answered ▸ sound

/-- A transaction that enters no tombstoned Hara keeps the tombstones and the heads apart. -/
theorem separate_kept (distinct : Distinct tables) (separate : Separate tables)
    (fresh : ∀ hara, prepared.entering = some hara → ¬ IsTombstoned tables hara) :
    Separate after := by
  cases prepared with
  | initializeHead admission cause =>
    rintro hara buried ⟨aevra, row, found, same⟩
    rw [isTombstoned_initialized answered] at buried
    rw [find_initialized answered] at found
    split at found
    · cases found
      exact fresh hara (congrArg some same) buried
    · exact separate hara buried ⟨aevra, row, found, same⟩
  | advance transition =>
    obtain ⟨old, left, leaves, -, -, heads⟩ := find_advanced answered
    rintro hara buried ⟨aevra, row, found, same⟩
    rw [heads] at found
    rcases (isTombstoned_advanced answered).mp buried with rfl | earlier
    · split at found
      · cases found
        exact transition.newHara same.symm
      · -- The Hara that is left was the head of its own Aevra only.
        rename_i elsewhere
        exact elsewhere (distinct _ _ _ _ found left (same.trans leaves.symm))
    · split at found
      · cases found
        exact fresh hara (congrArg some same) earlier
      · exact separate hara earlier ⟨aevra, row, found, same⟩
  | current aevra => exact (currentBody_eq_ok answered).1 ▸ separate
  | isTombstoned hara => exact isTombstonedBody_eq_ok answered ▸ separate

end

/-- A sealed head passes the check of `current`. -/
theorem Sealed.current (sound : Sealed primitives tables) {aevra : String} {row : HaraHeadRow}
    (found : tables.heads.find aevra = some row) :
    ∃ head, currentBody primitives aevra tables = .ok (some head) := by
  unfold currentBody
  rw [found]
  dsimp only
  rw [bind_of_ok (refuse_of_not (not_not.mpr (sound aevra row found)))]
  exact ⟨_, rfl⟩

end Invariants

/-! ## Runs -/

abbrev FenceSystem : Type := Clients FenceTables FencePrepared

abbrev FenceMoment : Type := Database.Event FenceTables FenceCall FencePrepared FenceAnswer String

def FenceSystem.start : FenceSystem := ⟨.empty, []⟩

section Runs

variable (primitives : Primitives) (events : List (ClientEvent FenceCall))

/-- The moments of the run. -/
abbrev fenceTrace : List FenceMoment := trace (fence primitives).clientStep FenceSystem.start events

/-- The systems of the run. -/
abbrev fenceVisited : List FenceSystem :=
  visited (fence primitives).clientStep FenceSystem.start events

end Runs

/-- At the moment an Aevra loses the Hara as its head. -/
def Replaces (moment : FenceMoment) (hara : String) : Prop :=
  ∃ aevra row row', moment.before.tables.heads.find aevra = some row ∧ row.haraDigest = hara ∧
    moment.after.tables.heads.find aevra = some row' ∧ row'.haraDigest ≠ hara

/-- At the moment the prepared call runs and answers. -/
def Answers (moment : FenceMoment) (client : Nat) (prepared : FencePrepared)
    (answer : FenceAnswer) : Prop :=
  moment.call = .transact client true ∧ moment.before.pending.lookup client = some prepared ∧
    moment.answer = some (.ok answer)

/-- A client has `require_current` accept the admission: it reads the head at the first moment and
the tombstones at the second. -/
structure Accepts (moments : List FenceMoment) (first second : FenceMoment)
    (admission : MatrixAdmission) (head : HaraHead) : Prop where
  ordered : List.Sublist [first, second] moments
  accepted : ∃ client current tombstoned,
    Answers first client (.current admission.aevraDigest) (.current current) ∧
      Answers second client (.isTombstoned admission.haraDigest) (.isTombstoned tombstoned) ∧
        requireCurrent admission current tombstoned = .ok head

/-- The transaction of the moment, if the fence lets it through, makes no Hara current that is
tombstoned before it. -/
def EntersFresh (moment : FenceMoment) : Prop :=
  ∀ client prepared hara, moment.call = .transact client true →
    moment.before.pending.lookup client = some prepared → prepared.entering = some hara →
      Admits moment.before.tables prepared → ¬ IsTombstoned moment.before.tables hara

/-- The fence does not go back in the run, whatever its clients call. -/
structure NeverGoesBack (primitives : Primitives) (events : List (ClientEvent FenceCall)) :
    Prop where
  separate : ∀ system ∈ fenceVisited primitives events, ∀ hara,
    IsTombstoned system.tables hara → ¬ IsHead system.tables hara
  replaced : ∀ moment ∈ fenceTrace primitives events, ∀ hara, Replaces moment hara →
    ¬ IsHead moment.after.tables hara
  gone : (fenceTrace primitives events).Pairwise fun earlier later =>
    ∀ hara, Replaces earlier hara → ¬ IsHead later.after.tables hara
  advanced : ∀ moment ∈ fenceTrace primitives events, ∀ transition answer,
    Database.Ran (fence primitives) moment (.advance transition) answer →
      ∃ row row', moment.before.tables.heads.find transition.previous.aevraDigest = some row ∧
        moment.after.tables.heads.find transition.previous.aevraDigest = some row' ∧
          row'.epoch = row.epoch + 1
  kept : ∀ moment ∈ fenceTrace primitives events, ∀ aevra row,
    moment.before.tables.heads.find aevra = some row →
      moment.after.tables.heads.find aevra = some row ∨
        ∃ transition answer, transition.previous.aevraDigest = aevra ∧
          Database.Ran (fence primitives) moment (.advance transition) answer
  checked : ∀ system ∈ fenceVisited primitives events, ∀ aevra row,
    system.tables.heads.find aevra = some row →
      ∃ head, currentBody primitives aevra system.tables = .ok (some head)
  failed : ∀ moment ∈ fenceTrace primitives events, ∀ fault,
    moment.answer = some (.error fault) → moment.after.tables = moment.before.tables
  current : ∀ first second admission head,
    Accepts (fenceTrace primitives events) first second admission head →
      ∃ row, first.before.tables.heads.find admission.aevraDigest = some row ∧
        row.veyraDigest = admission.veyraDigest ∧ row.matrixDigest = admission.matrixDigest ∧
          row.haraDigest = admission.haraDigest ∧ row.epoch = admission.epoch

section Runs

variable {primitives : Primitives} {events : List (ClientEvent FenceCall)} {moment : FenceMoment}

section

variable (member : moment ∈ fenceTrace primitives events)

include member

/-- What the transactions that go through preserve is preserved by every moment. -/
theorem moment_keeps {I : FenceTables → Prop}
    (preserved : ∀ prepared answer, Database.Ran (fence primitives) moment prepared answer →
      I moment.before.tables → I moment.after.tables)
    (before : I moment.before.tables) : I moment.after.tables := by
  rcases Database.moment_cases member with ⟨same, -⟩ | ⟨prepared, answer, ran, -⟩
  · exact same ▸ before
  · exact preserved prepared answer ran before

omit member in
theorem distinct_throughout : ∀ system ∈ fenceVisited primitives events, Distinct system.tables := by
  refine visited_invariant (I := fun system : FenceSystem => Distinct system.tables) ?_ ?_
  · intro _ _ _ _ found
    cases found
  · intro moment member
    refine moment_keeps member fun prepared answer ran before => ?_
    obtain ⟨_, -, -, body⟩ := ran
    exact distinct_kept body before

omit member in
theorem sealed_throughout :
    ∀ system ∈ fenceVisited primitives events, Sealed primitives system.tables := by
  refine visited_invariant (I := fun system : FenceSystem => Sealed primitives system.tables) ?_ ?_
  · intro _ _ found
    cases found
  · intro moment member
    refine moment_keeps member fun prepared answer ran before => ?_
    obtain ⟨_, -, -, body⟩ := ran
    exact sealed_kept body before

theorem tombstones_kept {hara : String}
    (buried : IsTombstoned moment.before.tables hara) : IsTombstoned moment.after.tables hara := by
  refine moment_keeps (I := fun tables => IsTombstoned tables hara) member ?_ buried
  rintro prepared answer ⟨_, -, -, body⟩ before
  exact isTombstoned_kept body before

theorem head_cases {aevra : String}
    {row : HaraHeadRow} (found : moment.before.tables.heads.find aevra = some row) :
    moment.after.tables.heads.find aevra = some row ∨
      ∃ transition answer, transition.previous.aevraDigest = aevra ∧
        Database.Ran (fence primitives) moment (.advance transition) answer := by
  rcases Database.moment_cases member with ⟨same, -⟩ | ⟨prepared, answer, ran, -⟩
  · exact .inl (same ▸ found)
  · obtain ⟨client, call, pending, body⟩ := ran
    cases prepared with
    | initializeHead admission cause =>
      refine .inl ?_
      rw [find_initialized body, if_neg ?_]
      · exact found
      · rintro rfl
        rw [(insert_eq_some (initializeBody_eq_ok body).2.1).1] at found
        cases found
    | advance transition =>
      by_cases here : aevra = transition.previous.aevraDigest
      · exact .inr ⟨transition, answer, here.symm, client, call, pending, body⟩
      · obtain ⟨_, -, -, -, -, heads⟩ := find_advanced body
        refine .inl ?_
        rw [heads, if_neg here]
        exact found
    | current other => exact .inl ((currentBody_eq_ok body).1 ▸ found)
    | isTombstoned hara => exact .inl (isTombstonedBody_eq_ok body ▸ found)

theorem buried_of_replaces {hara : String}
    (replaces : Replaces moment hara) : IsTombstoned moment.after.tables hara := by
  obtain ⟨aevra, row, row', found, isHara, found', other⟩ := replaces
  rcases head_cases member found with same | ⟨transition, answer, isAevra, ran⟩
  · rw [same] at found'
    cases found'
    exact absurd isHara other
  · obtain ⟨client, call, pending, body⟩ := ran
    obtain ⟨old, left, leaves, -⟩ := find_advanced body
    rw [isAevra, found] at left
    cases left
    exact (isTombstoned_advanced body).mpr (.inl (isHara.symm.trans leaves))

end

theorem gone_throughout : (fenceTrace primitives events).Pairwise fun earlier later =>
    ∀ hara, IsTombstoned earlier.after.tables hara → IsTombstoned later.after.tables hara := by
  have onward := trace_pairwise (R := fun earlier later : FenceSystem =>
      ∀ hara, IsTombstoned earlier.tables hara → IsTombstoned later.tables hara)
    (fun _ _ buried => buried) (fun _ _ _ first second hara buried => second hara (first hara buried))
    (fun moment (member : moment ∈ fenceTrace primitives events) hara => tombstones_kept member)
  refine (List.Pairwise.and_mem.mp onward).imp ?_
  rintro earlier later ⟨-, member, kept⟩ hara buried
  exact tombstones_kept member (kept hara buried)

/-- A head that `require_current` accepts was the head when it was read. -/
theorem current_of_accepts {first second : FenceMoment} {admission : MatrixAdmission}
    {head : HaraHead}
    (accepts : Accepts (fenceTrace primitives events) first second admission head) :
    ∃ row, first.before.tables.heads.find admission.aevraDigest = some row ∧
      row.veyraDigest = admission.veyraDigest ∧ row.matrixDigest = admission.matrixDigest ∧
        row.haraDigest = admission.haraDigest ∧ row.epoch = admission.epoch := by
  obtain ⟨ordered, client, current, tombstoned, ⟨call, pending, answered⟩, -, accepted⟩ := accepts
  have member : first ∈ fenceTrace primitives events := ordered.subset mem_cons_self
  obtain ⟨rfl, veyra, matrix, hara, epoch⟩ := requireCurrent_eq_ok accepted
  rcases Database.moment_cases member with ⟨-, none⟩ | ⟨prepared, answer, ran, answered'⟩
  · exact absurd answered (none _)
  · rw [answered] at answered'
    cases answered'
    obtain ⟨other, call', pending', body⟩ := ran
    rw [call] at call'
    cases call'
    rw [pending] at pending'
    cases pending'
    obtain ⟨-, found, same, read⟩ := currentBody_eq_ok body
    cases same
    obtain ⟨row, isRow, veyra', matrix', hara', epoch'⟩ := currentBody_eq_some read
    exact ⟨row, isRow, veyra'.trans veyra, matrix'.trans matrix, hara'.trans hara,
      epoch'.trans epoch⟩

/-- A run whose transactions enter no tombstoned Hara keeps tombstones and heads apart. -/
theorem separate_throughout (fresh : ∀ moment ∈ fenceTrace primitives events, EntersFresh moment) :
    ∀ system ∈ fenceVisited primitives events, Separate system.tables := by
  refine visited_invariant (I := fun system : FenceSystem => Separate system.tables) ?_ ?_
  · rintro hara ⟨row, found⟩
    cases found
  · intro moment member
    refine moment_keeps member fun prepared answer ran before => ?_
    obtain ⟨client, call, pending, body⟩ := ran
    refine separate_kept body (distinct_throughout _ (before_mem_visited member)) before ?_
    intro hara enters
    exact fresh moment member client prepared hara call pending enters (admits_of_ok body)

end Runs

/-- The fence goes back in no run exactly when no transaction that it lets through makes a Hara
current that is tombstoned at that moment. -/
theorem never_goes_back_iff (primitives : Primitives) (events : List (ClientEvent FenceCall)) :
    NeverGoesBack primitives events ↔
      ∀ moment ∈ fenceTrace primitives events, EntersFresh moment := by
  constructor
  · intro safe moment member client prepared hara call pending enters admits buried
    obtain ⟨after, answer, body⟩ : ∃ after answer,
        (fence primitives).body prepared moment.before.tables = .ok (after, answer) :=
      ok_of_admits enters admits
    obtain ⟨_, -, -, ran⟩ := Database.ran_of_body member call pending body
    refine safe.separate moment.after (after_mem_visited member) hara ?_ (isHead_entered enters ran)
    exact isTombstoned_kept ran buried
  · intro fresh
    have separate := separate_throughout fresh
    refine ⟨separate, ?_, ?_, ?_, fun moment member aevra row => head_cases member, ?_, ?_, ?_⟩
    · intro moment member hara replaces
      exact separate _ (after_mem_visited member) hara (buried_of_replaces member replaces)
    · refine (List.Pairwise.and_mem.mp gone_throughout).imp ?_
      rintro earlier later ⟨member, member', kept⟩ hara replaces
      exact separate _ (after_mem_visited member') hara
        (kept hara (buried_of_replaces member replaces))
    · rintro moment member transition answer ⟨client, call, pending, body⟩
      obtain ⟨row, found, -, epoch, -, heads⟩ := find_advanced body
      refine ⟨row, transition.write primitives row, found, ?_, ?_⟩
      · rw [heads, if_pos rfl]
      · exact transition.nextEpoch.trans (by rw [epoch])
    · intro system member aevra row found
      exact (sealed_throughout system member).current found
    · intro moment member fault raised
      exact Database.unchanged_of_error member raised
    · intro first second admission head accepts
      exact current_of_accepts accepts

/-! ## A Hara that returns -/

/-- The first admission and its successor; the transition back has the epoch after that. -/
def firstAdmission (epoch : Int) : MatrixAdmission := ⟨"matrix-1", "hara-1", "aevra", "veyra", epoch⟩

def secondAdmission : MatrixAdmission := ⟨"matrix-2", "hara-2", "aevra", "veyra", 1⟩

/-- One client goes from the first Hara to the second one and back. -/
def returningRun : List (ClientEvent FenceCall) :=
  [.start 0 (.initializeHead (firstAdmission 0) "matrix-genesis"), .transact 0 true,
    .start 0 (.advance (firstAdmission 0) secondAdmission "leave"), .transact 0 true,
    .start 0 (.advance secondAdmission (firstAdmission 2) "return"), .transact 0 true]

/-- The fence lets the first Hara become current again, with its tombstone. -/
theorem returning_hara_current :
    ¬ NeverGoesBack ⟨id, fun _ text => text, fun _ => .ok ""⟩ returningRun := by
  intro safe
  have buried : ((finalState (fence ⟨id, fun _ text => text, fun _ => .ok ""⟩).clientStep
      FenceSystem.start returningRun).tables.tombstones.find "hara-1").isSome = true := by
    decide +kernel
  have head : ((finalState (fence ⟨id, fun _ text => text, fun _ => .ok ""⟩).clientStep
      FenceSystem.start returningRun).tables.heads.find "aevra").map HaraHeadRow.haraDigest =
        some "hara-1" := by
    decide +kernel
  obtain ⟨row, found, isHara⟩ := map_eq_some_iff.mp head
  exact safe.separate _ (finalState_mem_visited _ _) "hara-1" (isSome_iff_exists.mp buried)
    ⟨"aevra", row, found, isHara⟩

end Koschei.Horizon
