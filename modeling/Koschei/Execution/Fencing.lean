import Koschei.Execution.Coordinator

/-!
# Fencing of execution epochs

The tables of the coordinator are `Fenced`: a plan is frozen exactly when its
current epoch is tombstoned, and no epoch after the current one is. Every
transaction keeps this, whatever the arguments of the calls are, so it holds in
every interleaving; with it, a claim made for the current epoch of a plan that
is not frozen is never one for a tombstoned epoch.
-/

namespace Koschei.Execution

open Lib Authorization

/-! ## The invariant -/

/-- A plan is frozen exactly when its current epoch is tombstoned, and tombstones are of epochs up
to the current one. -/
structure Fenced (tables : CoordinatorTables) : Prop where
  frozen_iff : ∀ plan head, tables.heads.find plan = some head →
    (head.frozen = true ↔ tables.tombstones.find (plan, head.currentEpoch) ≠ none)
  bounded : ∀ plan epoch, tables.tombstones.find (plan, epoch) ≠ none →
    ∃ head, tables.heads.find plan = some head ∧ epoch ≤ head.currentEpoch

namespace Fenced

variable {tables after : CoordinatorTables}

theorem empty : Fenced .empty where
  frozen_iff plan head found := by
    have impossible : none = some head := found
    cases impossible
  bounded plan epoch buried := absurd rfl buried

variable {plan : String}

section

variable (fenced : Fenced tables)

include fenced

theorem no_tombstone (absent : tables.heads.find plan = none)
    (epoch : Int) : tables.tombstones.find (plan, epoch) = none := by
  by_contra buried
  obtain ⟨head, found, -⟩ := fenced.bounded plan epoch buried
  rw [absent] at found
  cases found

variable {head row : EpochHeadRow}

theorem not_buried_later
    (found : tables.heads.find plan = some head) {epoch : Int} (later : head.currentEpoch < epoch) :
    tables.tombstones.find (plan, epoch) = none := by
  by_contra buried
  obtain ⟨other, found', bound⟩ := fenced.bounded plan epoch buried
  rw [found] at found'
  cases found'
  omega

theorem of_same (heads : after.heads = tables.heads)
    (tombstones : after.tombstones = tables.tombstones) : Fenced after where
  frozen_iff := by
    rw [heads, tombstones]
    exact fenced.frozen_iff
  bounded := by
    rw [heads, tombstones]
    exact fenced.bounded

theorem inserted
    (unfrozen : row.frozen = false) (heads : tables.heads.insert plan row = some after.heads)
    (tombstones : after.tombstones = tables.tombstones) : Fenced after where
  frozen_iff other head found := by
    rw [find_insert heads] at found
    rw [tombstones]
    split at found
    · rename_i same
      cases found
      rw [same, unfrozen, fenced.no_tombstone (insert_eq_some heads).1]
      simp
    · exact fenced.frozen_iff other head found
  bounded other epoch buried := by
    rw [tombstones] at buried
    obtain ⟨head, found, bound⟩ := fenced.bounded other epoch buried
    refine ⟨head, ?_, bound⟩
    rw [find_insert heads, if_neg]
    · exact found
    · rintro rfl
      rw [(insert_eq_some heads).1] at found
      cases found

theorem contained {plan cause : String} (found : tables.heads.find plan = some head)
    (now : after.heads.find plan = some row) (frozen : row.frozen = true)
    (epoch : row.currentEpoch = head.currentEpoch)
    (others : ∀ other, other ≠ plan → after.heads.find other = tables.heads.find other)
    (tombstones : tables.tombstones.insert (plan, head.currentEpoch) cause =
      some after.tombstones) : Fenced after where
  frozen_iff other current there := by
    rw [find_insert tombstones]
    by_cases same : other = plan
    · subst same
      rw [now] at there
      cases there
      rw [epoch, if_pos rfl, frozen]
      simp
    · rw [others other same] at there
      have apart : (other, current.currentEpoch) ≠ (plan, head.currentEpoch) := by
        rintro equal
        exact same (congrArg fst equal)
      rw [if_neg apart]
      exact fenced.frozen_iff other current there
  bounded other epoch' buried := by
    rw [find_insert tombstones] at buried
    by_cases same : other = plan
    · subst same
      refine ⟨row, now, ?_⟩
      rw [epoch]
      split at buried
      · rename_i equal
        exact (congrArg snd equal).le
      · obtain ⟨other', found', bound⟩ := fenced.bounded other epoch' buried
        rw [found] at found'
        cases found'
        exact bound
    · have apart : (other, epoch') ≠ (plan, head.currentEpoch) := by
        rintro equal
        exact same (congrArg fst equal)
      rw [if_neg apart] at buried
      rw [others other same]
      exact fenced.bounded other epoch' buried

theorem advanced (found : tables.heads.find plan = some head)
    (now : after.heads.find plan = some row) (unfrozen : row.frozen = false)
    (later : head.currentEpoch < row.currentEpoch)
    (others : ∀ other, other ≠ plan → after.heads.find other = tables.heads.find other)
    (tombstones : after.tombstones = tables.tombstones) : Fenced after where
  frozen_iff other current there := by
    rw [tombstones]
    by_cases same : other = plan
    · subst same
      rw [now] at there
      cases there
      rw [unfrozen, fenced.not_buried_later found later]
      simp
    · rw [others other same] at there
      exact fenced.frozen_iff other current there
  bounded other epoch buried := by
    rw [tombstones] at buried
    obtain ⟨current, there, bound⟩ := fenced.bounded other epoch buried
    by_cases same : other = plan
    · subst same
      rw [found] at there
      cases there
      exact ⟨row, now, by omega⟩
    · refine ⟨current, ?_, bound⟩
      rw [others other same]
      exact there

end

end Fenced

/-! ## What a transaction relates -/

/-- What the tables before and after one transaction have to do with each other. -/
structure Progress (tables after : CoordinatorTables) : Prop where
  epochs : ∀ plan head, tables.heads.find plan = some head →
    ∃ head', after.heads.find plan = some head' ∧
      (head'.currentEpoch = head.currentEpoch ∨ head'.currentEpoch = head.currentEpoch + 1)
  claims : ∀ request row, tables.claims.find request = some row →
    ∃ row', after.claims.find request = some row' ∧ (row.state ≠ "CLAIMED" → row' = row)
  created : ∀ request row, tables.claims.find request = none →
    after.claims.find request = some row →
      ∃ head, tables.heads.find row.activationPlanDigest = some head ∧ head.frozen = false ∧
        head.currentEpoch = row.epoch ∧
        tables.tombstones.find (row.activationPlanDigest, row.epoch) = none

namespace Progress

variable {tables after : CoordinatorTables}

theorem epochs_of_same (heads : after.heads = tables.heads) (plan : String) (head : EpochHeadRow)
    (found : tables.heads.find plan = some head) :
    ∃ head', after.heads.find plan = some head' ∧
      (head'.currentEpoch = head.currentEpoch ∨ head'.currentEpoch = head.currentEpoch + 1) :=
  ⟨head, heads ▸ found, .inl rfl⟩

theorem claims_of_same (claims : after.claims = tables.claims) (request : String)
    (row : AtomicClaimRow) (found : tables.claims.find request = some row) :
    ∃ row', after.claims.find request = some row' ∧ (row.state ≠ "CLAIMED" → row' = row) :=
  ⟨row, claims ▸ found, fun _ => rfl⟩

theorem created_of_same (claims : after.claims = tables.claims) (request : String)
    (row : AtomicClaimRow) (absent : tables.claims.find request = none)
    (present : after.claims.find request = some row) :
    ∃ head, tables.heads.find row.activationPlanDigest = some head ∧ head.frozen = false ∧
      head.currentEpoch = row.epoch ∧
      tables.tombstones.find (row.activationPlanDigest, row.epoch) = none := by
  rw [claims, absent] at present
  cases present

theorem refl (tables : CoordinatorTables) : Progress tables tables :=
  ⟨epochs_of_same rfl, claims_of_same rfl, created_of_same rfl⟩

end Progress

section Transactions

variable {primitives : Primitives} {tables after : CoordinatorTables} {answer : CoordinatorAnswer}

theorem head_after_update {heads : Table String EpochHeadRow} {plan : String} {head : EpochHeadRow}
    {epoch : Int} {frozen : Bool} (found : heads.find plan = some head)
    (current : head.currentEpoch = epoch) (state : head.frozen = frozen)
    (change : EpochHeadRow → EpochHeadRow) :
    (heads.update plan (isHeadAt epoch frozen) change).find plan = some (change head) := by
  apply find_update_self found
  unfold isHeadAt
  rw [current, state]
  simp

theorem transaction_keeps {prepared : CoordinatorPrepared} (well : PreparedWell prepared)
    (fenced : Fenced tables)
    (ran : (coordinator primitives).body prepared tables = .ok (after, answer)) :
    Fenced after ∧ Progress tables after := by
  cases prepared with
  | initializePlan plan epoch cause =>
    obtain ⟨⟨row, unfrozen, heads⟩, tombstones, claims⟩ := initializeBody_eq_ok ran
    refine ⟨fenced.inserted unfrozen heads tombstones, ?_, Progress.claims_of_same claims,
      Progress.created_of_same claims⟩
    intro other head found
    refine ⟨head, ?_, .inl rfl⟩
    rw [find_insert heads, if_neg]
    · exact found
    · rintro rfl
      rw [(insert_eq_some heads).1] at found
      cases found
  | claim plan request proof =>
    obtain ⟨⟨head, found, unfrozen, epoch⟩, alive, ⟨row, ofPlan, ofEpoch, inserted⟩, heads,
      tombstones⟩ := claimBody_eq_ok ran
    refine ⟨fenced.of_same heads tombstones, Progress.epochs_of_same heads, ?_, ?_⟩
    · intro other old there
      refine ⟨old, ?_, fun _ => rfl⟩
      rw [find_insert inserted, if_neg]
      · exact there
      · rintro rfl
        rw [(insert_eq_some inserted).1] at there
        cases there
    · intro other new absent present
      rw [find_insert inserted] at present
      split at present
      · cases present
        rw [ofPlan, ofEpoch]
        exact ⟨head, found, unfrozen, epoch, alive⟩
      · rw [absent] at present
        cases present
  | finalize claim proof state =>
    obtain ⟨⟨row, found, opened⟩, ⟨digest, claims⟩, heads, tombstones⟩ := finalizeBody_eq_ok ran
    refine ⟨fenced.of_same heads tombstones, Progress.epochs_of_same heads, ?_, ?_⟩
    · intro request old there
      rw [claims]
      by_cases same : request = claim.requestDigest
      · subst same
        rw [found] at there
        cases there
        exact ⟨_, find_update_self found (decide_eq_true opened),
          fun closed => absurd opened closed⟩
      · exact ⟨old, (find_update_of_ne same).trans there, fun _ => rfl⟩
    · intro request new absent present
      rw [claims, find_update, absent] at present
      cases present
  | contain plan receipt =>
    obtain ⟨⟨head, found, unfrozen, epoch⟩, tombstones, ⟨digest, heads⟩, claims⟩ :=
      containBody_eq_ok ran
    have now := head_after_update found epoch unfrozen fun row =>
      { row with frozen := true, causeDigest := receipt.digest, recordDigest := digest }
    rw [← heads] at now
    have others : ∀ other, other ≠ plan → after.heads.find other = tables.heads.find other := by
      intro other apart
      rw [heads, find_update_of_ne apart]
    rw [← epoch] at tombstones
    refine ⟨fenced.contained found now rfl rfl others tombstones, ?_,
      Progress.claims_of_same claims, Progress.created_of_same claims⟩
    intro other current there
    by_cases same : other = plan
    · subst same
      rw [found] at there
      cases there
      exact ⟨_, now, .inl rfl⟩
    · exact ⟨current, (others other same).trans there, .inl rfl⟩
  | rebirth receipt =>
    obtain ⟨⟨head, found, frozen, epoch⟩, -, ⟨row, unfrozen, next, heads⟩, tombstones, claims⟩ :=
      rebirthBody_eq_ok ran
    have now := head_after_update found epoch frozen fun _ => row
    rw [← heads] at now
    have others : ∀ other, other ≠ receipt.activationPlanDigest →
        after.heads.find other = tables.heads.find other := by
      intro other apart
      rw [heads, find_update_of_ne apart]
    have step : receipt.nextEpoch = receipt.previousEpoch + 1 := well
    have advances : row.currentEpoch = head.currentEpoch + 1 := by omega
    refine ⟨fenced.advanced found now unfrozen (by omega) others tombstones, ?_,
      Progress.claims_of_same claims, Progress.created_of_same claims⟩
    intro other current there
    by_cases same : other = receipt.activationPlanDigest
    · subst same
      rw [found] at there
      cases there
      exact ⟨row, now, .inr advances⟩
    · exact ⟨current, (others other same).trans there, .inl rfl⟩

end Transactions

/-! ## Runs -/

section Runs

variable {primitives : Primitives} {events : List (ClientEvent CoordinatorCall)}

abbrev CoordinatorSystem : Type := Clients CoordinatorTables CoordinatorPrepared

abbrev CoordinatorMoment : Type :=
  Database.Event CoordinatorTables CoordinatorCall CoordinatorPrepared CoordinatorAnswer String

/-- Empty tables and no clients. -/
def CoordinatorSystem.start : CoordinatorSystem := ⟨.empty, []⟩

/-- At the moment a claim of a request succeeds. -/
def Claims (primitives : Primitives) (moment : CoordinatorMoment)
    (request : CanonicalEffectRequest) : Prop :=
  ∃ plan proof claim, Database.Ran (coordinator primitives) moment (.claim plan request proof) claim

variable {moment : CoordinatorMoment}

theorem moment_keeps
    (member : moment ∈ trace (coordinator primitives).clientStep CoordinatorSystem.start events)
    (fenced : Fenced moment.before.tables) :
    Fenced moment.after.tables ∧ Progress moment.before.tables moment.after.tables := by
  rcases Database.moment_cases member with ⟨same, -⟩ | ⟨prepared, answer, ran, -⟩
  · rw [same]
    exact ⟨fenced, Progress.refl _⟩
  · obtain ⟨call, -, passed⟩ := Database.ran_presented member ran
    obtain ⟨client, -, -, body⟩ := ran
    exact transaction_keeps (preparedWell_of_ok passed) fenced body

theorem fenced_throughout : ∀ system ∈ visited (coordinator primitives).clientStep
    CoordinatorSystem.start events, Fenced system.tables :=
  visited_invariant (I := fun system : CoordinatorSystem => Fenced system.tables) Fenced.empty
    fun _ member fenced => (moment_keeps member fenced).1

theorem moment_progress
    (member : moment ∈ trace (coordinator primitives).clientStep CoordinatorSystem.start events) :
    Progress moment.before.tables moment.after.tables :=
  (moment_keeps member (fenced_throughout _ (before_mem_visited member))).2

/-- Current epochs do not decrease. -/
def EpochsGrow (earlier later : CoordinatorSystem) : Prop :=
  ∀ plan head, earlier.tables.heads.find plan = some head →
    ∃ head', later.tables.heads.find plan = some head' ∧ head.currentEpoch ≤ head'.currentEpoch

theorem epochsGrow_trans (a b c : CoordinatorSystem) (first : EpochsGrow a b)
    (second : EpochsGrow b c) : EpochsGrow a c := by
  intro plan head found
  obtain ⟨head', found', bound⟩ := first plan head found
  obtain ⟨head'', found'', bound'⟩ := second plan head' found'
  exact ⟨head'', found'', bound.trans bound'⟩

theorem epochs_grow : (visited (coordinator primitives).clientStep CoordinatorSystem.start
    events).Pairwise EpochsGrow := by
  refine visited_pairwise (fun _ _ head found => ⟨head, found, le_refl _⟩) epochsGrow_trans ?_
  intro moment member plan head found
  obtain ⟨head', found', step⟩ := (moment_progress member).epochs plan head found
  exact ⟨head', found', by omega⟩

/-- Claims stay, and do not change once they are finalized. -/
def ClaimsStay (earlier later : CoordinatorSystem) : Prop :=
  ∀ request row, earlier.tables.claims.find request = some row →
    ∃ row', later.tables.claims.find request = some row' ∧ (row.state ≠ "CLAIMED" → row' = row)

theorem claimsStay_trans (a b c : CoordinatorSystem) (first : ClaimsStay a b)
    (second : ClaimsStay b c) : ClaimsStay a c := by
  intro request row found
  obtain ⟨row', found', kept⟩ := first request row found
  obtain ⟨row'', found'', kept'⟩ := second request row' found'
  refine ⟨row'', found'', fun closed => ?_⟩
  have same := kept closed
  subst same
  exact kept' closed

theorem claimsStay_refl (system : CoordinatorSystem) : ClaimsStay system system :=
  fun _ row found => ⟨row, found, fun _ => rfl⟩

theorem claimsStay_of_moment {moment : CoordinatorMoment}
    (member : moment ∈ trace (coordinator primitives).clientStep CoordinatorSystem.start events) :
    ClaimsStay moment.before moment.after :=
  (moment_progress member).claims

theorem claim_inserts {request : CanonicalEffectRequest}
    (claims : Claims primitives moment request) :
    moment.before.tables.claims.find request.digest = none ∧
      ∃ row, moment.after.tables.claims.find request.digest = some row := by
  obtain ⟨plan, proof, claim, client, -, -, body⟩ := claims
  obtain ⟨-, -, ⟨row, -, -, inserted⟩, -⟩ := claimBody_eq_ok body
  refine ⟨(insert_eq_some inserted).1, row, ?_⟩
  rw [find_insert inserted, if_pos rfl]

theorem claimed_once : (trace (coordinator primitives).clientStep CoordinatorSystem.start
    events).Pairwise fun earlier later => ∀ request request', Claims primitives earlier request →
      Claims primitives later request' → request.digest ≠ request'.digest := by
  have stay := trace_pairwise (R := ClaimsStay) claimsStay_refl claimsStay_trans
    fun moment => @claimsStay_of_moment primitives events moment
  refine stay.imp ?_
  intro earlier later onward request request' first second same
  obtain ⟨row, present⟩ := (claim_inserts first).2
  obtain ⟨row', present', -⟩ := onward _ _ present
  rw [same, (claim_inserts second).1] at present'
  cases present'

variable (primitives events)

/-- What holds of epochs and claims, whatever the clients of a coordinator do. -/
structure EpochSafety : Prop where
  monotone : (visited (coordinator primitives).clientStep CoordinatorSystem.start events).Pairwise
    fun earlier later => ∀ plan head, earlier.tables.heads.find plan = some head →
      ∃ head', later.tables.heads.find plan = some head' ∧ head.currentEpoch ≤ head'.currentEpoch
  byOne : ∀ moment ∈ trace (coordinator primitives).clientStep CoordinatorSystem.start events,
    ∀ plan head head', moment.before.tables.heads.find plan = some head →
      moment.after.tables.heads.find plan = some head' →
        head'.currentEpoch = head.currentEpoch ∨ head'.currentEpoch = head.currentEpoch + 1
  frozen : ∀ system ∈ visited (coordinator primitives).clientStep CoordinatorSystem.start events,
    ∀ plan head, system.tables.heads.find plan = some head →
      (head.frozen = true ↔ system.tables.tombstones.find (plan, head.currentEpoch) ≠ none)
  bounded : ∀ system ∈ visited (coordinator primitives).clientStep CoordinatorSystem.start events,
    ∀ plan epoch, system.tables.tombstones.find (plan, epoch) ≠ none →
      ∃ head, system.tables.heads.find plan = some head ∧ epoch ≤ head.currentEpoch
  once : (trace (coordinator primitives).clientStep CoordinatorSystem.start events).Pairwise
    fun earlier later => ∀ request request', Claims primitives earlier request →
      Claims primitives later request' → request.digest ≠ request'.digest
  created : ∀ moment ∈ trace (coordinator primitives).clientStep CoordinatorSystem.start events,
    ∀ request row, moment.before.tables.claims.find request = none →
      moment.after.tables.claims.find request = some row →
        ∃ head, moment.before.tables.heads.find row.activationPlanDigest = some head ∧
          head.frozen = false ∧ head.currentEpoch = row.epoch ∧
          moment.before.tables.tombstones.find (row.activationPlanDigest, row.epoch) = none
  final : (visited (coordinator primitives).clientStep CoordinatorSystem.start events).Pairwise
    fun earlier later => ∀ request row, earlier.tables.claims.find request = some row →
      row.state ≠ "CLAIMED" → later.tables.claims.find request = some row

end Runs

/-- Epochs and claims are safe in every interleaving of the five operations, with any arguments and
any failures. -/
theorem epoch_safety (primitives : Primitives) (events : List (ClientEvent CoordinatorCall)) :
    EpochSafety primitives events where
  monotone := epochs_grow
  byOne moment member plan head head' found found' := by
    obtain ⟨next, now, step⟩ := (moment_progress member).epochs plan head found
    rw [found'] at now
    cases now
    exact step
  frozen system member := (fenced_throughout system member).frozen_iff
  bounded system member := (fenced_throughout system member).bounded
  once := claimed_once
  created moment member := (moment_progress member).created
  final := by
    have stay := visited_pairwise claimsStay_refl claimsStay_trans
      fun moment => @claimsStay_of_moment primitives events moment
    refine stay.imp ?_
    intro earlier later onward request row found closed
    obtain ⟨row', found', kept⟩ := onward request row found
    rw [found', kept closed]

end Koschei.Execution
