import Koschei.Authorization.Store

/-!
# Durable execution claims

Whatever the clients of a durable store do and wherever they fail, a permit is
claimed once, a claim is inserted only while its state is the active head, and no
claim succeeds on a state that a committed transition has left.

The checks before a transaction may be made while the head is still the state
and the transaction after it was revoked; what counts is compared again under
the writer lock.
-/

namespace Koschei.Authorization

open Lib
open StoreSystem (start)

section Store

variable {library : Library} {primitives : Primitives}
  {events : List (ClientEvent (StoreCall library))} {moment : StoreMoment library}

/-- The claims of a store are never changed or removed. -/
def ClaimsKept (earlier later : StoreSystem library) : Prop :=
  ∀ permit row, earlier.tables.claims.find permit = some row →
    later.tables.claims.find permit = some row

theorem claimsKept_of_moment
    (member : moment ∈ trace (authorizationStore library primitives).clientStep
      (start library) events) : ClaimsKept moment.before moment.after := by
  intro permit row found
  rcases storeMoment_cases member with ⟨same, -⟩ | ⟨state, -, -, -, -, body⟩ |
    ⟨previous, next, commit⟩ | ⟨state, snapshot, receipt, claimed⟩
  · rw [same]
    exact found
  · rw [(registerBody_eq_ok body).2]
    exact found
  · obtain ⟨transition, -, -, -, body⟩ := committed_cases member commit
    rw [(commitBody_eq_ok body).2.2.2.2]
    exact found
  · obtain ⟨-, -, -, body⟩ := claimed_cases member claimed
    have inserted := (claimBody_eq_ok body).2.1
    rw [find_insert inserted, if_neg]
    · exact found
    · rintro rfl
      rw [(insert_eq_some inserted).1] at found
      cases found

/-- The row was inserted by a claim whose state was the active head of the row's subject. -/
structure InsertedOnHead (primitives : Primitives) (moment : StoreMoment library) (permit : String)
    (row : ClaimRow) : Prop where
  claimed : ∃ state snapshot receipt, Claimed primitives moment state snapshot receipt ∧
    receipt.permitDigest = permit ∧ state.Sealed ∧ row.subject = state.fields.subject ∧
    row.stateDigest = state.fields.stateDigest ∧
    moment.before.tables.heads.find row.subject = some ⟨row.stateDigest, state.fields.epoch,
      "active", state.fields.intentCommitmentDigest⟩
  absent : moment.before.tables.claims.find permit = none
  present : moment.after.tables.claims.find permit = some row

theorem insertedOnHead_of_claimed
    (member : moment ∈ trace (authorizationStore library primitives).clientStep
      (start library) events) {state : AuthorizationState library}
    {snapshot : ExecutionAuthorizationSnapshot} {receipt : DurableExecutionClaimReceipt}
    (claimed : Claimed primitives moment state snapshot receipt) :
    ∃ row, InsertedOnHead primitives moment receipt.permitDigest row ∧
      moment.before.tables.claims.insert receipt.permitDigest row =
        some moment.after.tables.claims := by
  obtain ⟨-, sealing, digest, body⟩ := claimed_cases member claimed
  obtain ⟨head, inserted, -⟩ := claimBody_eq_ok body
  refine ⟨_, ⟨⟨state, snapshot, receipt, claimed, rfl, sealing, rfl, digest, ?_⟩,
    (insert_eq_some inserted).1, ?_⟩, inserted⟩
  · rw [head, digest]
  · rw [find_insert inserted, if_pos rfl]

theorem rows_insertedOnHead (events : List (ClientEvent (StoreCall library))) :
    ∀ permit row, (finalState (authorizationStore library primitives).clientStep
        (start library) events).tables.claims.find permit = some row →
      ∃ moment ∈ trace (authorizationStore library primitives).clientStep
        (start library) events, InsertedOnHead primitives moment permit row := by
  refine (trace_invariant (I := fun system : StoreSystem library => ∀ permit row,
    system.tables.claims.find permit = some row →
      ∃ moment ∈ trace (authorizationStore library primitives).clientStep
        (start library) events, InsertedOnHead primitives moment permit row)
    ?_ ?_).2
  · intro permit row found
    have impossible : none = some row := found
    cases impossible
  intro moment member earlier permit row found
  rcases storeMoment_cases member with ⟨same, -⟩ | ⟨state, -, -, -, -, body⟩ |
    ⟨previous, next, commit⟩ | ⟨state, snapshot, receipt, claimed⟩
  · rw [same] at found
    exact earlier permit row found
  · rw [(registerBody_eq_ok body).2] at found
    exact earlier permit row found
  · obtain ⟨transition, -, -, -, body⟩ := committed_cases member commit
    rw [(commitBody_eq_ok body).2.2.2.2] at found
    exact earlier permit row found
  · obtain ⟨own, onHead, inserted⟩ := insertedOnHead_of_claimed member claimed
    by_cases same : permit = receipt.permitDigest
    · subst same
      rw [onHead.present] at found
      cases found
      exact ⟨moment, member, onHead⟩
    · rw [find_insert inserted, if_neg same] at found
      exact earlier permit row found

theorem claims_on_two_permits (events : List (ClientEvent (StoreCall library))) :
    (trace (authorizationStore library primitives).clientStep (start library)
      events).Pairwise fun earlier later => ∀ state snapshot receipt state' snapshot' receipt',
        Claimed primitives earlier state snapshot receipt →
        Claimed primitives later state' snapshot' receipt' →
          receipt.permitDigest ≠ receipt'.permitDigest := by
  have kept := trace_pairwise (R := ClaimsKept) (fun _ _ _ found => found)
    (fun _ _ _ first second permit row found => second permit row (first permit row found))
    fun moment => @claimsKept_of_moment library primitives events moment
  refine kept.imp_of_mem ?_
  intro earlier later member member' onward state snapshot receipt state' snapshot' receipt' claimed
    claimed' same
  obtain ⟨row, onHead, -⟩ := insertedOnHead_of_claimed member claimed
  obtain ⟨row', onHead', -⟩ := insertedOnHead_of_claimed member' claimed'
  have there := onward _ _ onHead.present
  rw [same, onHead'.absent] at there
  cases there

theorem no_claim_after_commit (events : List (ClientEvent (StoreCall library)))
    (apart : SealsApart (StatesShown events)) :
    (trace (authorizationStore library primitives).clientStep (start library)
      events).Pairwise fun earlier later => ∀ previous next state snapshot receipt,
        Committed primitives earlier previous next →
        Claimed primitives later state snapshot receipt →
          state.fields.stateDigest ≠ previous.fields.stateDigest := by
  refine ((store_keepsHeads events).never_again apart).imp_of_mem ?_
  intro earlier later member member' left previous next state snapshot receipt committed claimed same
  obtain ⟨transition, shown, -, linking, -⟩ := committed_cases member committed
  obtain ⟨shown', sealing, -, body⟩ := claimed_cases member' claimed
  have contents := apart.contents shown' shown sealing linking.sealing same
  have head := (claimBody_eq_ok body).1
  apply left previous next committed
  unfold StoreSystem.headsOf
  rw [← contents.subject, head, ← same]
  rfl

variable (primitives events)

/-- A permit is claimed at most once, every claim was inserted while its state was the active head
of its subject, no claim on a state succeeds after a committed transition has left it, and a call
that raises leaves all the tables. -/
structure DurableClaims : Prop where
  once : (trace (authorizationStore library primitives).clientStep (StoreSystem.start library)
    events).Pairwise fun earlier later => ∀ state snapshot receipt state' snapshot' receipt',
      Claimed primitives earlier state snapshot receipt →
      Claimed primitives later state' snapshot' receipt' →
        receipt.permitDigest ≠ receipt'.permitDigest
  onHead : ∀ permit row, (finalState (authorizationStore library primitives).clientStep
      (StoreSystem.start library) events).tables.claims.find permit = some row →
    ∃ moment ∈ trace (authorizationStore library primitives).clientStep
      (StoreSystem.start library) events, InsertedOnHead primitives moment permit row
  left : (trace (authorizationStore library primitives).clientStep (StoreSystem.start library)
    events).Pairwise fun earlier later => ∀ previous next state snapshot receipt,
      Committed primitives earlier previous next →
      Claimed primitives later state snapshot receipt →
        state.fields.stateDigest ≠ previous.fields.stateDigest
  rolledBack : ∀ moment ∈ trace (authorizationStore library primitives).clientStep
      (StoreSystem.start library) events, ∀ message, moment.answer = some (.error message) →
    moment.after.tables = moment.before.tables

end Store

/-- Claims are exactly-once and bound to the head, whatever the clients of a store do. -/
theorem durable_claims {library : Library} (primitives : Primitives)
    (events : List (ClientEvent (StoreCall library))) (apart : SealsApart (StatesShown events)) :
    DurableClaims primitives events where
  once := claims_on_two_permits events
  onHead := rows_insertedOnHead events
  left := no_claim_after_commit events apart
  rolledBack _ member _ raised := Database.unchanged_of_error member raised

/-! ## A recorded claim -/

/-- A library that knows the digests of the claim below, whose texts have their case already. -/
def payLibrary : Library where
  upper := id
  lower := id
  hash tag _ := if tag = "koschei.authorization-state/v1" then repeated '1'
    else if tag = "koschei.intent-commitment/v1" then repeated '2'
    else if tag = "koschei.delegation-chain-authority/v1" then repeated '3'
    else repeated '4'

/-- The principal of the request. -/
def payPrincipal : String := "koschei:canonical-identity:v1:" ++ repeated 'c'

/-- Constraints that allow exactly the request. -/
def payConstraints : ConstraintSet where
  fields := {
    resources := ["vault"]
    operations := ["read"]
    arguments := ["everything"]
    audience := ["agent"]
    magnitudeMax := none
    validFromEpoch := 0
    expiresBeforeEpoch := none
    delegationDepth := 0
    redelegation := false }
  canonical := ⟨canonicalNames_single _, canonicalNames_single _, canonicalNames_single _,
      canonicalNames_single _, nofun, le_refl 0, nofun, le_refl 0⟩

def payLink : DelegationLink :=
  ⟨"d0", none, "owner", payPrincipal, payConstraints, none, 1, true, .valid, 1⟩

def payIntent : IntentCommitment := ⟨payPrincipal, repeated 'a', repeated '5', 0, 1⟩

def payFields : StateFields where
  subject := payPrincipal
  intentCommitmentDigest := repeated '2'
  delegationChainAuthorityDigest := repeated '3'
  authorityCeiling := payConstraints
  effectiveConstraints := payConstraints
  status := .active
  epoch := 1
  previousStateDigest := none
  stateDigest := repeated '1'

theorem payFields_admitted : payFields.postInit payLibrary = .ok () := by decide +kernel

def payState : AuthorizationState payLibrary := ⟨payFields, payFields_admitted⟩

def payMir : NativeSigilMir := ⟨vaultBindings, "universe", repeated 'a'⟩

def payRequest : CanonicalEffectRequest where
  effectId := "effect"
  subject := "vault"
  operation := "read"
  requestDigest := "everything"
  identityDigest := repeated 'c'
  epoch := 1
  nonceDigest := "nonce"
  nativeMirFingerprint := repeated 'a'
  universePlanDigest := "universe"
  digest := repeated 'a'
  activationPlanDigest := "plan"

def payClaim : ClaimExecution payLibrary where
  state := payState
  delegationChain := [payLink]
  intent := payIntent
  permit := payPermit (repeated 'b') "read"
  runtimeKey := recordedKey
  decisionKey := recordedKey
  grant := payGrant
  evidence := payEvidence
  decision := payDecision
  mir := payMir
  request := payRequest
  currentEpoch := 1
  claimKey := recordedKey

def paySnapshot : ExecutionAuthorizationSnapshot :=
  ⟨repeated '1', repeated '2', repeated '3', repeated '4', repeated '4', 1, repeated '4'⟩

def payReceipt : DurableExecutionClaimReceipt := payClaim.receipt hexPrimitives paySnapshot

theorem payClaim_prepared : prepareClaim hexPrimitives payClaim =
    .ok (.claim payState paySnapshot payReceipt) := by
  have read : text "read" "operation" = .ok "read" := text_ofList _ (by decide) rfl rfl
  have key : keyOf recordedKey "claim_key" = .ok recordedKey := by decide +kernel
  have binding : assertEffectAuthorizationBinding hexPrimitives payState payIntent payGrant payMir
      payRequest 1 = .ok () := by decide +kernel
  have sealing : payState.assertSealed = .ok () := by decide +kernel
  have snapshot : authorizationSnapshotForExecution payLibrary payState [payLink] 1 =
      .ok paySnapshot := by rfl
  have permit := payPermit_authentic (hexDigest_of_sound isDigest_b) read
  have live : (payPermit (repeated 'b') "read").isLiveFor 1 (repeated 'a') "read" = .ok true := by
    decide +kernel
  have isLive : ¬ true = false := nofun
  have receipt : payReceipt.assertAuthenticated hexPrimitives recordedKey payState paySnapshot
      (payPermit (repeated 'b') "read") = .ok () := by decide +kernel
  unfold prepareClaim
  refine (bind_of_ok key).trans ((bind_of_ok binding).trans ((bind_of_ok sealing).trans
    ((bind_of_ok snapshot).trans ((bind_of_ok permit).trans ((bind_of_ok live).trans
      ((bind_of_ok (refuse_of_not isLive)).trans (bind_of_ok receipt)))))))

/-- The state is registered. -/
def payRegistration : List (ClientEvent (StoreCall payLibrary)) :=
  [.start 0 (.registerInitial payState), .transact 0 true]

def payRegistered : StoreSystem payLibrary :=
  finalState (authorizationStore payLibrary hexPrimitives).clientStep (StoreSystem.start payLibrary)
    payRegistration

/-- Two clients prepare a claim with one permit. -/
def payPreparation : List (ClientEvent (StoreCall payLibrary)) :=
  payRegistration ++ [.start 1 (.claimExecution payClaim), .start 2 (.claimExecution payClaim)]

/-- Both go on. -/
def payEvents : List (ClientEvent (StoreCall payLibrary)) :=
  payPreparation ++ [.transact 1 true, .transact 2 true]

theorem payPreparation_final : finalState (authorizationStore payLibrary hexPrimitives).clientStep
        (start payLibrary) payPreparation =
      ⟨payRegistered.tables, [(2, .claim payState paySnapshot payReceipt),
        (1, .claim payState paySnapshot payReceipt)]⟩ := by
  have passed : (authorizationStore payLibrary hexPrimitives).prepare (.claimExecution payClaim) =
      .ok (.claim payState paySnapshot payReceipt) := payClaim_prepared
  have idle : payRegistered.without 1 = [] := rfl
  have apart : Clients.without ⟨payRegistered.tables,
      [(1, StorePrepared.claim payState paySnapshot payReceipt)]⟩ 2 =
        [(1, .claim payState paySnapshot payReceipt)] := rfl
  have start : finalState (authorizationStore payLibrary hexPrimitives).clientStep
      (start payLibrary) payRegistration = payRegistered := rfl
  rw [payPreparation, finalState_append, start, finalState, Database.clientStep_start passed, finalState,
    Database.clientStep_start passed, finalState, idle, apart]

/-- Two clients prepare a claim with one permit: the first transaction succeeds, and the permit is
claimed once. -/
theorem durable_claims_recorded :
    (∃ moment ∈ trace (authorizationStore payLibrary hexPrimitives).clientStep
        (StoreSystem.start payLibrary) payEvents,
      Claimed hexPrimitives moment payState paySnapshot payReceipt) ∧
    DurableClaims hexPrimitives payEvents := by
  refine ⟨?_, durable_claims hexPrimitives _ ?_⟩
  · have head : payRegistered.tables.heads.find payState.fields.subject =
        some (headRow payState) := rfl
    have fresh : payRegistered.tables.claims.find payReceipt.permitDigest = none := rfl
    obtain ⟨after, body⟩ := claimBody_of_head head rfl zero_le_one (by decide) fresh
    have member : ∀ moment ∈ trace (authorizationStore payLibrary hexPrimitives).clientStep
        ⟨payRegistered.tables, [(2, .claim payState paySnapshot payReceipt),
          (1, .claim payState paySnapshot payReceipt)]⟩ [.transact 1 true, .transact 2 true],
        moment ∈ trace (authorizationStore payLibrary hexPrimitives).clientStep
          (StoreSystem.start payLibrary) payEvents := by
      intro moment member
      rw [payEvents, trace_append, payPreparation_final]
      exact mem_append_right _ member
    have first := member _ mem_cons_self
    exact ⟨_, first, Database.ran_of_body first rfl rfl (body_claim_of_ok body paySnapshot)⟩
  · intro a b shown shown' _
    have known : ∀ state, StatesShown payEvents state → state = payState := by
      rintro state ⟨call, ⟨client, member⟩, inCall⟩
      simp only [payEvents, payPreparation, payRegistration, cons_append, nil_append,
        mem_cons, ClientEvent.start.injEq, reduceCtorEq, not_mem_nil, or_false,
        false_or] at member
      rcases member with ⟨-, rfl⟩ | ⟨-, rfl⟩ | ⟨-, rfl⟩ <;> exact mem_singleton.mp inCall
    rw [known a shown, known b shown']

end Koschei.Authorization
