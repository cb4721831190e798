import Koschei.Authorization.Constraints
import Mathlib.Data.List.Chain

/-!
# Authorization states and their transitions

The time-evolving authority of `authorization_transition_v1.py`. A state is
issued for a delegation chain that is valid at its epoch, under the constraints
of the last link as the ceiling; transitions narrow it, step it up again within
the ceiling, suspend, revoke or let it expire. A state is sealed with the digest
of its contents and names the digest of its predecessor.

`AuthorizationState` carries the checks of its constructor as a field: a state
whose effective constraints exceed its ceiling cannot be built.

`transition_cases` says everything one successful transition can do. The facts
about whole histories follow from it: they are relations between a state and a
later one that compose along the run.
-/

namespace Koschei.Authorization

open Lib ConstraintSet

/-! ## Intents and delegation links -/

/-- `IntentCommitmentV1`, after its constructor. -/
structure IntentCommitment where
  principal : String
  intentDigest : String
  purposeDigest : String
  createdEpoch : Int
  version : Int

/-- `IntentCommitmentV1.digest`: a commitment never carries authority. -/
def IntentCommitment.digest (library : Library) (intent : IntentCommitment) : String :=
  library.hash "koschei.intent-commitment/v1" (.object [("principal", .str intent.principal),
    ("intent_digest", .str intent.intentDigest),
    ("purpose_digest", .str intent.purposeDigest),
    ("created_epoch", .int intent.createdEpoch),
    ("authority", .bool false),
    ("version", .int intent.version)])

/-- `_REVOCATION_STATES`. -/
inductive RevocationStatus where
  | valid | revoked | unknown
  deriving DecidableEq

def RevocationStatus.text : RevocationStatus → String
  | .valid => "valid"
  | .revoked => "revoked"
  | .unknown => "unknown"

/-- `DelegationLinkV1`, after its constructor. -/
structure DelegationLink where
  delegationId : String
  parentDelegationId : Option String
  issuer : String
  subject : String
  constraints : ConstraintSet
  parentCommitment : Option String
  checkedEpoch : Int
  signatureValid : Bool
  revocationStatus : RevocationStatus
  version : Int

namespace DelegationLink

variable (library : Library)

/-- `authority_digest`. -/
def authorityDigest (link : DelegationLink) : String :=
  library.hash "koschei.delegation-authority/v1" (.object [
    ("delegation_id", .str link.delegationId),
    ("parent_delegation_id", .optionalText link.parentDelegationId),
    ("issuer", .str link.issuer),
    ("subject", .str link.subject),
    ("constraints_digest", .str (link.constraints.digest library)),
    ("parent_commitment", .optionalText link.parentCommitment),
    ("version", .int link.version)])

/-- `verification_digest`. -/
def verificationDigest (link : DelegationLink) : String :=
  library.hash "koschei.delegation-verification/v1" (.object [
    ("authority_digest", .str (link.authorityDigest library)),
    ("checked_epoch", .int link.checkedEpoch),
    ("signature_valid", .bool link.signatureValid),
    ("revocation_status", .str link.revocationStatus.text)])

/-- `assert_current`. -/
def assertCurrent (link : DelegationLink) (epoch : Int) : Checked Unit := do
  let now ← epochOf epoch "epoch"
  refuse (link.checkedEpoch ≠ now) "delegation validity is stale for execution epoch"
  refuse (link.signatureValid = false) "delegation signature is not currently valid"
  refuse (link.revocationStatus ≠ .valid) "delegation revocation state is not currently valid"
  link.constraints.assertLive now

def assertChild (now : Int) (parent link : DelegationLink) : Checked Unit := do
  link.assertCurrent now
  parent.assertCurrent now
  refuse (link.parentDelegationId ≠ some parent.delegationId) "delegation parent id mismatch"
  refuse (link.parentCommitment ≠ some (parent.authorityDigest library))
    "delegation parent commitment mismatch"
  refuse (link.issuer ≠ parent.subject) "delegation issuer is not the parent subject"
  link.constraints.assertAttenuates parent.constraints true

/-- The loop over the links after the first. -/
def assertChildren (now : Int) : DelegationLink → List DelegationLink → Checked Unit
  | _, [] => .ok ()
  | parent, link :: rest => do
    assertChild library now parent link
    assertChildren now link rest

end DelegationLink

section Chain

variable (library : Library)

/-- `delegation_chain_authority_digest_v1`. -/
def delegationChainAuthorityDigest (chain : List DelegationLink) : Checked String :=
  if chain.isEmpty then .error "delegation chain cannot be empty"
  else .ok (library.hash "koschei.delegation-chain-authority/v1"
    (.texts (chain.map fun link => link.authorityDigest library)))

/-- `assert_delegation_chain_current_v1`. -/
def assertDelegationChainCurrent (chain : List DelegationLink) (executionEpoch : Int) :
    Checked String := do
  let now ← epochOf executionEpoch "execution_epoch"
  match chain with
  | [] => .error "delegation chain cannot be empty"
  | first :: rest => do
    first.assertCurrent now
    refuse (first.parentDelegationId ≠ none ∨ first.parentCommitment ≠ none)
      "root delegation cannot name a parent"
    DelegationLink.assertChildren library now first rest
    .ok (library.hash "koschei.delegation-chain-current/v1"
      (.texts (chain.map fun link => link.verificationDigest library)))

end Chain

/-! ## States -/

/-- `_STATUSES`. -/
inductive Status where
  | active | suspended | revoked | expired
  deriving DecidableEq

def Status.text : Status → String
  | .active => "active"
  | .suspended => "suspended"
  | .revoked => "revoked"
  | .expired => "expired"

/-- The fields of `AuthorizationStateV1`. -/
structure StateFields where
  subject : String
  intentCommitmentDigest : String
  delegationChainAuthorityDigest : String
  authorityCeiling : ConstraintSet
  effectiveConstraints : ConstraintSet
  status : Status
  epoch : Int
  previousStateDigest : Option String
  stateDigest : String
  version : Int := 1

/-- The check of a digest that may be missing. -/
def optionalDigest (library : Library) (label : String) : Option String → Checked Unit
  | none => .ok ()
  | some value => do
    let _ ← digest library value label
    .ok ()

/-- `AuthorizationStateV1.__post_init__`. An empty state digest is not checked. -/
def StateFields.postInit (library : Library) (fields : StateFields) : Checked Unit := do
  let _ ← text fields.subject "subject"
  let _ ← digest library fields.intentCommitmentDigest "intent_commitment_digest"
  let _ ← digest library fields.delegationChainAuthorityDigest "delegation_chain_authority_digest"
  let _ ← epochOf fields.epoch "epoch"
  optionalDigest library "previous_state_digest" fields.previousStateDigest
  optionalDigest library "state_digest"
    (if fields.stateDigest = "" then none else some fields.stateDigest)
  fields.effectiveConstraints.assertAttenuates fields.authorityCeiling false

/-- `_state_digest`. The digest of the state itself is not part of what is hashed. -/
def sealOf (library : Library) (fields : StateFields) : String :=
  library.hash "koschei.authorization-state/v1" (.object [("subject", .str fields.subject),
    ("intent_commitment_digest", .str fields.intentCommitmentDigest),
    ("delegation_chain_authority_digest", .str fields.delegationChainAuthorityDigest),
    ("authority_ceiling_digest", .str (fields.authorityCeiling.digest library)),
    ("effective_constraints_digest", .str (fields.effectiveConstraints.digest library)),
    ("status", .str fields.status.text),
    ("epoch", .int fields.epoch),
    ("previous_state_digest", .optionalText fields.previousStateDigest),
    ("authority", .bool false),
    ("version", .int fields.version)])

/-- An authorization state, as it comes out of its constructor. -/
structure AuthorizationState (library : Library) where
  fields : StateFields
  admitted : fields.postInit library = .ok ()

namespace AuthorizationState

variable {library : Library}

/-- The constructor of `AuthorizationStateV1`. -/
def build (library : Library) (fields : StateFields) : Checked (AuthorizationState library) :=
  match admitted : fields.postInit library with
  | .ok () => .ok ⟨fields, admitted⟩
  | .error message => .error message

/-- `replace(state, state_digest=_state_digest(state))`. -/
def sealed (library : Library) (fields : StateFields) : Checked (AuthorizationState library) := do
  let unsealed ← build library { fields with stateDigest := "" }
  build library { unsealed.fields with stateDigest := sealOf library unsealed.fields }

variable {fields : StateFields} {state : AuthorizationState library}

theorem build_eq_ok (built : build library fields = .ok state) : state.fields = fields := by
  unfold build at built
  split at built
  · cases built
    rfl
  · cases built

theorem build_of_admitted (admitted : fields.postInit library = .ok ()) :
    build library fields = .ok ⟨fields, admitted⟩ := by
  unfold build
  split
  · rfl
  · rename_i refused
    rw [admitted] at refused
    cases refused

theorem sealed_eq_ok (built : sealed library fields = .ok state) :
    state.fields = { fields with stateDigest := sealOf library fields } := by
  obtain ⟨unsealed, first, second⟩ := bind_eq_ok built
  rw [build_eq_ok second, build_eq_ok first]
  rfl

theorem attenuates (state : AuthorizationState library) :
    Attenuates state.fields.effectiveConstraints state.fields.authorityCeiling := by
  have admitted := state.admitted
  simp only [StateFields.postInit, bind_eq_ok_iff] at admitted
  obtain ⟨_, -, _, -, _, -, _, -, _, -, _, -, attenuation⟩ := admitted
  exact attenuates_of_ok attenuation

end AuthorizationState

/-- `issue_authorization_state_v1`. -/
def issueAuthorizationState (library : Library) (intent : IntentCommitment)
    (chain : List DelegationLink) (epoch : Int) (effectiveConstraints : Option ConstraintSet) :
    Checked (AuthorizationState library) := do
  let now ← epochOf epoch "epoch"
  let _ ← assertDelegationChainCurrent library chain now
  match chain.getLast? with
  | none => .error "delegation chain cannot be empty"
  | some leaf => do
    refuse (intent.principal ≠ leaf.subject) "intent principal does not match delegated subject"
    let ceiling := leaf.constraints
    let effective := effectiveConstraints.getD ceiling
    effective.assertAttenuates ceiling false
    effective.assertLive now
    let chainDigest ← delegationChainAuthorityDigest library chain
    AuthorizationState.sealed library {
      subject := leaf.subject
      intentCommitmentDigest := intent.digest library
      delegationChainAuthorityDigest := chainDigest
      authorityCeiling := ceiling
      effectiveConstraints := effective
      status := .active
      epoch := now
      previousStateDigest := none
      stateDigest := "" }

/-! ## Transitions -/

/-- `_TRANSITIONS`. -/
inductive TransitionKind where
  | narrow | stepUp | suspend | revoke | expire
  deriving DecidableEq

def TransitionKind.text : TransitionKind → String
  | .narrow => "NARROW"
  | .stepUp => "STEP_UP"
  | .suspend => "SUSPEND"
  | .revoke => "REVOKE"
  | .expire => "EXPIRE"

/-- The kind a text names. -/
def transitionKind (library : Library) (kind : String) : Checked TransitionKind := do
  let written ← text kind "kind"
  match [TransitionKind.narrow, .stepUp, .suspend, .revoke, .expire].find?
      fun known => known.text == library.upper written with
  | some known => .ok known
  | none => .error "unknown authorization transition"

/-- `AuthorizationTransitionV1`. -/
structure AuthorizationTransition where
  kind : String
  epoch : Int
  previousStateDigest : String
  nextStateDigest : String
  reasonDigest : String
  transitionDigest : String
  version : Int := 1

/-- The digest of a transition. -/
def AuthorizationTransition.sealOf (library : Library) (transition : AuthorizationTransition) :
    String :=
  library.hash "koschei.authorization-transition/v1" (.object [("kind", .str transition.kind),
    ("epoch", .int transition.epoch),
    ("previous_state_digest", .str transition.previousStateDigest),
    ("next_state_digest", .str transition.nextStateDigest),
    ("reason_digest", .str transition.reasonDigest),
    ("version", .int transition.version)])

/-- What a transition leaves: the effective constraints and the status. -/
def nextAuthority {library : Library} (current : AuthorizationState library) (kind : TransitionKind)
    (proposed : Option ConstraintSet) : Checked (ConstraintSet × Status) :=
  match kind, proposed with
  | .narrow, none => .error "NARROW requires next_effective_constraints"
  | .narrow, some next => do
    next.assertAttenuates current.fields.effectiveConstraints false
    .ok (next, .active)
  | .stepUp, none => .error "STEP_UP requires next_effective_constraints"
  | .stepUp, some next => do
    next.assertAttenuates current.fields.authorityCeiling false
    .ok (next, .active)
  | kind, some _ => .error (kind.text ++ " cannot change constraints")
  | .suspend, none => .ok (current.fields.effectiveConstraints, .suspended)
  | .revoke, none => .ok (current.fields.effectiveConstraints, .revoked)
  | .expire, none => .ok (current.fields.effectiveConstraints, .expired)

/-- `transition_authorization_state_v1`. -/
def transitionAuthorizationState (library : Library) (current : AuthorizationState library)
    (kind : String) (epoch : Int) (reasonDigest : String) (proposed : Option ConstraintSet) :
    Checked (AuthorizationState library × AuthorizationTransition) := do
  refuse (sealOf library { current.fields with stateDigest := "" } ≠ current.fields.stateDigest)
    "authorization state seal mismatch"
  let transition ← transitionKind library kind
  let now ← epochOf epoch "epoch"
  refuse (now ≤ current.fields.epoch) "authorization transition epoch must increase"
  let reason ← digest library reasonDigest "reason_digest"
  refuse (current.fields.status = .revoked ∨ current.fields.status = .expired)
    "terminal authorization state cannot transition"
  refuse (current.fields.status = .suspended ∧ ¬ (transition = .revoke ∨ transition = .expire))
    "suspended authority cannot silently recover"
  let (effective, status) ← nextAuthority current transition proposed
  let next ← AuthorizationState.sealed library {
    subject := current.fields.subject
    intentCommitmentDigest := current.fields.intentCommitmentDigest
    delegationChainAuthorityDigest := current.fields.delegationChainAuthorityDigest
    authorityCeiling := current.fields.authorityCeiling
    effectiveConstraints := effective
    status := status
    epoch := now
    previousStateDigest := some current.fields.stateDigest
    stateDigest := "" }
  let receipt : AuthorizationTransition := {
    kind := transition.text
    epoch := now
    previousStateDigest := current.fields.stateDigest
    nextStateDigest := next.fields.stateDigest
    reasonDigest := reason
    transitionDigest := "" }
  .ok (next, { receipt with transitionDigest := receipt.sealOf library })

variable {epoch : Int}

theorem issue_cases {library : Library} {intent : IntentCommitment} {chain : List DelegationLink}
    {constraints : Option ConstraintSet} {issued : AuthorizationState library}
    (issuance : issueAuthorizationState library intent chain epoch constraints = .ok issued) :
    issued.fields.status = .active ∧ issued.fields.previousStateDigest = none := by
  unfold issueAuthorizationState at issuance
  obtain ⟨now, -, issuance⟩ := bind_eq_ok issuance
  obtain ⟨_, -, issuance⟩ := bind_eq_ok issuance
  split at issuance
  · cases issuance
  · obtain ⟨_, -, issuance⟩ := bind_eq_ok issuance
    obtain ⟨_, -, issuance⟩ := bind_eq_ok issuance
    obtain ⟨_, -, issuance⟩ := bind_eq_ok issuance
    obtain ⟨_, -, issuance⟩ := bind_eq_ok issuance
    rw [AuthorizationState.sealed_eq_ok issuance]
    exact ⟨rfl, rfl⟩

/-! ## What a transition does -/

section Histories

variable {library : Library}

/-- What never changes along a history. -/
structure SameAuthority (a b : AuthorizationState library) : Prop where
  subject : b.fields.subject = a.fields.subject
  intent : b.fields.intentCommitmentDigest = a.fields.intentCommitmentDigest
  chain : b.fields.delegationChainAuthorityDigest = a.fields.delegationChainAuthorityDigest
  ceiling : b.fields.authorityCeiling = a.fields.authorityCeiling

/-- A status that no transition leaves. -/
def Status.Terminal (status : Status) : Prop := status = .revoked ∨ status = .expired

/-- The second state comes after the first: what is known however many transitions lie
between them. -/
structure Later (a b : AuthorizationState library) : Prop where
  same : SameAuthority a b
  epoch : a.fields.epoch < b.fields.epoch
  live : ¬ a.fields.status.Terminal
  suspended : a.fields.status = .suspended → b.fields.status.Terminal

/-- The second state names the digest of the first, and that is the digest of its contents. -/
def Linked (a b : AuthorizationState library) : Prop :=
  b.fields.previousStateDigest = some a.fields.stateDigest ∧
    a.fields.stateDigest = sealOf library a.fields

/-- One successful transition, of any kind. -/
def Transitions (a b : AuthorizationState library) : Prop := ∃ kind epoch reason proposed receipt,
    transitionAuthorizationState library a kind epoch reason proposed = .ok (b, receipt)

variable {status : Status}

theorem nextAuthority_terminal {current : AuthorizationState library} {kind : TransitionKind}
    {proposed : Option ConstraintSet} {effective : ConstraintSet}
    (ends : kind = .revoke ∨ kind = .expire)
    (next : nextAuthority current kind proposed = .ok (effective, status)) : status.Terminal := by
  rcases ends with rfl | rfl
  · cases proposed with
    | none =>
      cases next
      exact .inl rfl
    | some constraints => cases next
  · cases proposed with
    | none =>
      cases next
      exact .inr rfl
    | some constraints => cases next

variable {a b c : AuthorizationState library}

theorem transition_cases (step : Transitions a b) : Later a b ∧ Linked a b := by
  obtain ⟨kind, epoch, reason, proposed, receipt, run⟩ := step
  simp only [transitionAuthorizationState, bind_eq_ok_iff, refuse_iff, exists_and_left,
    exists_const, ne_eq, not_not, not_le] at run
  obtain ⟨sealing, transition, -, now, clock, increases, digest, -, live, recovers,
    ⟨effective, status⟩, authority, next, built, ⟨⟩⟩ := run
  have fields := AuthorizationState.sealed_eq_ok built
  refine ⟨⟨⟨?_, ?_, ?_, ?_⟩, ?_, live, ?_⟩, ?_, ?_⟩
  · rw [fields]
  · rw [fields]
  · rw [fields]
  · rw [fields]
  · rw [fields]
    exact increases
  · intro suspended
    have ends : transition = .revoke ∨ transition = .expire := by
      by_contra other
      exact recovers ⟨suspended, other⟩
    rw [fields]
    exact nextAuthority_terminal ends authority
  · rw [fields]
  · exact sealing.symm

theorem transitions_of {kind reason lowered : String} {transition : TransitionKind} {epoch : Int}
    (sealing : sealOf library a.fields = a.fields.stateDigest)
    (named : transitionKind library kind = .ok transition)
    (clock : 0 ≤ epoch) (increases : a.fields.epoch < epoch)
    (justified : digest library reason "reason_digest" = .ok lowered)
    (live : ¬ a.fields.status.Terminal)
    (ends : a.fields.status = .suspended → transition = .revoke ∨ transition = .expire)
    (authority : nextAuthority a transition none = .ok (a.fields.effectiveConstraints, status))
    (built : AuthorizationState.sealed library { a.fields with
      status := status
      epoch := epoch
      previousStateDigest := some a.fields.stateDigest
      stateDigest := ""
      version := 1 } = .ok b) :
    Transitions a b := by
  refine ⟨kind, epoch, reason, none, ?receipt, ?run⟩
  case run =>
    unfold transitionAuthorizationState
    have unsealed : sealOf library { a.fields with stateDigest := "" } = a.fields.stateDigest :=
      sealing
    have status : ¬ (a.fields.status = .revoked ∨ a.fields.status = .expired) := live
    have recovers : ¬ (a.fields.status = .suspended ∧
        ¬ (transition = .revoke ∨ transition = .expire)) := fun both => both.2 (ends both.1)
    rw [bind_of_ok (refuse_of_not (not_not.mpr unsealed)), bind_of_ok named,
      bind_of_ok (epochOf_of_nonneg clock), bind_of_ok (refuse_of_not (not_le.mpr increases)),
      bind_of_ok justified, bind_of_ok (refuse_of_not status), bind_of_ok (refuse_of_not recovers),
      bind_of_ok authority]
    exact bind_of_ok built

/-! ## Histories -/

theorem SameAuthority.trans (first : SameAuthority a b)
    (second : SameAuthority b c) : SameAuthority a c where
  subject := second.subject.trans first.subject
  intent := second.intent.trans first.intent
  chain := second.chain.trans first.chain
  ceiling := second.ceiling.trans first.ceiling

/-- A state after a suspended one is terminal, so nothing comes after it. -/
theorem Later.trans (first : Later a b) (second : Later b c) : Later a c where
  same := first.same.trans second.same
  epoch := lt_trans first.epoch second.epoch
  live := first.live
  suspended isSuspended := absurd (first.suspended isSuspended) second.live

instance : IsTrans (AuthorizationState library) Later := ⟨fun _ _ _ => Later.trans⟩

theorem history_pairwise {states : List (AuthorizationState library)}
    (history : states.IsChain Transitions) : states.Pairwise Later :=
  (history.imp fun _ _ step => (transition_cases step).1).pairwise

/-- The authorization state machine over a whole history. -/
theorem history_authorized {intent : IntentCommitment} {chain : List DelegationLink} {epoch : Int}
    {constraints : Option ConstraintSet} {issued : AuthorizationState library}
    {states : List (AuthorizationState library)}
    (issuance : issueAuthorizationState library intent chain epoch constraints = .ok issued)
    (history : (issued :: states).IsChain Transitions) :
    (∀ state ∈ issued :: states,
        Attenuates state.fields.effectiveConstraints state.fields.authorityCeiling ∧
          SameAuthority issued state) ∧
      (issued :: states).Pairwise (fun a b => a.fields.epoch < b.fields.epoch) ∧
      (issued.fields.previousStateDigest = none ∧ (issued :: states).IsChain Linked) ∧
      (issued :: states).Pairwise (fun a _ => ¬ a.fields.status.Terminal) ∧
      (issued :: states).Pairwise
        (fun a b => a.fields.status = .suspended → b.fields.status ≠ .active) := by
  have ordered := history_pairwise history
  refine ⟨?_, ordered.imp Later.epoch,
    ⟨(issue_cases issuance).2, history.imp fun _ _ step => (transition_cases step).2⟩,
    ordered.imp Later.live, ordered.imp ?_⟩
  · intro state member
    refine ⟨state.attenuates, ?_⟩
    rcases mem_cons.mp member with rfl | member
    · exact ⟨rfl, rfl, rfl, rfl⟩
    · exact ((pairwise_cons.mp ordered).1 state member).same
  · intro a b later suspended active
    have terminal := later.suspended suspended
    rw [active] at terminal
    rcases terminal with impossible | impossible <;> cases impossible

end Histories

/-! ## A recorded history -/

/-- The seals of the history below, by epoch. -/
def sealAt (epoch : Int) : String :=
  if epoch = 1 then "2edaece9222ac680ae83f03e67a2c5cc4bfeea7e35196ef48667153f7ac5a665"
  else if epoch = 2 then "9bd2acf0def325810f0af6da7c67352c92d1cfafbfa5e03fa951094393d569df"
  else "8909f6306187459df7c09197a4b0753dc6870b266c526af11c1a6408803b4b8d"

/-- The digests of the history below. -/
def recordedHash (tag : String) (payload : Payload) : String := match tag, payload with
  | "koschei.constraint-set/v1", _ =>
    "546df389ae9866cc5600eefb053a6942a63e442216b49f14b1686297761dc3b3"
  | "koschei.intent-commitment/v1", _ =>
    "82c863bd9cd967b1671bf7e6589be981aad936882f215ae39aba3aeb08445595"
  | "koschei.delegation-authority/v1", _ =>
    "2df1a5049c3cc15f7bfeafcb2ac1dbafdcb0c4ae5b3cbdc4dce573e54833b923"
  | "koschei.delegation-verification/v1", _ =>
    "e938a6046a68176ed9920947e878f1af6e4064c19842e42daa1c31f2e3ecb088"
  | "koschei.delegation-chain-authority/v1", _ =>
    "a2e935223be54880753544b091ec984043de9e199a5d8818395c717abad81e33"
  | "koschei.delegation-chain-current/v1", _ =>
    "2491292f9ec74464879d5769ba90faecbf6555ade72af2d25227ce861b7b013c"
  | "koschei.authorization-state/v1",
      .object [_, _, _, _, _, _, (_, .int epoch), _, _, _] => sealAt epoch
  | _, .object ((_, .str "SUSPEND") :: _) =>
    "a4dba48a5577eecbb7f442f6e6efcd269de3c30329fffb92cd76f78a7a654ac4"
  | _, _ => "9f454921502e44f683cad0355667e3421dcc016a72beee6402498f25f8ac1372"

/-- A library that knows the digests of the recorded history, whose texts have their case
already. -/
def recordedLibrary : Library := ⟨id, id, recordedHash⟩

/-- What the owner delegates. -/
def readWrite : ConstraintSet where
  fields := {
    resources := ["ledger"]
    operations := ["read", "write"]
    arguments := ["any"]
    audience := ["bank"]
    magnitudeMax := some 10
    validFromEpoch := 0
    expiresBeforeEpoch := none
    delegationDepth := 1
    redelegation := false }
  canonical := by
    have single : ∀ name : String, CanonicalNames [name] := fun name =>
      ⟨cons_ne_nil _ _, pairwise_singleton _ _, nodup_singleton _⟩
    refine ⟨single _, ⟨cons_ne_nil _ _, by decide +kernel, by decide⟩, single _, single _, ?_,
      le_refl 0, ?_, zero_le_one⟩
    · intro bound stated
      cases stated
      decide
    · intro expiry stated
      cases stated

def ownerLink : DelegationLink :=
  ⟨"d0", none, "owner", "agent", readWrite, none, 1, true, .valid, 1⟩

def agentIntent : IntentCommitment :=
  ⟨"agent", ofList (replicate 64 '1'), ofList (replicate 64 '2'), 0, 1⟩

def intentDigest : String := "82c863bd9cd967b1671bf7e6589be981aad936882f215ae39aba3aeb08445595"

def chainDigest : String := "a2e935223be54880753544b091ec984043de9e199a5d8818395c717abad81e33"

theorem recorded_digest {value : String} (label : String)
    (member : value ∈ [intentDigest, chainDigest, sealAt 1, sealAt 2, sealAt 3]) :
    digest recordedLibrary value label = .ok value := by
  have passes : ∀ value ∈ [intentDigest, chainDigest, sealAt 1, sealAt 2, sealAt 3],
      (value.toList.length == 64 && value.toList.all isHex &&
        value.toList != replicate 64 '0') = true := by
    decide +kernel
  have passed := passes value member
  rw [and_eq_true, and_eq_true, all_eq_true] at passed
  obtain ⟨⟨length, hexadecimal⟩, nonzero⟩ := passed
  have lowered : recordedLibrary.lower value = value := rfl
  unfold digest
  rw [if_neg (by simpa [length_toList] using length)]
  dsimp only
  rw [lowered, if_neg]
  rw [or_eq_true, any_eq_true]
  rintro (⟨c, member, wrong⟩ | zero)
  · rw [hexadecimal c member] at wrong
    cases wrong
  · rw [bne, zero] at nonzero
    cases nonzero

/-- The states of the recorded history, with any seal. -/
def recordedFields (status : Status) (epoch : Int) (previous : Option String) (own : String) :
    StateFields where
  subject := "agent"
  intentCommitmentDigest := intentDigest
  delegationChainAuthorityDigest := chainDigest
  authorityCeiling := readWrite
  effectiveConstraints := readWrite
  status := status
  epoch := epoch
  previousStateDigest := previous
  stateDigest := own

variable {previous : Option String} {status : Status}

theorem recorded_admitted {own : String}
    (clock : 0 ≤ epoch) (known : previous ∈ [none, some (sealAt 1), some (sealAt 2)])
    (sealing : own ∈ ["", sealAt 1, sealAt 2, sealAt 3]) :
    (recordedFields status epoch previous own).postInit recordedLibrary = .ok () := by
  have subject : text "agent" "subject" = .ok "agent" := by decide +kernel
  have attenuated : readWrite.assertAttenuates readWrite false = .ok () := by decide +kernel
  have intent : digest recordedLibrary intentDigest "intent_commitment_digest" = .ok intentDigest :=
    recorded_digest _ (by simp)
  have chain : digest recordedLibrary chainDigest "delegation_chain_authority_digest" =
      .ok chainDigest := recorded_digest _ (by simp)
  have linked : optionalDigest recordedLibrary "previous_state_digest" previous = .ok () := by
    cases previous with
    | none => rfl
    | some value =>
      rw [optionalDigest, recorded_digest _ (by simp at known; grind)]
      rfl
  have ownDigest : optionalDigest recordedLibrary "state_digest"
      (if own = "" then none else some own) = .ok () := by
    split
    · rfl
    · rw [optionalDigest, recorded_digest _ (by simp at sealing; grind)]
      rfl
  unfold StateFields.postInit recordedFields
  rw [bind_of_ok subject, bind_of_ok intent, bind_of_ok chain, bind_of_ok (epochOf_of_nonneg clock),
    bind_of_ok linked, bind_of_ok ownDigest]
  exact attenuated

def recordedState (status : Status) (epoch : Int) (previous : Option String) (clock : 0 ≤ epoch)
    (known : previous ∈ [none, some (sealAt 1), some (sealAt 2)])
    (sealing : sealAt epoch ∈ ["", sealAt 1, sealAt 2, sealAt 3]) :
    AuthorizationState recordedLibrary :=
  ⟨recordedFields status epoch previous (sealAt epoch), recorded_admitted clock known sealing⟩

theorem recorded_sealed
    (clock : 0 ≤ epoch) (known : previous ∈ [none, some (sealAt 1), some (sealAt 2)])
    (sealing : sealAt epoch ∈ ["", sealAt 1, sealAt 2, sealAt 3]) :
    AuthorizationState.sealed recordedLibrary (recordedFields status epoch previous "") =
      .ok (recordedState status epoch previous clock known sealing) := by
  have unsealed : (recordedFields status epoch previous "").postInit recordedLibrary = .ok () :=
    recorded_admitted clock known (by simp)
  refine (bind_of_ok (AuthorizationState.build_of_admitted unsealed)).trans ?_
  exact AuthorizationState.build_of_admitted (recorded_admitted clock known sealing)

def issuedState : AuthorizationState recordedLibrary :=
  recordedState .active 1 none (by decide) (by simp) (by simp)

def suspendedState : AuthorizationState recordedLibrary :=
  recordedState .suspended 2 (some (sealAt 1)) (by decide) (by simp) (by simp)

def revokedState : AuthorizationState recordedLibrary :=
  recordedState .revoked 3 (some (sealAt 2)) (by decide) (by simp) (by simp)

/-- The recorded history is issued, suspended and revoked, at increasing epochs. -/
theorem recordedHistory_authorized :
    issueAuthorizationState recordedLibrary agentIntent [ownerLink] 1 none = .ok issuedState ∧
      [issuedState, suspendedState, revokedState].IsChain Transitions ∧
      [issuedState, suspendedState, revokedState].IsChain Linked := by
  have current : assertDelegationChainCurrent recordedLibrary [ownerLink] 1 =
      .ok (recordedHash "koschei.delegation-chain-current/v1" .null) := rfl
  have intent : agentIntent.digest recordedLibrary = intentDigest := rfl
  have chain : delegationChainAuthorityDigest recordedLibrary [ownerLink] = .ok chainDigest := rfl
  have attenuated : readWrite.assertAttenuates readWrite false = .ok () := rfl
  have alive : readWrite.assertLive 1 = .ok () := rfl
  have issuance : issueAuthorizationState recordedLibrary agentIntent [ownerLink] 1 none =
      .ok issuedState := by
    have built : AuthorizationState.sealed recordedLibrary (recordedFields .active 1 none "") =
        .ok issuedState := recorded_sealed _ _ _
    have subject : refuse (agentIntent.principal ≠ ownerLink.subject)
        "intent principal does not match delegated subject" = .ok () := rfl
    unfold issueAuthorizationState
    rw [bind_of_ok (epochOf_of_nonneg zero_le_one), bind_of_ok current]
    refine (bind_of_ok subject).trans ((bind_of_ok attenuated).trans ?_)
    rw [intent]
    exact (bind_of_ok alive).trans ((bind_of_ok chain).trans built)
  have reason : digest recordedLibrary intentDigest "reason_digest" = .ok intentDigest :=
    recorded_digest _ mem_cons_self
  have suspend : Transitions issuedState suspendedState := by
    have named : transitionKind recordedLibrary " SUSPEND " = .ok .suspend := by decide +kernel
    have live : ¬ Status.active.Terminal := by rintro (impossible | impossible) <;> cases impossible
    have built : AuthorizationState.sealed recordedLibrary
        (recordedFields .suspended 2 (some (sealAt 1)) "") = .ok suspendedState :=
      recorded_sealed _ _ _
    have sealing : sealOf recordedLibrary issuedState.fields = issuedState.fields.stateDigest := rfl
    have authority : nextAuthority issuedState .suspend none =
        .ok (issuedState.fields.effectiveConstraints, .suspended) := rfl
    have active : issuedState.fields.status ≠ .suspended := nofun
    exact transitions_of sealing named (by decide) (show (1 : Int) < 2 by decide) reason live
      (fun suspended => absurd suspended active) authority built
  have revoke : Transitions suspendedState revokedState := by
    have named : transitionKind recordedLibrary "REVOKE" = .ok .revoke := by decide +kernel
    have live : ¬ Status.suspended.Terminal := by
      rintro (impossible | impossible) <;> cases impossible
    have built : AuthorizationState.sealed recordedLibrary
        (recordedFields .revoked 3 (some (sealAt 2)) "") = .ok revokedState :=
      recorded_sealed _ _ _
    have sealing : sealOf recordedLibrary suspendedState.fields =
        suspendedState.fields.stateDigest := rfl
    have authority : nextAuthority suspendedState .revoke none =
        .ok (suspendedState.fields.effectiveConstraints, .revoked) := rfl
    exact transitions_of sealing named (by decide) (show (2 : Int) < 3 by decide) reason live
      (fun _ => .inl rfl) authority built
  have history : [issuedState, suspendedState, revokedState].IsChain Transitions :=
    .cons_cons suspend (.cons_cons revoke (.singleton _))
  exact ⟨issuance, history, (history_authorized issuance history).2.2.1.2⟩

end Koschei.Authorization
