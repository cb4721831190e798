import Koschei.Authorization.Transition

/-!
# Delegation chains and execution snapshots

A delegation chain that `assert_delegation_chain_current_v1` accepts at an epoch
is a chain of narrowing authority. Each link is checked against its parent only;
attenuation is transitive, so each link attenuates every earlier one, and a hop
uses up delegation depth, so a chain is no longer than its root allows.

`authorization_snapshot_for_execution_v1` accepts a state only when its
effective constraints attenuate the last link of such a chain. What they allow
is therefore allowed by the root.
-/

namespace Koschei.Authorization

open Lib ConstraintSet

/-! ## Snapshots for execution -/

/-- `AuthorizationStateV1.assert_active`. -/
def AuthorizationState.assertActive {library : Library} (state : AuthorizationState library)
    (epoch : Int) : Checked Unit := do
  let now ← epochOf epoch "epoch"
  refuse (state.fields.status ≠ .active) "authorization state is not active"
  refuse (now < state.fields.epoch) "authorization state is from the future"
  state.fields.effectiveConstraints.assertLive now

/-- `ExecutionAuthorizationSnapshotV1`. It never carries authority. -/
structure ExecutionAuthorizationSnapshot where
  stateDigest : String
  intentCommitmentDigest : String
  delegationChainAuthorityDigest : String
  delegationCurrentVerificationDigest : String
  effectiveConstraintsDigest : String
  executionEpoch : Int
  snapshotDigest : String

/-- The digest of a snapshot. -/
def ExecutionAuthorizationSnapshot.sealOf (library : Library)
    (snapshot : ExecutionAuthorizationSnapshot) : String :=
  library.hash "koschei.execution-authorization-snapshot/v1" (.object [
    ("state_digest", .str snapshot.stateDigest),
    ("intent_commitment_digest", .str snapshot.intentCommitmentDigest),
    ("delegation_chain_authority_digest", .str snapshot.delegationChainAuthorityDigest),
    ("delegation_current_verification_digest", .str snapshot.delegationCurrentVerificationDigest),
    ("effective_constraints_digest", .str snapshot.effectiveConstraintsDigest),
    ("execution_epoch", .int snapshot.executionEpoch),
    ("authority", .bool false),
    ("version", .int 1)])

/-- `authorization_snapshot_for_execution_v1`. -/
def authorizationSnapshotForExecution (library : Library) (state : AuthorizationState library)
    (chain : List DelegationLink) (executionEpoch : Int) :
    Checked ExecutionAuthorizationSnapshot := do
  let now ← epochOf executionEpoch "execution_epoch"
  refuse (sealOf library { state.fields with stateDigest := "" } ≠ state.fields.stateDigest)
    "authorization state seal mismatch"
  state.assertActive now
  let currentVerification ← assertDelegationChainCurrent library chain now
  let authorityDigest ← delegationChainAuthorityDigest library chain
  refuse (authorityDigest ≠ state.fields.delegationChainAuthorityDigest)
    "current delegation chain differs from authorization state"
  match chain.getLast? with
  | none => .error "delegation chain cannot be empty"
  | some leaf => do
    refuse (leaf.subject ≠ state.fields.subject)
      "current delegation subject differs from authorization state"
    state.fields.effectiveConstraints.assertAttenuates leaf.constraints false
    let snapshot : ExecutionAuthorizationSnapshot := {
      stateDigest := state.fields.stateDigest
      intentCommitmentDigest := state.fields.intentCommitmentDigest
      delegationChainAuthorityDigest := authorityDigest
      delegationCurrentVerificationDigest := currentVerification
      effectiveConstraintsDigest := state.fields.effectiveConstraints.digest library
      executionEpoch := now
      snapshotDigest := "" }
    .ok { snapshot with snapshotDigest := snapshot.sealOf library }

/-! ## What a constraint set allows -/

/-- One use of an authority. -/
structure Demand where
  resource : String
  operation : String
  argument : String
  audience : String
  magnitude : Int
  epoch : Int

/-- The demands a constraint set allows. -/
structure Allows (set : ConstraintSet) (demand : Demand) : Prop where
  resource : demand.resource ∈ set.fields.resources
  operation : demand.operation ∈ set.fields.operations
  argument : demand.argument ∈ set.fields.arguments
  audience : demand.audience ∈ set.fields.audience
  magnitude : ∀ bound, set.fields.magnitudeMax = some bound → demand.magnitude ≤ bound
  start : set.fields.validFromEpoch ≤ demand.epoch
  expiry : ∀ expiry, set.fields.expiresBeforeEpoch = some expiry → demand.epoch < expiry

variable {child parent : ConstraintSet}

theorem Allows.of_attenuates {demand : Demand}
    (allows : Allows child demand) (attenuates : Attenuates child parent) :
    Allows parent demand where
  resource := attenuates.resources allows.resource
  operation := attenuates.operations allows.operation
  argument := attenuates.arguments allows.argument
  audience := attenuates.audience allows.audience
  magnitude limit stated := by
    obtain ⟨bound, bounded, within⟩ := attenuates.magnitude limit stated
    exact le_trans (allows.magnitude bound bounded) within
  start := le_trans attenuates.start allows.start
  expiry limit stated := by
    obtain ⟨bound, bounded, within⟩ := attenuates.expiry limit stated
    exact lt_of_lt_of_le (allows.expiry bound bounded) within

/-! ## Accepted chains -/

/-- A link that is valid now. -/
structure DelegationLink.LiveAt (link : DelegationLink) (now : Int) : Prop where
  checked : link.checkedEpoch = now
  signed : link.signatureValid = true
  standing : link.revocationStatus = .valid
  started : link.constraints.fields.validFromEpoch ≤ now
  unexpired : ∀ expiry, link.constraints.fields.expiresBeforeEpoch = some expiry → now < expiry

/-- A link under its parent: it names the parent and its digest, it was issued by the parent's
subject, and it uses up some of the parent's depth. -/
structure DelegationLink.Under (library : Library) (parent link : DelegationLink) : Prop where
  named : link.parentDelegationId = some parent.delegationId
  committed : link.parentCommitment = some (parent.authorityDigest library)
  issued : link.issuer = parent.subject
  attenuates : Attenuates link.constraints parent.constraints
  hop : link.constraints.fields.delegationDepth < parent.constraints.fields.delegationDepth

/-- A chain of valid links, each under the one before it, from a root that names no parent. -/
structure NarrowingChain (library : Library) (root : DelegationLink) (rest : List DelegationLink)
    (now : Int) : Prop where
  rooted : root.parentDelegationId = none ∧ root.parentCommitment = none
  live : ∀ link ∈ root :: rest, link.LiveAt now
  linked : (root :: rest).IsChain (DelegationLink.Under library)

variable {epoch : Int} {u : Unit}

theorem ConstraintSet.assertLive_eq_ok {set : ConstraintSet}
    (passed : set.assertLive epoch = .ok u) :
    set.fields.validFromEpoch ≤ epoch ∧
      ∀ expiry, set.fields.expiresBeforeEpoch = some expiry → epoch < expiry := by
  unfold ConstraintSet.assertLive at passed
  obtain ⟨now, clock, checks⟩ := bind_eq_ok passed
  obtain ⟨rfl, -⟩ := epochOf_eq_ok clock
  obtain ⟨_, started, unexpired⟩ := bind_eq_ok checks
  refine ⟨not_lt.mp (refuse_eq_ok started), fun expiry stated => ?_⟩
  rw [stated] at unexpired
  exact not_le.mp (refuse_eq_ok unexpired)

theorem DelegationLink.assertCurrent_eq_ok {link : DelegationLink}
    (passed : link.assertCurrent epoch = .ok u) : link.LiveAt epoch := by
  simp only [DelegationLink.assertCurrent, bind_epochOf_iff, bind_unit_iff, refuse_iff, ne_eq,
    not_not, not_eq_false] at passed
  obtain ⟨-, fresh, signed, standing, checks⟩ := passed
  have live := assertLive_eq_ok checks
  exact {
    checked := fresh
    signed := signed
    standing := standing
    started := live.1
    unexpired := live.2 }

/-- A hop leaves less depth than it found. -/
theorem ConstraintSet.hop_of_ok (passed : child.assertAttenuates parent true = .ok u) :
    child.fields.delegationDepth < parent.fields.delegationDepth := by
  simp only [ConstraintSet.assertAttenuates, bind_unit_iff, refuse_iff, if_true] at passed
  obtain ⟨-, -, -, -, -, -, -, -, -, -, consumed⟩ := passed
  exact not_le.mp consumed

variable {library : Library}

theorem DelegationLink.assertChild_eq_ok {now : Int} {parent link : DelegationLink}
    (passed : DelegationLink.assertChild library now parent link = .ok u) :
    link.LiveAt now ∧ DelegationLink.Under library parent link := by
  simp only [DelegationLink.assertChild, bind_unit_iff, refuse_iff, ne_eq, not_not] at passed
  obtain ⟨current, -, named, committed, issued, attenuates⟩ := passed
  refine ⟨DelegationLink.assertCurrent_eq_ok current, ?_⟩
  exact {
    named := named
    committed := committed
    issued := issued
    attenuates := attenuates_of_ok attenuates
    hop := ConstraintSet.hop_of_ok attenuates }

/-- The loop over the children accepts links that are valid, each under the one before it. -/
theorem DelegationLink.assertChildren_eq_ok {now : Int}
    {rest : List DelegationLink} {parent : DelegationLink}
    (passed : DelegationLink.assertChildren library now parent rest = .ok u) :
    (∀ link ∈ rest, link.LiveAt now) ∧ (parent :: rest).IsChain (DelegationLink.Under library) := by
  induction rest generalizing parent with
  | nil => exact ⟨forall_mem_nil _, .singleton _⟩
  | cons link rest ih =>
    unfold DelegationLink.assertChildren at passed
    obtain ⟨_, first, passed⟩ := bind_eq_ok passed
    obtain ⟨live, under⟩ := DelegationLink.assertChild_eq_ok first
    obtain ⟨alive, linked⟩ := ih passed
    exact ⟨forall_mem_cons.mpr ⟨live, alive⟩, .cons_cons under linked⟩

variable {chain : List DelegationLink}

theorem narrowingChain_of_ok {verified : String}
    (passed : assertDelegationChainCurrent library chain epoch = .ok verified) :
    ∃ root rest, chain = root :: rest ∧ NarrowingChain library root rest epoch := by
  unfold assertDelegationChainCurrent at passed
  obtain ⟨now, clock, checks⟩ := bind_eq_ok passed
  obtain ⟨rfl, -⟩ := epochOf_eq_ok clock
  cases chain with
  | nil => cases checks
  | cons root rest =>
    obtain ⟨_, current, checks⟩ := bind_eq_ok checks
    obtain ⟨_, rooted, checks⟩ := bind_eq_ok checks
    obtain ⟨_, children, -⟩ := bind_eq_ok checks
    obtain ⟨alive, linked⟩ := DelegationLink.assertChildren_eq_ok children
    have noParent := not_or.mp (refuse_eq_ok rooted)
    exact ⟨root, rest, rfl, {
      rooted := ⟨not_not.mp noParent.1, not_not.mp noParent.2⟩
      live := forall_mem_cons.mpr ⟨DelegationLink.assertCurrent_eq_ok current, alive⟩
      linked := linked }⟩

namespace NarrowingChain

variable {library : Library} {root : DelegationLink} {rest : List DelegationLink} {now : Int}

theorem attenuates (chain : NarrowingChain library root rest now) :
    (root :: rest).Pairwise fun earlier later =>
      Attenuates later.constraints earlier.constraints := by
  have order : IsTrans DelegationLink fun earlier later =>
      Attenuates later.constraints earlier.constraints := ⟨fun _ _ _ first second => second.trans first⟩
  exact (chain.linked.imp fun _ _ under => under.attenuates).pairwise

/-- Each hop uses up depth, and no depth is negative. -/
theorem length_le (chain : NarrowingChain library root rest now) :
    ((root :: rest).length : Int) ≤ root.constraints.fields.delegationDepth + 1 := by
  have hops := chain.linked.imp fun _ _ under => under.hop
  clear chain
  induction rest generalizing root with
  | nil =>
    have depth := root.constraints.canonical.depth
    simp only [length_singleton]
    omega
  | cons link rest ih =>
    obtain ⟨hop, hops⟩ := List.isChain_cons_cons.mp hops
    have shorter := ih hops
    simp only [length_cons] at shorter ⊢
    omega

theorem getLast_attenuates (chain : NarrowingChain library root rest now) {leaf : DelegationLink}
    (last : (root :: rest).getLast? = some leaf) :
    Attenuates leaf.constraints root.constraints := by
  have member : leaf ∈ root :: rest := List.mem_of_getLast? last
  rcases mem_cons.mp member with rfl | member
  · exact .refl _
  · exact (pairwise_cons.mp chain.attenuates).1 leaf member

end NarrowingChain

/-! ## What a snapshot allows -/

/-- A snapshot is taken under a narrowing chain whose last link the effective constraints
attenuate. -/
theorem snapshot_cases {state : AuthorizationState library}
    {snapshot : ExecutionAuthorizationSnapshot}
    (taken : authorizationSnapshotForExecution library state chain epoch = .ok snapshot) :
    snapshot.effectiveConstraintsDigest = state.fields.effectiveConstraints.digest library ∧
      ∃ root rest, chain = root :: rest ∧ NarrowingChain library root rest epoch ∧
        Attenuates state.fields.effectiveConstraints root.constraints := by
  unfold authorizationSnapshotForExecution at taken
  obtain ⟨now, clock, checks⟩ := bind_eq_ok taken
  obtain ⟨rfl, -⟩ := epochOf_eq_ok clock
  obtain ⟨_, -, checks⟩ := bind_eq_ok checks
  obtain ⟨_, -, checks⟩ := bind_eq_ok checks
  obtain ⟨verified, current, checks⟩ := bind_eq_ok checks
  obtain ⟨authority, -, checks⟩ := bind_eq_ok checks
  obtain ⟨_, -, checks⟩ := bind_eq_ok checks
  obtain ⟨root, rest, rfl, narrowing⟩ := narrowingChain_of_ok current
  cases last : (root :: rest).getLast? with
  | none =>
    rw [last] at checks
    cases checks
  | some leaf =>
    rw [last] at checks
    obtain ⟨_, -, checks⟩ := bind_eq_ok checks
    obtain ⟨_, attenuates, checks⟩ := bind_eq_ok checks
    cases checks
    exact ⟨rfl, root, rest, rfl, narrowing,
      (attenuates_of_ok attenuates).trans (narrowing.getLast_attenuates last)⟩

/-- Delegation only narrows: attenuation is an order on constraint sets, accepted chains narrow
along it from link to link, and so does every snapshot taken under one. -/
theorem delegation_narrows : (∀ set : ConstraintSet, set.assertAttenuates set false = .ok ()) ∧
    (∀ first second third : ConstraintSet, first.assertAttenuates second false = .ok () →
      second.assertAttenuates third false = .ok () → first.assertAttenuates third false = .ok ()) ∧
    (∀ first second : ConstraintSet, first.assertAttenuates second false = .ok () →
      second.assertAttenuates first false = .ok () → first = second) ∧
    (∀ (library : Library) (chain : List DelegationLink) (epoch : Int) (verified : String),
      assertDelegationChainCurrent library chain epoch = .ok verified →
        ∃ root rest, chain = root :: rest ∧ chain.Pairwise (fun earlier later =>
            later.constraints.assertAttenuates earlier.constraints false = .ok ()) ∧
          (∀ link ∈ chain, link.LiveAt epoch) ∧
          (chain.length : Int) ≤ root.constraints.fields.delegationDepth + 1 ∧
          chain.IsChain (fun parent link => link.issuer = parent.subject)) ∧
    (∀ (library : Library) (state : AuthorizationState library) (chain : List DelegationLink)
      (epoch : Int) (snapshot : ExecutionAuthorizationSnapshot),
      authorizationSnapshotForExecution library state chain epoch = .ok snapshot →
        snapshot.effectiveConstraintsDigest = state.fields.effectiveConstraints.digest library ∧
          ∃ root rest, chain = root :: rest ∧
            ∀ demand, Allows state.fields.effectiveConstraints demand →
              Allows root.constraints demand) := by
  refine ⟨fun set => ?_, fun first second third inner outer => ?_,
    fun first second there back => ?_, fun library chain epoch verified accepted => ?_,
    fun library state chain epoch snapshot taken => ?_⟩
  · exact assertAttenuates_iff.mpr (.refl set)
  · exact assertAttenuates_iff.mpr
      ((assertAttenuates_iff.mp inner).trans (assertAttenuates_iff.mp outer))
  · exact (assertAttenuates_iff.mp there).antisymm (assertAttenuates_iff.mp back)
  · obtain ⟨root, rest, rfl, narrowing⟩ := narrowingChain_of_ok accepted
    exact ⟨root, rest, rfl, narrowing.attenuates.imp fun attenuates =>
      assertAttenuates_iff.mpr attenuates, narrowing.live, narrowing.length_le,
      narrowing.linked.imp fun _ _ under => under.issued⟩
  · obtain ⟨digest, root, rest, rfl, -, attenuates⟩ := snapshot_cases taken
    exact ⟨digest, root, rest, rfl, fun demand allows => allows.of_attenuates attenuates⟩

/-! ## A recorded chain -/

/-- What the owner delegates with the right to delegate it once more. -/
def delegable : ConstraintSet where
  fields := { readWrite.fields with redelegation := true }
  canonical := have names := readWrite.canonical
    ⟨names.resources, names.operations, names.arguments, names.audience, names.magnitude,
      names.start, names.live, names.depth⟩

/-- The operations the agent delegates on. -/
def readOnly : ConstraintSet where
  fields := { readWrite.fields with operations := ["read"], delegationDepth := 0 }
  canonical := have names := readWrite.canonical
    ⟨names.resources, ⟨cons_ne_nil _ _, pairwise_singleton _ _, nodup_singleton _⟩,
      names.arguments, names.audience, names.magnitude, names.start, names.live, le_refl 0⟩

def delegableLink : DelegationLink :=
  ⟨"d0", none, "owner", "agent", delegable, none, 1, true, .valid, 1⟩

def readerLink : DelegationLink :=
  ⟨"d1", some "d0", "agent", "reader", readOnly, some (delegableLink.authorityDigest recordedLibrary),
    1, true, .valid, 1⟩

theorem delegation_narrows_recorded :
    assertDelegationChainCurrent recordedLibrary [delegableLink, readerLink] 1 =
        .ok (recordedHash "koschei.delegation-chain-current/v1" .null) ∧
      readOnly.assertAttenuates delegable false = .ok () ∧
      (authorizationSnapshotForExecution recordedLibrary issuedState [ownerLink] 1).isOk = true ∧
      ∀ demand, Allows issuedState.fields.effectiveConstraints demand →
        Allows ownerLink.constraints demand := by
  have accepted : assertDelegationChainCurrent recordedLibrary [delegableLink, readerLink] 1 =
      .ok (recordedHash "koschei.delegation-chain-current/v1" .null) := rfl
  have taken : (authorizationSnapshotForExecution recordedLibrary issuedState [ownerLink] 1).isOk =
      true := rfl
  refine ⟨accepted, ?_, taken, ?_⟩
  · obtain ⟨root, rest, same, narrows, -⟩ := delegation_narrows.2.2.2.1 _ _ _ _ accepted
    exact (pairwise_cons.mp narrows).1 readerLink (mem_singleton_self _)
  · cases result : authorizationSnapshotForExecution recordedLibrary issuedState [ownerLink] 1 with
    | error message =>
      rw [result] at taken
      cases taken
    | ok snapshot =>
      obtain ⟨-, root, rest, same, allowed⟩ := delegation_narrows.2.2.2.2 _ _ _ _ _ result
      cases same
      exact allowed

end Koschei.Authorization
