import Koschei.Authorization.Transition
import Koschei.Lib.Lineage
import Koschei.Lib.Runs

/-!
# Current heads

A ledger keeps, for each subject, the digest of the state that is current. It
registers a first state and moves the head of a subject from a state to one that
names it as its predecessor. This module has what follows from that alone, for
any machine that keeps heads so.

The seals are digests without a key: anyone can seal a state. What a head stands
for is a state presented to the ledger whose seal is the head. When no two
presented states with one seal say different things, a head that was left is
never current again, and the heads follow each other like the states of a
history exactly when every move does.
-/

namespace Koschei.Authorization

open Lib

/-! ## Seals -/

/-- What the seal of a state is the digest of. -/
def statePayload (library : Library) (fields : StateFields) : Payload := .object [
    ("subject", .str fields.subject),
    ("intent_commitment_digest", .str fields.intentCommitmentDigest),
    ("delegation_chain_authority_digest", .str fields.delegationChainAuthorityDigest),
    ("authority_ceiling_digest", .str (fields.authorityCeiling.digest library)),
    ("effective_constraints_digest", .str (fields.effectiveConstraints.digest library)),
    ("status", .str fields.status.text),
    ("epoch", .int fields.epoch),
    ("previous_state_digest", .optionalText fields.previousStateDigest),
    ("authority", .bool false),
    ("version", .int fields.version)]

theorem Status.text_injective {a b : Status} (same : a.text = b.text) : a = b := by
  cases a <;> cases b <;> first | rfl | exact absurd same (by decide)

theorem Payload.optionalText_injective {a b : Option String}
    (same : Payload.optionalText a = Payload.optionalText b) : a = b := by
  cases a <;> cases b <;> cases same <;> rfl

section Heads

variable {library : Library}

namespace AuthorizationState

/-- `AuthorizationStateLedgerV1._assert_sealed`. -/
def assertSealed (state : AuthorizationState library) : Checked Unit :=
  refuse (sealOf library { state.fields with stateDigest := "" } ≠ state.fields.stateDigest)
    "authorization state seal mismatch"

/-- The seal of a state is the digest of its contents. -/
def Sealed (state : AuthorizationState library) : Prop :=
  sealOf library state.fields = state.fields.stateDigest

variable {state : AuthorizationState library}

theorem sealed_of_assertSealed {u : Unit} (passed : state.assertSealed = .ok u) : state.Sealed := by
  unfold assertSealed at passed
  have sealing := refuse_eq_ok passed
  rw [not_not] at sealing
  exact sealing

theorem assertSealed_of_sealed (sealing : state.Sealed) : state.assertSealed = .ok () := by
  unfold assertSealed
  exact refuse_of_not fun differs => differs sealing

theorem assertSealed_iff : state.assertSealed = .ok () ↔ state.Sealed :=
  ⟨sealed_of_assertSealed, assertSealed_of_sealed⟩

/-- Two states that say the same to their seals. -/
structure SameContents (a b : AuthorizationState library) : Prop where
  subject : a.fields.subject = b.fields.subject
  intent : a.fields.intentCommitmentDigest = b.fields.intentCommitmentDigest
  chain : a.fields.delegationChainAuthorityDigest = b.fields.delegationChainAuthorityDigest
  ceiling : a.fields.authorityCeiling.digest library = b.fields.authorityCeiling.digest library
  status : a.fields.status = b.fields.status
  epoch : a.fields.epoch = b.fields.epoch
  previous : a.fields.previousStateDigest = b.fields.previousStateDigest

theorem sameContents_of_payload {a b : AuthorizationState library}
    (same : statePayload library a.fields = statePayload library b.fields) : SameContents a b := by
  simp only [statePayload, Payload.object.injEq, cons.injEq, Prod.mk.injEq, Payload.str.injEq,
    Payload.int.injEq, true_and, and_true] at same
  obtain ⟨subject, intent, chain, ceiling, -, status, epoch, previous, -⟩ := same
  exact ⟨subject, intent, chain, ceiling, Status.text_injective status, epoch,
    Payload.optionalText_injective previous⟩

end AuthorizationState

open AuthorizationState

/-- The digest has no collisions between the contents of the presented states. -/
def SealsApart (presented : AuthorizationState library → Prop) : Prop :=
  ∀ a b, presented a → presented b → sealOf library a.fields = sealOf library b.fields →
    statePayload library a.fields = statePayload library b.fields

variable {presented : AuthorizationState library → Prop} {a b : AuthorizationState library}

theorem SealsApart.contents (apart : SealsApart presented)
    (first : presented a) (second : presented b) (sealing : a.Sealed) (sealing' : b.Sealed)
    (same : a.fields.stateDigest = b.fields.stateDigest) : SameContents a b := by
  apply sameContents_of_payload
  apply apart a b first second
  rw [sealing, sealing', same]

variable (presented)

/-- A digest names its predecessor: the state it seals does. -/
def Names (digest : String) (previous : Option String) : Prop :=
  ∃ state, presented state ∧ state.Sealed ∧ state.fields.stateDigest = digest ∧
    state.fields.previousStateDigest = previous

variable {presented}

theorem SealsApart.names_functional (apart : SealsApart presented) (digest : String)
    (a b : Option String) (first : Names presented digest a) (second : Names presented digest b) :
    a = b := by
  obtain ⟨state, shown, sealing, same, rfl⟩ := first
  obtain ⟨state', shown', sealing', same', rfl⟩ := second
  exact (apart.contents shown shown' sealing sealing' (same.trans same'.symm)).previous

/-! ## Moves of the heads -/

/-- The current digest of each subject. -/
abbrev Heads : Type := String → Option String

variable (presented)

/-- The heads take a first state. -/
structure Registers (before after : Heads) (state : AuthorizationState library) : Prop where
  shown : presented state
  sealing : state.Sealed
  first : state.fields.previousStateDigest = none
  active : state.fields.status = .active
  absent : before state.fields.subject = none
  head : after = Function.update before state.fields.subject (some state.fields.stateDigest)

/-- The heads move from one state to the next. -/
structure Moves (before after : Heads) (previous next : AuthorizationState library) : Prop where
  shown : presented previous
  shown' : presented next
  sealing : previous.Sealed
  sealing' : next.Sealed
  subject : previous.fields.subject = next.fields.subject
  named : next.fields.previousStateDigest = some previous.fields.stateDigest
  current : before previous.fields.subject = some previous.fields.stateDigest
  head : after = Function.update before previous.fields.subject (some next.fields.stateDigest)

/-- The state is the head of its subject. -/
structure HeadIs (heads : Heads) (state : AuthorizationState library) : Prop where
  shown : presented state
  sealing : state.Sealed
  current : heads state.fields.subject = some state.fields.stateDigest

variable {presented}

/-- A state that may come after another in a history. -/
structure Succeeds (previous next : AuthorizationState library) : Prop where
  live : ¬ previous.fields.status.Terminal
  suspended : previous.fields.status = .suspended → next.fields.status ≠ .active
  epoch : previous.fields.epoch < next.fields.epoch
  intent : next.fields.intentCommitmentDigest = previous.fields.intentCommitmentDigest
  chain : next.fields.delegationChainAuthorityDigest = previous.fields.delegationChainAuthorityDigest
  ceiling : next.fields.authorityCeiling.digest library =
    previous.fields.authorityCeiling.digest library

/-- What an earlier head and a later one of one subject have to do with each other: a terminal head
never changes, a suspended one never becomes active, epochs increase with every change, and the
ceiling, the intent and the chain are kept. -/
structure Follows (earlier later : AuthorizationState library) : Prop where
  terminal : earlier.fields.status.Terminal → later.fields.stateDigest = earlier.fields.stateDigest
  suspended : earlier.fields.status = .suspended → later.fields.status ≠ .active
  epoch : later.fields.stateDigest ≠ earlier.fields.stateDigest →
    earlier.fields.epoch < later.fields.epoch
  intent : later.fields.intentCommitmentDigest = earlier.fields.intentCommitmentDigest
  chain : later.fields.delegationChainAuthorityDigest =
    earlier.fields.delegationChainAuthorityDigest
  ceiling : later.fields.authorityCeiling.digest library =
    earlier.fields.authorityCeiling.digest library

namespace Succeeds

variable {a b c a' b' : AuthorizationState library}

theorem of_contents (succeeds : Succeeds a b) (first : SameContents a a')
    (second : SameContents b b') : Succeeds a' b' where
  live := first.status ▸ succeeds.live
  suspended := by
    rw [← first.status, ← second.status]
    exact succeeds.suspended
  epoch := by
    rw [← first.epoch, ← second.epoch]
    exact succeeds.epoch
  intent := second.intent.symm.trans (succeeds.intent.trans first.intent)
  chain := second.chain.symm.trans (succeeds.chain.trans first.chain)
  ceiling := second.ceiling.symm.trans (succeeds.ceiling.trans first.ceiling)

theorem trans (first : Succeeds a b) (second : Succeeds b c) : Succeeds a c where
  live := first.live
  suspended suspended := by
    -- Between the two the state is still suspended, since a terminal one has no successor.
    have inactive := first.suspended suspended
    have live := second.live
    have still : b.fields.status = .suspended := by
      cases status : b.fields.status with
      | active => exact absurd status inactive
      | suspended => rfl
      | revoked => exact absurd (.inl status) live
      | expired => exact absurd (.inr status) live
    exact second.suspended still
  epoch := first.epoch.trans second.epoch
  intent := second.intent.trans first.intent
  chain := second.chain.trans first.chain
  ceiling := second.ceiling.trans first.ceiling

theorem follows (succeeds : Succeeds a b) : Follows a b where
  terminal terminal := absurd terminal succeeds.live
  suspended := succeeds.suspended
  epoch _ := succeeds.epoch
  intent := succeeds.intent
  chain := succeeds.chain
  ceiling := succeeds.ceiling

end Succeeds

theorem Follows.of_contents (same : SameContents a b)
    (digests : a.fields.stateDigest = b.fields.stateDigest) : Follows a b where
  terminal _ := digests.symm
  suspended suspended active := by
    rw [← same.status, suspended] at active
    cases active
  epoch differs := absurd digests.symm differs
  intent := same.intent.symm
  chain := same.chain.symm
  ceiling := same.ceiling.symm

theorem Follows.succeeds (follows : Follows a b)
    (differs : b.fields.stateDigest ≠ a.fields.stateDigest) : Succeeds a b where
  live terminal := differs (follows.terminal terminal)
  suspended := follows.suspended
  epoch := follows.epoch differs
  intent := follows.intent
  chain := follows.chain
  ceiling := follows.ceiling

/-! ## Machines that keep heads -/

section Machines

variable {State Call Answer : Type} {step : State → Call → Answer × State}

/-- A machine whose calls leave the heads, register a first state, or commit a move. -/
structure KeepsHeads (presented : AuthorizationState library → Prop) (view : State → Heads)
    (step : State → Call → Answer × State) (start : State) (calls : List Call)
    (commits : Moment State Call Answer → AuthorizationState library →
      AuthorizationState library → Prop) : Prop where
  empty : view start = fun _ => none
  outcome : ∀ moment ∈ trace step start calls, view moment.after = view moment.before ∨
    (∃ state, Registers presented (view moment.before) (view moment.after) state) ∨
    ∃ previous next, commits moment previous next
  moves : ∀ moment ∈ trace step start calls, ∀ previous next, commits moment previous next →
    Moves presented (view moment.before) (view moment.after) previous next

namespace KeepsHeads

variable {view : State → Heads} {start : State} {calls : List Call}
  {commits : Moment State Call Answer → AuthorizationState library →
    AuthorizationState library → Prop}

/-- The heads of visited states follow each other. -/
def HeadsFollow (presented : AuthorizationState library → Prop) (view : State → Heads)
    (states : List State) : Prop :=
  states.Pairwise fun earlier later => ∀ a b,
    HeadIs presented (view earlier) a → HeadIs presented (view later) b →
      a.fields.subject = b.fields.subject → Follows a b

def Continues (link : String → String → Prop) (earlier later : Heads) : Prop :=
  ∀ subject digest, earlier subject = some digest →
    ∃ digest', later subject = some digest' ∧ Relation.ReflTransGen link digest digest'

theorem continues_refl (link : String → String → Prop) (heads : Heads) :
    Continues link heads heads := fun _ digest current => ⟨digest, current, .refl⟩

variable {link : String → String → Prop}

theorem continues_trans (a b c : Heads)
    (first : Continues link a b) (second : Continues link b c) : Continues link a c := by
  intro subject digest current
  obtain ⟨digest', current', path⟩ := first subject digest current
  obtain ⟨digest'', current'', path'⟩ := second subject digest' current'
  exact ⟨digest'', current'', path.trans path'⟩

variable {before after : Heads}

theorem continues_of_registers
    {state : AuthorizationState library} (registers : Registers presented before after state) :
    Continues link before after := by
  intro subject digest current
  refine ⟨digest, ?_, .refl⟩
  rw [registers.head, update_of_ne, current]
  rintro rfl
  rw [registers.absent] at current
  cases current

variable {previous next : AuthorizationState library}

theorem continues_of_moves (moves : Moves presented before after previous next)
    (linked : link previous.fields.stateDigest next.fields.stateDigest) :
    Continues link before after := by
  intro subject digest current
  rw [moves.head]
  by_cases same : subject = previous.fields.subject
  · subst same
    rw [moves.current] at current
    cases current
    exact ⟨next.fields.stateDigest, update_self _ _ _, .single linked⟩
  · rw [update_of_ne same]
    exact ⟨digest, current, .refl⟩

section

variable (machine : KeepsHeads presented view step start calls commits)

include machine

theorem continues
    (linked : ∀ moment ∈ trace step start calls, ∀ previous next, commits moment previous next →
      link previous.fields.stateDigest next.fields.stateDigest) :
    ∀ moment ∈ trace step start calls, Continues link (view moment.before) (view moment.after) := by
  intro moment member
  rcases machine.outcome moment member with same | ⟨state, registers⟩ | ⟨previous, next, commit⟩
  · rw [same]
    exact continues_refl link _
  · exact continues_of_registers registers
  · exact continues_of_moves (machine.moves moment member previous next commit)
      (linked moment member previous next commit)

theorem named : ∀ moment ∈ trace step start calls, ∀ previous next, commits moment previous next →
      NamedBy (Names presented) previous.fields.stateDigest next.fields.stateDigest := by
  intro moment member previous next commit
  have moves := machine.moves moment member previous next commit
  exact ⟨next, moves.shown', moves.sealing', rfl, moves.named⟩

theorem grounded :
    ∀ state ∈ visited step start calls, ∀ subject digest, view state subject = some digest →
      Grounded (Names presented) digest := by
  refine visited_invariant (I := fun state => ∀ subject digest, view state subject = some digest →
    Grounded (Names presented) digest) ?_ ?_
  · intro subject digest current
    rw [machine.empty] at current
    cases current
  · intro moment member earlier subject digest current
    rcases machine.outcome moment member with same | ⟨state, registers⟩ | ⟨previous, next, commit⟩
    · rw [same] at current
      exact earlier subject digest current
    · rw [registers.head] at current
      by_cases here : subject = state.fields.subject
      · subst here
        rw [update_self] at current
        cases current
        exact .first ⟨state, registers.shown, registers.sealing, rfl, registers.first⟩
      · rw [update_of_ne here] at current
        exact earlier subject digest current
    · have moves := machine.moves moment member previous next commit
      rw [moves.head] at current
      by_cases here : subject = previous.fields.subject
      · subst here
        rw [update_self] at current
        cases current
        exact .next (machine.named moment member previous next commit) (earlier _ _ moves.current)
      · rw [update_of_ne here] at current
        exact earlier subject digest current

/-- A move leaves the state it moves from. -/
theorem differs (apart : SealsApart presented)
    {moment : Moment State Call Answer} (member : moment ∈ trace step start calls)
    (commit : commits moment previous next) :
    next.fields.stateDigest ≠ previous.fields.stateDigest := by
  intro same
  have moves := machine.moves moment member previous next commit
  have grounds := machine.grounded moment.before (before_mem_visited member) _ _ moves.current
  have link := machine.named moment member previous next commit
  rw [same] at link
  exact grounds.not_again apart.names_functional (.single link)

theorem never_again (apart : SealsApart presented) :
    (trace step start calls).Pairwise fun earlier later => ∀ previous next,
      commits earlier previous next →
        view later.before previous.fields.subject ≠ some previous.fields.stateDigest := by
  have paths := trace_pairwise (R := fun a b => Continues (NamedBy (Names presented)) (view a)
    (view b)) (fun _ => continues_refl _ _) (fun _ _ _ => continues_trans _ _ _)
    (machine.continues machine.named)
  refine paths.imp_of_mem ?_
  intro earlier later member _ onward previous next commit current
  have moves := machine.moves earlier member previous next commit
  have moved : view earlier.after previous.fields.subject = some next.fields.stateDigest := by
    rw [moves.head, update_self]
  obtain ⟨digest, now, path⟩ := onward _ _ moved
  rw [current] at now
  cases now
  have grounds := machine.grounded earlier.before (before_mem_visited member) _ _ moves.current
  exact grounds.not_again apart.names_functional
    (.head' (machine.named earlier member previous next commit) path)

end

/-- Two digests of states of which the second succeeds the first. -/
def Succession (presented : AuthorizationState library → Prop) (digest digest' : String) : Prop :=
  ∃ previous next, presented previous ∧ presented next ∧ previous.Sealed ∧ next.Sealed ∧
    previous.fields.stateDigest = digest ∧ next.fields.stateDigest = digest' ∧
    Succeeds previous next

theorem follows_of_path (apart : SealsApart presented)
    (shown : presented a) (sealing : a.Sealed) (shown' : presented b) (sealing' : b.Sealed)
    (path : Relation.ReflTransGen (Succession presented) a.fields.stateDigest
      b.fields.stateDigest) :
    a.fields.stateDigest = b.fields.stateDigest ∨ Succeeds a b := by
  generalize final : b.fields.stateDigest = digest at path
  induction path generalizing b with
  | refl => exact .inl rfl
  | tail _ link ih =>
    obtain ⟨previous, next, shownP, shownN, sealingP, sealingN, first, second, succeeds⟩ := link
    have same := apart.contents shownN shown' sealingN sealing' (second.trans final.symm)
    rcases ih shownP sealingP first with equal | earlier
    · have start := apart.contents shownP shown sealingP sealing (first.trans equal.symm)
      exact .inr (succeeds.of_contents start same)
    · have onward : Succeeds previous b := succeeds.of_contents ⟨rfl, rfl, rfl, rfl, rfl, rfl, rfl⟩
        same
      exact .inr (earlier.trans onward)

/-- The heads of a run follow each other exactly when every move goes to a state that succeeds the
one it leaves. -/
theorem follows_iff (machine : KeepsHeads presented view step start calls commits)
    (apart : SealsApart presented) :
    HeadsFollow presented view (visited step start calls) ↔
      ∀ moment ∈ trace step start calls, ∀ previous next, commits moment previous next →
        Succeeds previous next := by
  constructor
  · intro follow moment member previous next commit
    have moves := machine.moves moment member previous next commit
    have head : HeadIs presented (view moment.after) next := by
      refine ⟨moves.shown', moves.sealing', ?_⟩
      rw [moves.head, moves.subject, update_self]
    have follows := related_of_pairwise follow moment member previous next
      ⟨moves.shown, moves.sealing, moves.current⟩ head moves.subject
    exact follows.succeeds (machine.differs apart member commit)
  · intro lawful
    have paths := visited_pairwise (R := fun a b => Continues (Succession presented) (view a)
      (view b)) (fun _ => continues_refl _ _) (fun _ _ _ => continues_trans _ _ _)
      (machine.continues fun moment member previous next commit =>
        have moves := machine.moves moment member previous next commit
        ⟨previous, next, moves.shown, moves.shown', moves.sealing, moves.sealing', rfl, rfl,
          lawful moment member previous next commit⟩)
    refine paths.imp ?_
    intro earlier later onward a b first second subject
    obtain ⟨digest, now, path⟩ := onward _ _ first.current
    rw [subject, second.current] at now
    cases now
    rcases follows_of_path apart first.shown first.sealing second.shown second.sealing path with
      same | succeeds
    · exact .of_contents (apart.contents first.shown second.shown first.sealing second.sealing same)
        same
    · exact succeeds.follows

end KeepsHeads

end Machines

end Heads

end Koschei.Authorization
