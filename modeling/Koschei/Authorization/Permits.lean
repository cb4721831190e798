import Koschei.Authorization.Adapters
import Koschei.Authorization.Requests

/-!
# Authorization decisions and execution permits

`authorization_decision_v1.py` and `execution_permit_v1.py`. A decision is
authenticated for one evidence under one grant, a permit for one decision that
allows. Both are sealed with an HMAC over their fields, one to a line.

The grant and the evidence are sealed with digests that the decision names, so
the text of a decision can be read in one way only: what follows the provider
and the subject in it differs from what follows them in the texts of the
evidence and of the grant. Decisions and permits of one digest therefore have
the same fields, up to the white space around texts and the capitals of digests.
-/

namespace Koschei.Authorization

open Lib

/-- `_key`. -/
def keyOf (value : List UInt8) (label : String) : Checked (List UInt8) := do
  refuse (value.length < 32) (label ++ " must contain at least 32 bytes")
  .ok value

/-- `hmac.compare_digest` of two texts, the second of them a hexadecimal digest. -/
def compareDigest (value expected mismatch : String) : Checked Unit := do
  refuse (value.toList.any fun c => 128 ≤ c.toNat)
    "comparing strings with non-ASCII characters is not supported"
  refuse (value ≠ expected) mismatch

/-! ## Decisions -/

/-- `AuthorizationDecisionV1`. -/
structure AuthorizationDecision where
  evidenceDigest : String
  providerId : String
  consumerId : String
  subjectScopeDigest : String
  operation : String
  requestDigest : String
  decisionEpoch : Int
  authorityBasisDigest : String
  policyDigest : String
  outcome : String
  decisionDigest : String
  deriving DecidableEq

namespace AuthorizationDecision

/-- The rows of `_payload`. -/
def rowsOf (evidence provider consumer subject operation request : String) (epoch : Int)
    (basis policy outcome : String) : List String :=
  ["evidence=" ++ evidence, "provider=" ++ provider, "consumer=" ++ consumer,
    "subject=" ++ subject, "operation=" ++ operation, "request=" ++ request,
    "epoch=" ++ toString epoch, "authority_basis=" ++ basis, "policy=" ++ policy,
    "outcome=" ++ outcome]

/-- `_payload`. -/
def payload (rows : List String) : String := "koschei.authorization-decision/v1\x00" ++ lines rows

/-- `AuthorizationDecisionV1.assert_authenticated`. -/
def assertAuthenticated (primitives : Primitives) (decisionKey : List UInt8)
    (grant : ExternalAdapterGrant) (evidence : ExternalAdapterEvidence)
    (decision : AuthorizationDecision) : Checked Unit := do
  let key ← keyOf decisionKey "decision_key"
  grant.assertSealed primitives
  evidence.assertSealed primitives grant
  let evidenceDigest ← hexDigest decision.evidenceDigest "evidence_digest"
  refuse (evidenceDigest ≠ evidence.evidenceDigest)
    "authorization decision belongs to different evidence"
  let provider ← text decision.providerId "provider_id"
  let consumer ← text decision.consumerId "consumer_id"
  refuse (provider ≠ grant.providerId ∨ consumer ≠ grant.consumerId)
    "authorization decision provider/consumer mismatch"
  let subject ← hexDigest decision.subjectScopeDigest "subject_scope_digest"
  refuse (subject ≠ grant.subjectScopeDigest) "authorization decision subject mismatch"
  let operation ← text decision.operation "operation"
  let request ← hexDigest decision.requestDigest "request_digest"
  let epoch ← epochOf decision.decisionEpoch "decision_epoch"
  refuse (epoch ≠ evidence.observedEpoch)
    "authorization decision epoch must equal evidence observation epoch"
  let basis ← hexDigest decision.authorityBasisDigest "authority_basis_digest"
  let policy ← hexDigest decision.policyDigest "policy_digest"
  let outcome ← text decision.outcome "outcome"
  refuse (outcome ∉ ["allow", "deny", "contain"]) "unknown authorization decision outcome"
  compareDigest decision.decisionDigest
    (primitives.hmac key (payload (rowsOf evidenceDigest provider consumer subject operation request
      epoch basis policy outcome)))
    "authorization decision authentication failed"

/-- `AuthorizationDecisionV1.assert_allows`. -/
def assertAllows (decision : AuthorizationDecision) : Checked Unit :=
  refuse (decision.outcome ≠ "allow") "authorization decision does not allow execution"

/-- The rows of a decision, as its checks leave the fields. -/
def rows (decision : AuthorizationDecision) : List String :=
  rowsOf (lowered decision.evidenceDigest) (stripped decision.providerId)
    (stripped decision.consumerId) (lowered decision.subjectScopeDigest)
    (stripped decision.operation) (lowered decision.requestDigest) decision.decisionEpoch
    (lowered decision.authorityBasisDigest) (lowered decision.policyDigest)
    (stripped decision.outcome)

def sealedText (decision : AuthorizationDecision) : String := payload decision.rows

end AuthorizationDecision

/-! ## Permits -/

/-- `ExecutionPermitV1`. -/
structure ExecutionPermit where
  authorizationDecisionDigest : String
  evidenceDigest : String
  providerId : String
  consumerId : String
  subjectScopeDigest : String
  operation : String
  requestDigest : String
  validEpoch : Int
  permitDigest : String
  singleUse : Bool
  deriving DecidableEq

namespace ExecutionPermit

/-- The rows of `_payload`. -/
def rowsOf (decision evidence provider consumer subject operation request : String)
    (epoch : Int) : List String :=
  ["decision=" ++ decision, "evidence=" ++ evidence, "provider=" ++ provider,
    "consumer=" ++ consumer, "subject=" ++ subject, "operation=" ++ operation,
    "request=" ++ request, "epoch=" ++ toString epoch, "single_use=1"]

/-- `_payload`. -/
def payload (rows : List String) : String := "koschei.execution-permit/v1\x00" ++ lines rows

/-- `ExecutionPermitV1.assert_authenticated`. -/
def assertAuthenticated (primitives : Primitives) (runtimeKey decisionKey : List UInt8)
    (grant : ExternalAdapterGrant) (evidence : ExternalAdapterEvidence)
    (decision : AuthorizationDecision) (permit : ExecutionPermit) : Checked Unit := do
  let permitKey ← keyOf runtimeKey "runtime_key"
  grant.assertSealed primitives
  evidence.assertSealed primitives grant
  decision.assertAuthenticated primitives decisionKey grant evidence
  decision.assertAllows
  refuse (permit.singleUse = false) "execution permit must remain single-use"
  let decisionDigest ← hexDigest permit.authorizationDecisionDigest "authorization_decision_digest"
  refuse (decisionDigest ≠ decision.decisionDigest)
    "execution permit belongs to different authorization decision"
  let evidenceDigest ← hexDigest permit.evidenceDigest "evidence_digest"
  refuse (evidenceDigest ≠ evidence.evidenceDigest ∨ evidenceDigest ≠ decision.evidenceDigest)
    "execution permit belongs to different external evidence"
  let provider ← text permit.providerId "provider_id"
  let consumer ← text permit.consumerId "consumer_id"
  let subject ← hexDigest permit.subjectScopeDigest "subject_scope_digest"
  let operation ← text permit.operation "operation"
  let request ← hexDigest permit.requestDigest "request_digest"
  let epoch ← epochOf permit.validEpoch "valid_epoch"
  refuse (provider ≠ grant.providerId ∨ provider ≠ decision.providerId)
    "execution permit provider mismatch"
  refuse (consumer ≠ grant.consumerId ∨ consumer ≠ decision.consumerId)
    "execution permit consumer mismatch"
  refuse (subject ≠ grant.subjectScopeDigest ∨ subject ≠ decision.subjectScopeDigest)
    "execution permit subject mismatch"
  refuse (operation ≠ decision.operation)
    "execution permit operation differs from authorization decision"
  refuse (request ≠ decision.requestDigest)
    "execution permit request differs from authorization decision"
  refuse (epoch ≠ evidence.observedEpoch ∨ epoch ≠ decision.decisionEpoch)
    "execution permit epoch differs from authorization decision/evidence"
  compareDigest permit.permitDigest
    (primitives.hmac permitKey (payload (rowsOf decisionDigest evidenceDigest provider consumer
      subject operation request epoch)))
    "execution permit authentication failed"

/-- `ExecutionPermitV1.is_live_for`. Each comparison is made when those before it hold. -/
def isLiveFor (permit : ExecutionPermit) (currentEpoch : Int) (requestDigest operation : String) :
    Checked Bool := do
  let now ← epochOf currentEpoch "current_epoch"
  if now ≠ permit.validEpoch then .ok false
  else do
    let request ← hexDigest requestDigest "request_digest"
    if request ≠ permit.requestDigest then .ok false
    else do
      let wanted ← text operation "operation"
      .ok (decide (wanted = permit.operation))

/-- The rows of a permit, as its checks leave the fields. -/
def rows (permit : ExecutionPermit) : List String :=
  rowsOf (lowered permit.authorizationDecisionDigest) (lowered permit.evidenceDigest)
    (stripped permit.providerId) (stripped permit.consumerId) (lowered permit.subjectScopeDigest)
    (stripped permit.operation) (lowered permit.requestDigest) permit.validEpoch

def sealedText (permit : ExecutionPermit) : String := payload permit.rows

end ExecutionPermit

/-! ## What passes the checks -/

variable {label value expected mismatch name : String}

theorem keyOf_eq_ok {value passed : List UInt8}
    (accepted : keyOf value label = .ok passed) : passed = value ∧ 32 ≤ value.length := by
  unfold keyOf at accepted
  obtain ⟨_, long, accepted⟩ := bind_eq_ok accepted
  cases accepted
  exact ⟨rfl, not_lt.mp (refuse_eq_ok long)⟩

theorem compareDigest_eq_ok {u : Unit}
    (accepted : compareDigest value expected mismatch = .ok u) : value = expected := by
  unfold compareDigest at accepted
  obtain ⟨_, -, accepted⟩ := bind_eq_ok accepted
  exact not_not.mp (refuse_eq_ok accepted)

theorem keyOf_of_long {value : List UInt8} (long : 32 ≤ value.length) :
    keyOf value label = .ok value := by
  unfold keyOf
  rw [bind_of_ok (refuse_of_not (not_lt.mpr long))]

theorem bind_keyOf_iff {β : Type} {value : List UInt8} {f : List UInt8 → Checked β} {b : β} :
    keyOf value label >>= f = .ok b ↔ 32 ≤ value.length ∧ f value = .ok b :=
  bind_iff keyOf_of_long fun _ => keyOf_eq_ok

theorem toNat_lt_of_isHex {c : Char} (hexadecimal : isHex c = true) : c.toNat < 128 := by
  unfold isHex isDigit at hexadecimal
  rw [or_eq_true, and_eq_true, and_eq_true] at hexadecimal
  rcases hexadecimal with digit | letter
  · have bound : c.toNat ≤ 57 := UInt32.le_iff_toNat_le.mp (of_decide_eq_true digit.2)
    omega
  · have bound : c.toNat ≤ 102 := UInt32.le_iff_toNat_le.mp (of_decide_eq_true letter.2)
    omega

theorem compareDigest_of_hexadecimal
    (hexadecimal : ∀ c ∈ value.toList, isHex c = true) (same : value = expected) : compareDigest value expected mismatch = .ok () := by
  have ascii : ¬ (value.toList.any fun c => 128 ≤ c.toNat) = true := by
    intro other
    obtain ⟨c, member, high⟩ := any_eq_true.mp other
    exact absurd (toNat_lt_of_isHex (hexadecimal c member)) (not_lt.mpr (of_decide_eq_true high))
  unfold compareDigest
  rw [bind_of_ok (refuse_of_not ascii)]
  exact refuse_of_not (not_not.mpr same)

namespace AuthorizationDecision

variable {primitives : Primitives} {key : List UInt8} {grant : ExternalAdapterGrant}
  {evidence : ExternalAdapterEvidence} {decision : AuthorizationDecision}

/-- What a decision that passes `assert_authenticated` is known to be. -/
structure Authentic (primitives : Primitives) (key : List UInt8) (grant : ExternalAdapterGrant)
    (evidence : ExternalAdapterEvidence) (decision : AuthorizationDecision) : Prop where
  granted : ExternalAdapterGrant.Sealed primitives grant
  evident : ExternalAdapterEvidence.Sealed primitives grant evidence
  evidenceDigest : lowered decision.evidenceDigest = evidence.evidenceDigest
  evidenceSound : IsDigest (lowered decision.evidenceDigest)
  provider : stripped decision.providerId = grant.providerId
  consumer : stripped decision.consumerId = grant.consumerId
  subject : lowered decision.subjectScopeDigest = grant.subjectScopeDigest
  subjectSound : IsDigest (lowered decision.subjectScopeDigest)
  request : IsDigest (lowered decision.requestDigest)
  epoch : 0 ≤ decision.decisionEpoch
  basis : IsDigest (lowered decision.authorityBasisDigest)
  policy : IsDigest (lowered decision.policyDigest)
  outcome : stripped decision.outcome ∈ ["allow", "deny", "contain"]
  digest : decision.decisionDigest = primitives.hmac key decision.sealedText

theorem assertAuthenticated_eq_ok {u : Unit}
    (passed : decision.assertAuthenticated primitives key grant evidence = .ok u) :
    Authentic primitives key grant evidence decision := by
  simp only [assertAuthenticated, bind_keyOf_iff, bind_unit_iff, refuse_iff, bind_text_iff,
    bind_hexDigest_iff, bind_epochOf_iff, ne_eq, not_not, not_or] at passed
  obtain ⟨-, granted, evident, evidenceSound, belongs, -, -, parties, subjectSound, inScope, -,
    requestSound, nonnegative, -, basisSound, policySound, -, known, passed⟩ := passed
  exact {
    granted := ExternalAdapterGrant.assertSealed_eq_ok granted
    evident := ExternalAdapterEvidence.assertSealed_eq_ok evident
    evidenceDigest := belongs
    evidenceSound := evidenceSound
    provider := parties.1
    consumer := parties.2
    subject := inScope
    subjectSound := subjectSound
    request := requestSound
    epoch := nonnegative
    basis := basisSound
    policy := policySound
    outcome := known
    digest := compareDigest_eq_ok passed }

end AuthorizationDecision

namespace ExecutionPermit

variable {primitives : Primitives} {runtimeKey decisionKey : List UInt8}
  {grant : ExternalAdapterGrant} {evidence : ExternalAdapterEvidence}
  {decision : AuthorizationDecision} {permit : ExecutionPermit}

/-- What a permit that passes `assert_authenticated` is known to be. -/
structure Authentic (primitives : Primitives) (runtimeKey decisionKey : List UInt8)
    (grant : ExternalAdapterGrant) (evidence : ExternalAdapterEvidence)
    (decision : AuthorizationDecision) (permit : ExecutionPermit) : Prop where
  decided : AuthorizationDecision.Authentic primitives decisionKey grant evidence decision
  decisionDigest : lowered permit.authorizationDecisionDigest = decision.decisionDigest
  decisionSound : IsDigest (lowered permit.authorizationDecisionDigest)
  evidenceDigest : lowered permit.evidenceDigest = evidence.evidenceDigest
  evidenceSound : IsDigest (lowered permit.evidenceDigest)
  provider : stripped permit.providerId = grant.providerId
  consumer : stripped permit.consumerId = grant.consumerId
  subject : lowered permit.subjectScopeDigest = grant.subjectScopeDigest
  operation : stripped permit.operation = decision.operation
  request : lowered permit.requestDigest = decision.requestDigest
  epoch : permit.validEpoch = decision.decisionEpoch
  digest : permit.permitDigest = primitives.hmac runtimeKey permit.sealedText

theorem assertAuthenticated_eq_ok {u : Unit}
    (passed : permit.assertAuthenticated primitives runtimeKey decisionKey grant evidence decision =
      .ok u) :
    Authentic primitives runtimeKey decisionKey grant evidence decision permit := by
  simp only [assertAuthenticated, bind_keyOf_iff, bind_unit_iff, refuse_iff, bind_text_iff,
    bind_hexDigest_iff, bind_epochOf_iff, ne_eq, not_not, not_or] at passed
  obtain ⟨-, -, -, authentic, -, -, decisionSound, decided, evidenceSound, evident, -, -, -, -, -,
    -, provider, consumer, subject, operation, request, epoch, passed⟩ := passed
  exact {
    decided := AuthorizationDecision.assertAuthenticated_eq_ok authentic
    decisionDigest := decided
    decisionSound := decisionSound
    evidenceDigest := evident.1
    evidenceSound := evidenceSound
    provider := provider.1
    consumer := consumer.1
    subject := subject.1
    operation := operation
    request := request
    epoch := epoch.2
    digest := compareDigest_eq_ok passed }

end ExecutionPermit

/-! ## What the digests bind -/

def HexDigests (primitives : Primitives) : Prop := ∀ text, newlines (primitives.sha256 text) = 0

/-- A row that ends with a hexadecimal digest does not end with a newline. -/
theorem getLast?_of_isDigest (sound : IsDigest value) :
    (name ++ value).toList.getLast? ≠ some '\n' := by
  intro last
  rw [toList_append, List.getLast?_append] at last
  cases final : value.toList.getLast? with
  | none =>
    have empty : value.toList = [] := List.getLast?_eq_none_iff.mp final
    have length := sound.length
    rw [← length_toList, empty] at length
    cases length
  | some c =>
    rw [final] at last
    cases last
    exact absurd (sound.hexadecimal _ (List.mem_of_getLast? final)) (by decide)

/-- A row that ends with a stripped text does not end with a newline. -/
theorem getLast?_of_stripped (named : name.toList.getLast? ≠ some '\n') :
    (name ++ stripped value).toList.getLast? ≠ some '\n' := by
  intro last
  rw [toList_append, List.getLast?_append] at last
  cases final : (stripped value).toList.getLast? with
  | none =>
    rw [final] at last
    exact named last
  | some c =>
    rw [final] at last
    cases last
    exact getLast?_stripped value final

namespace AuthorizationDecision

variable {primitives : Primitives} {key : List UInt8} {grant grant' : ExternalAdapterGrant}
  {evidence evidence' : ExternalAdapterEvidence} {first second : AuthorizationDecision}

/-- The fields a decision is bound by. -/
structure SameFields (first second : AuthorizationDecision) : Prop where
  provider : first.providerId = second.providerId
  consumer : first.consumerId = second.consumerId
  subject : first.subjectScopeDigest = second.subjectScopeDigest
  operation : first.operation = second.operation
  request : first.requestDigest = second.requestDigest
  epoch : first.decisionEpoch = second.decisionEpoch

/-- White space and capitals are in the same places. -/
structure SpelledAlike (first second : AuthorizationDecision) : Prop where
  provider : margins first.providerId = margins second.providerId
  consumer : margins first.consumerId = margins second.consumerId
  subject : capitals first.subjectScopeDigest = capitals second.subjectScopeDigest
  operation : margins first.operation = margins second.operation
  request : capitals first.requestDigest = capitals second.requestDigest

section

variable (one : Authentic primitives key grant evidence first)

include one

/-- The rows of the grant name the parties as the decision does. -/
theorem Authentic.grant_rows :
    grant.rows = ExternalAdapterGrant.rowsOf (stripped first.providerId)
      (stripped first.consumerId) (lowered first.subjectScopeDigest) grant.allowedActions
      grant.validFromEpoch grant.expiresBeforeEpoch := by
  unfold ExternalAdapterGrant.rows
  rw [← one.provider, ← one.consumer, ← one.subject, stripped_stripped, stripped_stripped,
    lowered_lowered]

theorem Authentic.evidence_rows :
    evidence.rows = ExternalAdapterEvidence.rowsOf grant.grantDigest (stripped first.providerId)
      (stripped evidence.action) (lowered evidence.externalEvidenceDigest)
      evidence.observedEpoch := by
  unfold ExternalAdapterEvidence.rows
  rw [one.evident.granted, one.evident.provider, one.provider]

omit one in
/-- Two lines, the second of which ends with a digest, do not end with a newline. -/
theorem getLast?_of_scope {consumer name subject : String} (sound : IsDigest subject) :
    (lines [consumer, name ++ subject]).toList.getLast? ≠ some '\n' := by
  have written : lines [consumer, name ++ subject] = (consumer ++ "\n" ++ name) ++ subject := by
    unfold lines
    rw [String.intercalate_cons_cons, String.intercalate_singleton, ← String.append_assoc]
  rw [written]
  exact getLast?_of_isDigest sound

omit one in
/-- A text and a digest that are written as the same two lines are the same. -/
theorem scope_inj {consumer consumer' subject subject' : String} (sound : IsDigest subject)
    (sound' : IsDigest subject')
    (same : lines ["consumer=" ++ consumer, "subject=" ++ subject] =
      lines ["consumer=" ++ consumer', "subject=" ++ subject']) :
    consumer = consumer' ∧ subject = subject' := by
  have total := sum_newlines_of_lines same rfl
  simp only [map_cons, map_nil, sum_cons, List.sum_nil, newlines_append,
    newlines_of_hexadecimal sound.hexadecimal, newlines_of_hexadecimal sound'.hexadecimal] at total
  have counts : ["consumer=" ++ consumer, "subject=" ++ subject].map newlines =
      ["consumer=" ++ consumer', "subject=" ++ subject'].map newlines := by
    simp only [map_cons, map_nil, newlines_append,
      newlines_of_hexadecimal sound.hexadecimal, newlines_of_hexadecimal sound'.hexadecimal]
    have consumers : newlines consumer = newlines consumer' := by omega
    rw [consumers]
  have rows := rows_eq_of_lines same counts
  rw [cons.injEq, cons.injEq] at rows
  exact ⟨append_cancel rows.1, append_cancel rows.2.1⟩

/-- The rows of a decision contain the newlines of its provider, of its consumer and of its
operation. -/
theorem Authentic.newlines_rows :
    first.rows.map newlines = [0, newlines (stripped first.providerId),
      newlines (stripped first.consumerId), 0, newlines (stripped first.operation), 0, 0, 0, 0,
      0] := by
  have outcome : newlines (stripped first.outcome) = 0 := by
    have known := one.outcome
    simp only [mem_cons, not_mem_nil, or_false] at known
    rcases known with known | known | known
    · rw [known]
      decide
    · rw [known]
      decide
    · rw [known]
      decide
  have names : newlines "evidence=" = 0 ∧ newlines "provider=" = 0 ∧ newlines "consumer=" = 0 ∧
      newlines "subject=" = 0 ∧ newlines "operation=" = 0 ∧ newlines "request=" = 0 ∧
      newlines "epoch=" = 0 ∧ newlines "authority_basis=" = 0 ∧ newlines "policy=" = 0 ∧
      newlines "outcome=" = 0 := by decide
  obtain ⟨evident, provider, consumer, scope, operation, request, epoch, basis, policy, result⟩ :=
    names
  unfold rows rowsOf
  simp only [map_cons, map_nil, newlines_append,
    newlines_of_hexadecimal one.evidenceSound.hexadecimal,
    newlines_of_hexadecimal one.subjectSound.hexadecimal,
    newlines_of_hexadecimal one.request.hexadecimal,
    newlines_of_hexadecimal one.basis.hexadecimal,
    newlines_of_hexadecimal one.policy.hexadecimal, newlines_toString one.epoch, outcome, evident,
    provider, consumer, scope, operation, request, epoch, basis, policy, result, Nat.zero_add]

end

theorem length_rows (decision : AuthorizationDecision) : decision.rows.length = 10 := rfl

section Pair

variable (one : Authentic primitives key grant evidence first)
  (other : Authentic primitives key grant' evidence' second)

include one other

/-- Decisions that are written alike belong to one evidence, and go on alike after it. -/
theorem Authentic.evidence_eq
    (free : CollisionFree primitives.sha256 [evidence.sealedText, evidence'.sealedText])
    (same : lines first.rows = lines second.rows) :
    lines evidence.rows = lines evidence'.rows ∧
      lines first.rows.tail = lines second.rows.tail := by
  have counts : newlines (lowered first.evidenceDigest) =
      newlines (lowered second.evidenceDigest) := by
    rw [newlines_of_hexadecimal one.evidenceSound.hexadecimal,
      newlines_of_hexadecimal other.evidenceSound.hexadecimal]
  obtain ⟨digests, rest⟩ := lines_named_inj counts same
  rw [one.evidenceDigest, other.evidenceDigest, one.evident.digest, other.evident.digest] at digests
  have texts : evidence.sealedText = evidence'.sealedText := free.pair digests
  exact ⟨append_cancel texts, rest⟩

/-- Evidence that is written alike belongs to one grant, and goes on alike after it. -/
theorem Authentic.grant_eq (hex : HexDigests primitives)
    (free : CollisionFree primitives.sha256 [grant.sealedText, grant'.sealedText])
    (same : lines evidence.rows = lines evidence'.rows) :
    lines grant.rows = lines grant'.rows ∧
      lines evidence.rows.tail = lines evidence'.rows.tail := by
  have counts : newlines grant.grantDigest = newlines grant'.grantDigest := by
    rw [one.granted.digest, other.granted.digest, hex, hex]
  rw [one.evidence_rows, other.evidence_rows] at same ⊢
  obtain ⟨digests, rest⟩ := lines_named_inj counts same
  rw [one.granted.digest, other.granted.digest] at digests
  have texts : grant.sealedText = grant'.sealedText := free.pair digests
  exact ⟨append_cancel texts, rest⟩

/-- The provider is followed by the consumer in the decision and by the action in the evidence. -/
theorem Authentic.provider_eq (decisions : lines first.rows.tail = lines second.rows.tail)
    (evidences : lines evidence.rows.tail = lines evidence'.rows.tail) :
    "provider=" ++ stripped first.providerId = "provider=" ++ stripped second.providerId := by
  rw [one.evidence_rows, other.evidence_rows] at evidences
  have named : "provider=".toList.getLast? ≠ some '\n' := by decide
  have apart : 'c' ≠ 'a' := by decide
  exact row_eq_of_continuations decisions evidences apart (getLast?_of_stripped named)
    (getLast?_of_stripped named) (head?_lines rfl) (head?_lines rfl) (head?_lines rfl)
    (head?_lines rfl)

/-- The subject is followed by the operation in the decision and by the actions in the grant. -/
theorem Authentic.scope_eq (provider : "provider=" ++ stripped first.providerId =
      "provider=" ++ stripped second.providerId)
    (decisions : lines first.rows.tail = lines second.rows.tail)
    (grants : lines grant.rows = lines grant'.rows) :
    lines ["consumer=" ++ stripped first.consumerId,
        "subject=" ++ lowered first.subjectScopeDigest] =
      lines ["consumer=" ++ stripped second.consumerId,
        "subject=" ++ lowered second.subjectScopeDigest] := by
  rw [one.grant_rows, other.grant_rows] at grants
  simp only [rows, rowsOf, ExternalAdapterGrant.rowsOf, tail_cons] at decisions grants
  have inDecision := (lines_cons_inj (cons_ne_nil _ _) (cons_ne_nil _ _)
    (congrArg newlines provider) decisions).2
  have inGrant := (lines_cons_inj (cons_ne_nil _ _) (cons_ne_nil _ _)
    (congrArg newlines provider) grants).2
  have scopeInDecision := (lines_pair _ _ (cons_ne_nil _ _)).symm.trans
    (inDecision.trans (lines_pair _ _ (cons_ne_nil _ _)))
  have scopeInGrant := (lines_pair _ _ (cons_ne_nil _ _)).symm.trans
    (inGrant.trans (lines_pair _ _ (cons_ne_nil _ _)))
  have apart : 'o' ≠ 'a' := by decide
  exact row_eq_of_continuations scopeInDecision scopeInGrant apart
    (getLast?_of_scope one.subjectSound)
    (getLast?_of_scope other.subjectSound) (head?_lines rfl) (head?_lines rfl) (head?_lines rfl)
    (head?_lines rfl)

theorem Authentic.rows_eq (hex : HexDigests primitives)
    (freeGrants : CollisionFree primitives.sha256 [grant.sealedText, grant'.sealedText])
    (freeEvidence : CollisionFree primitives.sha256 [evidence.sealedText, evidence'.sealedText])
    (same : first.sealedText = second.sealedText) : first.rows = second.rows := by
  have written : lines first.rows = lines second.rows := append_cancel same
  obtain ⟨evidences, decisionRest⟩ := one.evidence_eq other freeEvidence written
  obtain ⟨grants, evidenceRest⟩ := one.grant_eq other hex freeGrants evidences
  have provider := one.provider_eq other decisionRest evidenceRest
  have scope := one.scope_eq other provider decisionRest grants
  obtain ⟨consumer, -⟩ := scope_inj one.subjectSound other.subjectSound scope
  have total := sum_newlines_of_lines written (first.length_rows.trans second.length_rows.symm)
  have counts : first.rows.map newlines = second.rows.map newlines := by
    rw [one.newlines_rows, other.newlines_rows, append_cancel provider, consumer] at total ⊢
    simp only [sum_cons, List.sum_nil] at total
    have operation : newlines (stripped first.operation) = newlines (stripped second.operation) := by
      omega
    rw [operation]
  exact rows_eq_of_lines written counts

/-- What equal rows say about the fields. -/
theorem Authentic.fields_eq (same : first.rows = second.rows) :
    stripped first.providerId = stripped second.providerId ∧
      stripped first.consumerId = stripped second.consumerId ∧
      lowered first.subjectScopeDigest = lowered second.subjectScopeDigest ∧
      stripped first.operation = stripped second.operation ∧
      lowered first.requestDigest = lowered second.requestDigest ∧
      first.decisionEpoch = second.decisionEpoch := by
  unfold rows rowsOf at same
  simp only [cons.injEq] at same
  obtain ⟨-, provider, consumer, subject, operation, request, epoch, -⟩ := same
  exact ⟨append_cancel provider, append_cancel consumer, append_cancel subject,
    append_cancel operation, append_cancel request,
    toString_injective one.epoch other.epoch (append_cancel epoch)⟩

end Pair

/-- The digest of a decision binds its fields, unless the two decisions are written as one text
and not spelled alike. -/
theorem binds_iff (hex : HexDigests primitives)
    (firstPassed : first.assertAuthenticated primitives key grant evidence = .ok ())
    (secondPassed : second.assertAuthenticated primitives key grant' evidence' = .ok ())
    (freeGrants : CollisionFree primitives.sha256 [grant.sealedText, grant'.sealedText])
    (freeEvidence : CollisionFree primitives.sha256 [evidence.sealedText, evidence'.sealedText])
    (free : CollisionFree (primitives.hmac key) [first.sealedText, second.sealedText]) :
    (first.decisionDigest = second.decisionDigest → SameFields first second) ↔
      (first.sealedText = second.sealedText → SpelledAlike first second) := by
  have one := assertAuthenticated_eq_ok firstPassed
  have other := assertAuthenticated_eq_ok secondPassed
  constructor
  · intro binds same
    have fields := binds (by rw [one.digest, other.digest, same])
    exact {
      provider := by rw [fields.provider]
      consumer := by rw [fields.consumer]
      subject := by rw [fields.subject]
      operation := by rw [fields.operation]
      request := by rw [fields.request] }
  · intro spelled digests
    rw [one.digest, other.digest] at digests
    have same : first.sealedText = second.sealedText := free.pair digests
    have alike := spelled same
    obtain ⟨provider, consumer, subject, operation, request, epoch⟩ :=
      one.fields_eq other (one.rows_eq other hex freeGrants freeEvidence same)
    exact {
      provider := eq_of_stripped provider alike.provider
      consumer := eq_of_stripped consumer alike.consumer
      subject := eq_of_lowered subject alike.subject
      operation := eq_of_stripped operation alike.operation
      request := eq_of_lowered request alike.request
      epoch := epoch }

end AuthorizationDecision

namespace ExecutionPermit

variable {primitives : Primitives} {runtimeKey decisionKey : List UInt8}
  {grant grant' : ExternalAdapterGrant} {evidence evidence' : ExternalAdapterEvidence}
  {decision decision' : AuthorizationDecision} {first second : ExecutionPermit}

/-- The fields a permit is bound by. -/
structure SameFields (first second : ExecutionPermit) : Prop where
  provider : first.providerId = second.providerId
  consumer : first.consumerId = second.consumerId
  subject : first.subjectScopeDigest = second.subjectScopeDigest
  operation : first.operation = second.operation
  request : first.requestDigest = second.requestDigest
  epoch : first.validEpoch = second.validEpoch

/-- White space and capitals are in the same places. -/
structure SpelledAlike (first second : ExecutionPermit) : Prop where
  provider : margins first.providerId = margins second.providerId
  consumer : margins first.consumerId = margins second.consumerId
  subject : capitals first.subjectScopeDigest = capitals second.subjectScopeDigest
  operation : margins first.operation = margins second.operation
  request : capitals first.requestDigest = capitals second.requestDigest

/-- Permits that are written as one text belong to one decision digest. -/
theorem Authentic.decision_eq
    (one : Authentic primitives runtimeKey decisionKey grant evidence decision first)
    (other : Authentic primitives runtimeKey decisionKey grant' evidence' decision' second)
    (free : CollisionFree (primitives.hmac decisionKey) [decision.sealedText, decision'.sealedText])
    (same : first.sealedText = second.sealedText) : decision.sealedText = decision'.sealedText := by
  have written : lines first.rows = lines second.rows := append_cancel same
  have counts : newlines (lowered first.authorizationDecisionDigest) =
      newlines (lowered second.authorizationDecisionDigest) := by
    rw [newlines_of_hexadecimal one.decisionSound.hexadecimal,
      newlines_of_hexadecimal other.decisionSound.hexadecimal]
  obtain ⟨digests, -⟩ := lines_named_inj counts written
  rw [one.decisionDigest, other.decisionDigest, one.decided.digest, other.decided.digest] at digests
  exact free.pair digests

/-- The digest of a permit binds its fields, unless the two permits are written as one text and
not spelled alike. -/
theorem binds_iff (hex : HexDigests primitives)
    (firstPassed : first.assertAuthenticated primitives runtimeKey decisionKey grant evidence
      decision = .ok ())
    (secondPassed : second.assertAuthenticated primitives runtimeKey decisionKey grant' evidence'
      decision' = .ok ())
    (freeGrants : CollisionFree primitives.sha256 [grant.sealedText, grant'.sealedText])
    (freeEvidence : CollisionFree primitives.sha256 [evidence.sealedText, evidence'.sealedText])
    (freeDecisions : CollisionFree (primitives.hmac decisionKey)
      [decision.sealedText, decision'.sealedText])
    (free : CollisionFree (primitives.hmac runtimeKey) [first.sealedText, second.sealedText]) :
    (first.permitDigest = second.permitDigest → SameFields first second) ↔
      (first.sealedText = second.sealedText → SpelledAlike first second) := by
  have one := assertAuthenticated_eq_ok firstPassed
  have other := assertAuthenticated_eq_ok secondPassed
  constructor
  · intro binds same
    have fields := binds (by rw [one.digest, other.digest, same])
    exact {
      provider := by rw [fields.provider]
      consumer := by rw [fields.consumer]
      subject := by rw [fields.subject]
      operation := by rw [fields.operation]
      request := by rw [fields.request] }
  · intro spelled digests
    rw [one.digest, other.digest] at digests
    have same : first.sealedText = second.sealedText := free.pair digests
    have alike := spelled same
    have rows := one.decided.rows_eq other.decided hex freeGrants freeEvidence
      (one.decision_eq other freeDecisions same)
    obtain ⟨provider, consumer, subject, operation, request, epoch⟩ :=
      one.decided.fields_eq other.decided rows
    rw [one.decided.provider, other.decided.provider, ← one.provider, ← other.provider] at provider
    rw [one.decided.consumer, other.decided.consumer, ← one.consumer, ← other.consumer] at consumer
    rw [one.decided.subject, other.decided.subject, ← one.subject, ← other.subject] at subject
    rw [← one.operation, ← other.operation, stripped_stripped, stripped_stripped] at operation
    rw [← one.request, ← other.request, lowered_lowered, lowered_lowered] at request
    exact {
      provider := eq_of_stripped provider alike.provider
      consumer := eq_of_stripped consumer alike.consumer
      subject := eq_of_lowered subject alike.subject
      operation := eq_of_stripped operation alike.operation
      request := eq_of_lowered request alike.request
      epoch := by rw [one.epoch, other.epoch, epoch] }

end ExecutionPermit

/-- Grants, decisions and permits are bound by their digests exactly when no two of them are
written as one text under different spellings. -/
theorem digests_bind_iff (primitives : Primitives) (hex : HexDigests primitives) :
    (∀ first second : ExternalAdapterGrant, first.assertSealed primitives = .ok () →
      second.assertSealed primitives = .ok () →
      CollisionFree primitives.sha256 [first.sealedText, second.sealedText] →
      ((first.grantDigest = second.grantDigest →
          ExternalAdapterGrant.SamePermission primitives first second) ↔
        (first.sealedText = second.sealedText → ExternalAdapterGrant.SpelledAlike first second))) ∧
    (∀ (key : List UInt8) (grant grant' : ExternalAdapterGrant)
      (evidence evidence' : ExternalAdapterEvidence) (first second : AuthorizationDecision),
      first.assertAuthenticated primitives key grant evidence = .ok () →
      second.assertAuthenticated primitives key grant' evidence' = .ok () →
      CollisionFree primitives.sha256 [grant.sealedText, grant'.sealedText] →
      CollisionFree primitives.sha256 [evidence.sealedText, evidence'.sealedText] →
      CollisionFree (primitives.hmac key) [first.sealedText, second.sealedText] →
      ((first.decisionDigest = second.decisionDigest →
          AuthorizationDecision.SameFields first second) ↔
        (first.sealedText = second.sealedText → AuthorizationDecision.SpelledAlike first second))) ∧
    (∀ (runtimeKey decisionKey : List UInt8) (grant grant' : ExternalAdapterGrant)
      (evidence evidence' : ExternalAdapterEvidence) (decision decision' : AuthorizationDecision)
      (first second : ExecutionPermit),
      first.assertAuthenticated primitives runtimeKey decisionKey grant evidence decision = .ok () →
      second.assertAuthenticated primitives runtimeKey decisionKey grant' evidence' decision' =
        .ok () →
      CollisionFree primitives.sha256 [grant.sealedText, grant'.sealedText] →
      CollisionFree primitives.sha256 [evidence.sealedText, evidence'.sealedText] →
      CollisionFree (primitives.hmac decisionKey) [decision.sealedText, decision'.sealedText] →
      CollisionFree (primitives.hmac runtimeKey) [first.sealedText, second.sealedText] →
      ((first.permitDigest = second.permitDigest → ExecutionPermit.SameFields first second) ↔
        (first.sealedText = second.sealedText → ExecutionPermit.SpelledAlike first second))) := by
  refine ⟨?_, ?_, ?_⟩
  · intro first second firstPassed secondPassed free
    exact ExternalAdapterGrant.binds_iff firstPassed secondPassed free
  · intro key grant grant' evidence evidence' first second firstPassed secondPassed freeGrants
      freeEvidence free
    exact AuthorizationDecision.binds_iff hex firstPassed secondPassed freeGrants freeEvidence free
  · intro runtimeKey decisionKey grant grant' evidence evidence' decision decision' first second
      firstPassed secondPassed freeGrants freeEvidence freeDecisions free
    exact ExecutionPermit.binds_iff hex firstPassed secondPassed freeGrants freeEvidence
      freeDecisions free

/-! ## Grants written as one text -/

/-- A grant to pay and to read, sealed. -/
def bankGrant (provider consumer : String) (actions : List String) : ExternalAdapterGrant :=
  let unsealed : ExternalAdapterGrant :=
    ⟨provider, consumer, repeated 'a', actions, 0, 2, "", false⟩
  { unsealed with grantDigest := plainPrimitives.sha256 unsealed.sealedText }

theorem bankGrant_sealed {provider consumer : String} {actions : List String}
    (provided : text provider "provider_id" = .ok provider)
    (consumed : text consumer "consumer_id" = .ok consumer) (canonical : CanonicalNames actions)
    (texts : ∀ action ∈ actions, text action "adapter action" = .ok action) :
    (bankGrant provider consumer actions).assertSealed plainPrimitives = .ok () := by
  have digit : isHex 'a' = true := by decide
  have subject : IsDigest (lowered (repeated 'a')) := by
    rw [lowered_of_isDigest (isDigest_repeated digit (by decide))]
    exact isDigest_repeated digit (by decide)
  have lifetime : (0 : Int) < 2 := by decide
  exact ExternalAdapterGrant.assertSealed_of rfl provided consumed subject canonical texts
    (le_refl 0) lifetime rfl

theorem canonicalNames_single (name : String) : CanonicalNames [name] :=
  ⟨cons_ne_nil _ _, pairwise_singleton _ _, nodup_singleton _⟩

/-- Two grants of one digest: one permits paying and reading, the other a single action whose name
has a comma in it; and two grants of one digest to different providers. -/
theorem grants_of_one_digest :
    (bankGrant "bank" "agent" ["pay", "read"]).assertSealed plainPrimitives = .ok () ∧
      (bankGrant "bank" "agent" ["pay,read"]).assertSealed plainPrimitives = .ok () ∧
      (bankGrant "bank" "agent" ["pay", "read"]).grantDigest =
        (bankGrant "bank" "agent" ["pay,read"]).grantDigest ∧
      (bankGrant "bank" "agent" ["pay", "read"]).permits plainPrimitives "pay" 0 = .ok true ∧
      (bankGrant "bank" "agent" ["pay,read"]).permits plainPrimitives "pay" 0 = .ok false ∧
      (bankGrant "bank\nconsumer=agent" "agent" ["pay"]).assertSealed plainPrimitives = .ok () ∧
      (bankGrant "bank" "agent\nconsumer=agent" ["pay"]).assertSealed plainPrimitives = .ok () ∧
      (bankGrant "bank\nconsumer=agent" "agent" ["pay"]).grantDigest =
        (bankGrant "bank" "agent\nconsumer=agent" ["pay"]).grantDigest := by
  have bank : text "bank" "provider_id" = .ok "bank" := text_ofList _ (by decide) rfl rfl
  have bankLines : text "bank\nconsumer=agent" "provider_id" = .ok "bank\nconsumer=agent" :=
    text_ofList _ (by decide) rfl rfl
  have agent : text "agent" "consumer_id" = .ok "agent" := text_ofList _ (by decide) rfl rfl
  have agentLines : text "agent\nconsumer=agent" "consumer_id" = .ok "agent\nconsumer=agent" :=
    text_ofList _ (by decide) rfl rfl
  have pay : text "pay" "adapter action" = .ok "pay" := text_ofList _ (by decide) rfl rfl
  have read : text "read" "adapter action" = .ok "read" := text_ofList _ (by decide) rfl rfl
  have both : text "pay,read" "adapter action" = .ok "pay,read" := text_ofList _ (by decide) rfl rfl
  have names : CanonicalNames ["pay", "read"] :=
    ⟨cons_ne_nil _ _, by decide +kernel, by decide⟩
  have two := bankGrant_sealed bank agent names
    (forall_mem_cons.mpr ⟨pay, List.forall_mem_singleton.mpr read⟩)
  have one := bankGrant_sealed bank agent (canonicalNames_single "pay,read")
    (List.forall_mem_singleton.mpr both)
  have paid : text "pay" "action" = .ok "pay" := text_ofList _ (by decide) rfl rfl
  have permitted : (bankGrant "bank" "agent" ["pay", "read"]).permits plainPrimitives "pay" 0 =
      .ok true := by
    unfold ExternalAdapterGrant.permits
    rw [bind_of_ok two, bind_of_ok paid]
    rfl
  have withheld : (bankGrant "bank" "agent" ["pay,read"]).permits plainPrimitives "pay" 0 =
      .ok false := by
    unfold ExternalAdapterGrant.permits
    rw [bind_of_ok one, bind_of_ok paid]
    rfl
  have texts : ∀ action ∈ ["pay"], text action "adapter action" = .ok action :=
    List.forall_mem_singleton.mpr pay
  exact ⟨two, one, by decide +kernel, permitted, withheld,
    bankGrant_sealed bankLines agent (canonicalNames_single "pay") texts,
    bankGrant_sealed bank agentLines (canonicalNames_single "pay") texts, by decide +kernel⟩

/-! ## A recorded permit -/

/-- Primitives with one digest for all texts. -/
def hexPrimitives : Primitives :=
  ⟨fun _ => repeated 'a', fun _ _ => repeated 'b', fun _ => .ok "plan"⟩

def recordedKey : List UInt8 := replicate 32 0

def payGrant : ExternalAdapterGrant :=
  ⟨"bank", "agent", repeated 'a', ["pay"], 0, 2, repeated 'a', false⟩

def payEvidence : ExternalAdapterEvidence :=
  ⟨repeated 'a', "bank", "pay", repeated 'a', 1, repeated 'a', false⟩

def payDecision : AuthorizationDecision :=
  ⟨repeated 'a', "bank", "agent", repeated 'a', "read", repeated 'a', 1, repeated 'a', repeated 'a',
    "allow", repeated 'b'⟩

/-- The permit for the decision, in any spelling of the decision digest and the operation. -/
def payPermit (decisionDigest operation : String) : ExecutionPermit :=
  ⟨decisionDigest, repeated 'a', "bank", "agent", repeated 'a', operation, repeated 'a', 1,
    repeated 'b', true⟩

theorem isDigest_a : IsDigest (repeated 'a') := isDigest_repeated (by decide) (by decide)

theorem isDigest_b : IsDigest (repeated 'b') := isDigest_repeated (by decide) (by decide)

theorem payGrant_sealed : payGrant.assertSealed hexPrimitives = .ok () := by
  have bank : text "bank" "provider_id" = .ok "bank" := text_ofList _ (by decide) rfl rfl
  have agent : text "agent" "consumer_id" = .ok "agent" := text_ofList _ (by decide) rfl rfl
  have pay : text "pay" "adapter action" = .ok "pay" := text_ofList _ (by decide) rfl rfl
  have subject : IsDigest (lowered (repeated 'a')) := (lowered_of_isDigest isDigest_a).symm ▸ isDigest_a
  have lifetime : (0 : Int) < 2 := by decide
  exact ExternalAdapterGrant.assertSealed_of rfl bank agent subject (canonicalNames_single "pay")
    (List.forall_mem_singleton.mpr pay) (le_refl 0) lifetime rfl

theorem payEvidence_sealed : payEvidence.assertSealed hexPrimitives payGrant = .ok () := by
  have bank : text "bank" "provider_id" = .ok "bank" := text_ofList _ (by decide) rfl rfl
  have pay : text "pay" "action" = .ok "pay" := text_ofList _ (by decide) rfl rfl
  have external : IsDigest (lowered (repeated 'a')) :=
    (lowered_of_isDigest isDigest_a).symm ▸ isDigest_a
  have permitted : payGrant.permits hexPrimitives "pay" 1 = .ok true := by
    unfold ExternalAdapterGrant.permits
    rw [bind_of_ok payGrant_sealed, bind_of_ok pay]
    rfl
  exact ExternalAdapterEvidence.assertSealed_of payGrant_sealed rfl rfl bank external zero_le_one pay
    permitted rfl

theorem payDecision_authentic :
    payDecision.assertAuthenticated hexPrimitives recordedKey payGrant payEvidence = .ok () := by
  have bank : stripped "bank" = "bank" := stripped_ofList rfl rfl
  have agent : stripped "agent" = "agent" := stripped_ofList rfl rfl
  have read : stripped "read" = "read" := stripped_ofList rfl rfl
  have allow : stripped "allow" = "allow" := stripped_ofList rfl rfl
  simp only [AuthorizationDecision.assertAuthenticated, bind_keyOf_iff, bind_unit_iff, refuse_iff,
    bind_text_iff, bind_hexDigest_iff, bind_epochOf_iff, payDecision, bank, agent, read, allow,
    lowered_of_isDigest isDigest_a]
  exact ⟨by decide, payGrant_sealed, payEvidence_sealed, isDigest_a, by decide, by decide,
    by decide, by decide, isDigest_a, by decide, by decide, isDigest_a, zero_le_one, by decide,
    isDigest_a, isDigest_a, by decide, by decide, compareDigest_of_hexadecimal
    isDigest_b.hexadecimal rfl⟩

theorem payPermit_authentic {decisionDigest operation : String}
    (named : hexDigest decisionDigest "authorization_decision_digest" = .ok (repeated 'b'))
    (operated : text operation "operation" = .ok "read") :
    (payPermit decisionDigest operation).assertAuthenticated hexPrimitives recordedKey recordedKey
      payGrant payEvidence payDecision = .ok () := by
  have bank : stripped "bank" = "bank" := stripped_ofList rfl rfl
  have agent : stripped "agent" = "agent" := stripped_ofList rfl rfl
  simp only [ExecutionPermit.assertAuthenticated, bind_keyOf_iff, bind_unit_iff, refuse_iff,
    bind_text_iff, bind_hexDigest_iff, bind_epochOf_iff, payPermit, bank, agent,
    lowered_of_isDigest isDigest_a, ← (hexDigest_eq_ok named).1, ← (text_eq_ok operated).1]
  exact ⟨by decide, payGrant_sealed, payEvidence_sealed, payDecision_authentic, by decide,
    rfl, isDigest_b, by decide, isDigest_a, by decide, by decide, by decide, isDigest_a,
    by decide, isDigest_a, zero_le_one, by decide, by decide, by decide, by decide, by decide,
    by decide, compareDigest_of_hexadecimal isDigest_b.hexadecimal rfl⟩

/-- Two permits of one digest that spell their operation differently. -/
theorem digests_bind_iff_recorded : ((payPermit (repeated 'b') "read").permitDigest =
        (payPermit (repeated 'b') " read").permitDigest →
        ExecutionPermit.SameFields (payPermit (repeated 'b') "read")
          (payPermit (repeated 'b') " read")) ↔
      ((payPermit (repeated 'b') "read").sealedText =
          (payPermit (repeated 'b') " read").sealedText →
        ExecutionPermit.SpelledAlike (payPermit (repeated 'b') "read")
          (payPermit (repeated 'b') " read")) := by
  have hex : HexDigests hexPrimitives := fun _ => newlines_of_hexadecimal isDigest_a.hexadecimal
  have read : text "read" "operation" = .ok "read" := text_ofList _ (by decide) rfl rfl
  have spaced : text " read" "operation" = .ok "read" := by decide +kernel
  have same : (payPermit (repeated 'b') "read").sealedText =
      (payPermit (repeated 'b') " read").sealedText := by
    have words : stripped "read" = stripped " read" := by decide +kernel
    unfold ExecutionPermit.sealedText ExecutionPermit.rows payPermit
    simp only [words]
  have alone : ∀ (digestOf : String → String) (value : String),
      CollisionFree digestOf [value, value] := by
    intro digestOf value a first b second _
    simp only [mem_cons, not_mem_nil, or_false, or_self] at first second
    rw [first, second]
  refine (digests_bind_iff hexPrimitives hex).2.2 recordedKey recordedKey payGrant payGrant
    payEvidence payEvidence payDecision payDecision _ _
    (payPermit_authentic (hexDigest_of_sound isDigest_b) read)
    (payPermit_authentic (hexDigest_of_sound isDigest_b) spaced) (alone _ _) (alone _ _) (alone _ _) ?_
  rw [same]
  exact alone _ _

end Koschei.Authorization
