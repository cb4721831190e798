import Koschei.Authorization.Texts

/-!
# External adapter grants and their evidence

`external_adapter_contract_v1.py`: a grant permits a provider to report actions
for a subject scope during some epochs, and evidence is one report under it.
Both are sealed by a digest of their fields, one to a line, the actions of a
grant between commas.

The digest of a grant binds what it permits exactly as far as no other grant is
written as the same text. Newlines in a provider or consumer, commas in an
action, and other spellings of the provider, the consumer and the scope all lead
to such grants.
-/

namespace Koschei.Authorization

open Lib

/-! ## Grants -/

/-- `_require_digest`. -/
def requireDigest (value label : String) : Checked String := do
  refuse (value.length ≠ 64) (label ++ " must be a 64-character digest")
  refuse ((lowered value).toList.any (fun c => !isHex c)) (label ++ " must be hexadecimal")
  refuse (lowered value = zeroDigest) (label ++ " cannot be the zero digest")
  .ok (lowered value)

/-- `_canonical_actions`. -/
def canonicalActions (actions : List String) : Checked (List String) := do
  refuse (actions = []) "allowed_actions must contain at least one action"
  let cleaned ← textAll "adapter action" actions
  refuse (sortedSet cleaned ≠ actions) "allowed_actions must be unique and canonically sorted"
  .ok (sortedSet cleaned)

/-- The text that `_seal` hashes. -/
def adapterText (rows : List String) : String :=
  "koschei.external-adapter-contract/v1\x00" ++ lines rows

/-- `ExternalAdapterGrantV1`. -/
structure ExternalAdapterGrant where
  providerId : String
  consumerId : String
  subjectScopeDigest : String
  allowedActions : List String
  validFromEpoch : Int
  expiresBeforeEpoch : Int
  grantDigest : String
  authority : Bool
  deriving DecidableEq

namespace ExternalAdapterGrant

/-- The rows of a grant, as its checks leave the fields. -/
def rowsOf (provider consumer subject : String) (actions : List String) (start expiry : Int) :
    List String :=
  ["provider=" ++ provider, "consumer=" ++ consumer, "subject=" ++ subject,
    "actions=" ++ ",".intercalate actions, "from=" ++ toString start,
    "before=" ++ toString expiry, "authority=0"]

/-- `ExternalAdapterGrantV1.assert_sealed`. -/
def assertSealed (primitives : Primitives) (grant : ExternalAdapterGrant) : Checked Unit := do
  refuse grant.authority "external adapter grants cannot carry Koschei authority"
  let provider ← text grant.providerId "provider_id"
  let consumer ← text grant.consumerId "consumer_id"
  let subject ← requireDigest grant.subjectScopeDigest "subject_scope_digest"
  let actions ← canonicalActions grant.allowedActions
  let start ← epochOf grant.validFromEpoch "valid_from_epoch"
  let expiry ← epochOf grant.expiresBeforeEpoch "expires_before_epoch"
  refuse (expiry ≤ start) "external adapter grant requires a positive epoch lifetime"
  refuse (grant.grantDigest ≠
      primitives.sha256 (adapterText (rowsOf provider consumer subject actions start expiry)))
    "external adapter grant seal mismatch"

/-- `ExternalAdapterGrantV1.permits`. -/
def permits (primitives : Primitives) (grant : ExternalAdapterGrant) (action : String)
    (currentEpoch : Int) : Checked Bool := do
  grant.assertSealed primitives
  let action ← text action "action"
  let epoch ← epochOf currentEpoch "current_epoch"
  .ok (decide (grant.validFromEpoch ≤ epoch ∧ epoch < grant.expiresBeforeEpoch) &&
    decide (action ∈ grant.allowedActions))

def rows (grant : ExternalAdapterGrant) : List String :=
  rowsOf (stripped grant.providerId) (stripped grant.consumerId) (lowered grant.subjectScopeDigest)
    grant.allowedActions grant.validFromEpoch grant.expiresBeforeEpoch

def sealedText (grant : ExternalAdapterGrant) : String := adapterText grant.rows

end ExternalAdapterGrant

/-! ## Evidence -/

/-- `ExternalAdapterEvidenceV1`. -/
structure ExternalAdapterEvidence where
  grantDigest : String
  providerId : String
  action : String
  externalEvidenceDigest : String
  observedEpoch : Int
  evidenceDigest : String
  authority : Bool
  deriving DecidableEq

namespace ExternalAdapterEvidence

/-- The rows of an evidence. -/
def rowsOf (grantDigest provider action external : String) (epoch : Int) : List String :=
  ["grant=" ++ grantDigest, "provider=" ++ provider, "action=" ++ action, "external=" ++ external,
    "epoch=" ++ toString epoch, "authority=0"]

/-- `ExternalAdapterEvidenceV1.assert_sealed`. -/
def assertSealed (primitives : Primitives) (grant : ExternalAdapterGrant)
    (evidence : ExternalAdapterEvidence) : Checked Unit := do
  grant.assertSealed primitives
  refuse evidence.authority "external evidence cannot grant Koschei authority"
  refuse (evidence.grantDigest ≠ grant.grantDigest) "external evidence belongs to a different grant"
  let provider ← text evidence.providerId "provider_id"
  refuse (provider ≠ grant.providerId) "external evidence provider does not match grant"
  let external ← requireDigest evidence.externalEvidenceDigest "external_evidence_digest"
  let epoch ← epochOf evidence.observedEpoch "observed_epoch"
  let action ← text evidence.action "action"
  let permitted ← grant.permits primitives action epoch
  refuse (permitted = false) "external evidence action is outside grant scope or lifetime"
  refuse (evidence.evidenceDigest ≠ primitives.sha256
      (adapterText (rowsOf evidence.grantDigest provider action external epoch)))
    "external adapter evidence seal mismatch"

/-- The rows of an evidence, as its checks leave the fields. -/
def rows (evidence : ExternalAdapterEvidence) : List String :=
  rowsOf evidence.grantDigest (stripped evidence.providerId) (stripped evidence.action)
    (lowered evidence.externalEvidenceDigest) evidence.observedEpoch

def sealedText (evidence : ExternalAdapterEvidence) : String := adapterText evidence.rows

end ExternalAdapterEvidence

/-! ## What passes the checks -/

theorem requireDigest_eq_ok {value label passed : String}
    (accepted : requireDigest value label = .ok passed) :
    passed = lowered value ∧ IsDigest passed := by
  unfold requireDigest at accepted
  obtain ⟨_, length, accepted⟩ := bind_eq_ok accepted
  obtain ⟨_, hexadecimal, accepted⟩ := bind_eq_ok accepted
  obtain ⟨_, nonzero, accepted⟩ := bind_eq_ok accepted
  cases accepted
  exact ⟨rfl, isDigest_of_checks (refuse_eq_ok length) (refuse_eq_ok hexadecimal)
    (refuse_eq_ok nonzero)⟩

variable {value label : String}

theorem requireDigest_of_isDigest (sound : IsDigest (lowered value)) :
    requireDigest value label = .ok (lowered value) := by
  have length : ¬ value.length ≠ 64 := not_not.mpr (length_lowered value ▸ sound.length)
  have hexadecimal : ¬ (lowered value).toList.any (fun c => !isHex c) = true := by
    intro other
    obtain ⟨c, member, wrong⟩ := any_eq_true.mp other
    rw [sound.hexadecimal c member] at wrong
    cases wrong
  unfold requireDigest
  rw [bind_of_ok (refuse_of_not length), bind_of_ok (refuse_of_not hexadecimal),
    bind_of_ok (refuse_of_not sound.nonzero)]

theorem bind_requireDigest_iff {β : Type} {f : String → Checked β} {b : β} :
    requireDigest value label >>= f = .ok b ↔ IsDigest (lowered value) ∧ f (lowered value) = .ok b :=
  bind_iff requireDigest_of_isDigest fun _ accepted => by
    obtain ⟨rfl, sound⟩ := requireDigest_eq_ok accepted
    exact ⟨rfl, sound⟩

variable {values passed actions : List String}

theorem textAll_stripped (accepted : textAll label values = .ok passed) :
    passed = values.map stripped ∧ ∀ value ∈ passed, value ≠ "" := by
  induction values generalizing passed with
  | nil =>
    cases accepted
    exact ⟨rfl, forall_mem_nil _⟩
  | cons value values ih =>
    unfold textAll at accepted
    obtain ⟨first, one, accepted⟩ := bind_eq_ok accepted
    obtain ⟨rest, others, accepted⟩ := bind_eq_ok accepted
    cases accepted
    obtain ⟨same, nonempty⟩ := text_eq_ok one
    obtain ⟨sames, nonempties⟩ := ih others
    exact ⟨by rw [same, sames, map_cons], forall_mem_cons.mpr ⟨nonempty, nonempties⟩⟩

theorem canonicalActions_eq_ok (accepted : canonicalActions actions = .ok passed) :
    passed = actions ∧ CanonicalNames actions ∧ ∀ action ∈ actions,
      text action "action" = .ok action := by
  unfold canonicalActions at accepted
  obtain ⟨_, some_action, accepted⟩ := bind_eq_ok accepted
  obtain ⟨cleaned, texts, accepted⟩ := bind_eq_ok accepted
  obtain ⟨_, canonical, accepted⟩ := bind_eq_ok accepted
  have sorted : sortedSet cleaned = actions := not_not.mp (refuse_eq_ok canonical)
  cases accepted
  obtain ⟨same, nonempty⟩ := textAll_stripped texts
  obtain ⟨ordered, nodup, members⟩ := sortedSet_canonical cleaned
  rw [sorted] at ordered nodup members
  refine ⟨sorted, ⟨refuse_eq_ok some_action, ordered, nodup⟩, fun action member => ?_⟩
  have cleanedMember := (members action).mp member
  have settled : stripped action = action := by
    rw [same] at cleanedMember
    obtain ⟨raw, -, rfl⟩ := mem_map.mp cleanedMember
    exact stripped_stripped raw
  unfold text
  rw [settled, if_neg (nonempty action cleanedMember)]

theorem textAll_of_texts
    (texts : ∀ value ∈ values, text value label = .ok value) : textAll label values = .ok values := by
  induction values with
  | nil => rfl
  | cons value values ih =>
    obtain ⟨first, rest⟩ := forall_mem_cons.mp texts
    unfold textAll
    rw [bind_of_ok first, bind_of_ok (ih rest)]

theorem canonicalActions_of_canonical (canonical : CanonicalNames actions)
    (texts : ∀ action ∈ actions, text action "adapter action" = .ok action) :
    canonicalActions actions = .ok actions := by
  have sorted := sortedSet_of_canonical canonical
  unfold canonicalActions
  rw [bind_of_ok (refuse_of_not canonical.nonempty), bind_of_ok (textAll_of_texts texts),
    bind_of_ok (refuse_of_not (not_not.mpr sorted)), sorted]

namespace ExternalAdapterGrant

variable {primitives : Primitives} {grant first second : ExternalAdapterGrant}

/-- What a grant that passes `assert_sealed` is known to be. -/
structure Sealed (primitives : Primitives) (grant : ExternalAdapterGrant) : Prop where
  subject : IsDigest (lowered grant.subjectScopeDigest)
  actions : CanonicalNames grant.allowedActions
  texts : ∀ action ∈ grant.allowedActions, text action "action" = .ok action
  start : 0 ≤ grant.validFromEpoch
  lifetime : grant.validFromEpoch < grant.expiresBeforeEpoch
  digest : grant.grantDigest = primitives.sha256 grant.sealedText

theorem assertSealed_eq_ok {u : Unit} (passed : grant.assertSealed primitives = .ok u) :
    Sealed primitives grant := by
  simp only [assertSealed, bind_unit_iff, refuse_iff, bind_text_iff, bind_requireDigest_iff,
    ne_eq] at passed
  obtain ⟨-, -, -, sound, passed⟩ := passed
  obtain ⟨_, allowed, passed⟩ := bind_eq_ok passed
  obtain ⟨rfl, canonical, texts⟩ := canonicalActions_eq_ok allowed
  simp only [bind_unit_iff, refuse_iff, bind_epochOf_iff, not_not, not_le] at passed
  obtain ⟨nonnegative, -, lifetime, digest⟩ := passed
  exact {
    subject := sound
    actions := canonical
    texts := texts
    start := nonnegative
    lifetime := lifetime
    digest := digest }

theorem assertSealed_of {provider consumer : String} (plain : grant.authority = false)
    (provided : text grant.providerId "provider_id" = .ok provider)
    (consumed : text grant.consumerId "consumer_id" = .ok consumer)
    (subject : IsDigest (lowered grant.subjectScopeDigest))
    (canonical : CanonicalNames grant.allowedActions)
    (texts : ∀ action ∈ grant.allowedActions, text action "adapter action" = .ok action)
    (start : 0 ≤ grant.validFromEpoch) (lifetime : grant.validFromEpoch < grant.expiresBeforeEpoch)
    (digest : grant.grantDigest = primitives.sha256 grant.sealedText) :
    grant.assertSealed primitives = .ok () := by
  have authority : ¬ grant.authority = true := eq_false_iff.mp plain
  obtain ⟨rfl, -⟩ := text_eq_ok provided
  obtain ⟨rfl, -⟩ := text_eq_ok consumed
  unfold assertSealed
  rw [bind_of_ok (refuse_of_not authority), bind_of_ok provided, bind_of_ok consumed,
    bind_of_ok (requireDigest_of_isDigest subject),
    bind_of_ok (canonicalActions_of_canonical canonical texts),
    bind_of_ok (epochOf_of_nonneg start), bind_of_ok (epochOf_of_nonneg (le_trans start lifetime.le)),
    bind_of_ok (refuse_of_not (not_le.mpr lifetime))]
  exact refuse_of_not (not_not.mpr digest)

end ExternalAdapterGrant

namespace ExternalAdapterEvidence

variable {primitives : Primitives} {grant : ExternalAdapterGrant}
  {evidence : ExternalAdapterEvidence}

/-- What an evidence that passes `assert_sealed` is known to be. -/
structure Sealed (primitives : Primitives) (grant : ExternalAdapterGrant)
    (evidence : ExternalAdapterEvidence) : Prop where
  granted : evidence.grantDigest = grant.grantDigest
  provider : stripped evidence.providerId = grant.providerId
  digest : evidence.evidenceDigest = primitives.sha256 evidence.sealedText

theorem assertSealed_eq_ok {u : Unit}
    (passed : evidence.assertSealed primitives grant = .ok u) : Sealed primitives grant evidence := by
  simp only [assertSealed, bind_unit_iff, refuse_iff, bind_text_iff, bind_requireDigest_iff,
    bind_epochOf_iff, ne_eq, not_not] at passed
  obtain ⟨-, -, belongs, -, matching, -, -, -, passed⟩ := passed
  obtain ⟨_, -, passed⟩ := bind_eq_ok passed
  exact {
    granted := belongs
    provider := matching
    digest := not_not.mp (refuse_eq_ok (bind_unit_iff.mp passed).2) }

theorem assertSealed_of {action : String} (granted : grant.assertSealed primitives = .ok ())
    (plain : evidence.authority = false) (belongs : evidence.grantDigest = grant.grantDigest)
    (provided : text evidence.providerId "provider_id" = .ok grant.providerId)
    (external : IsDigest (lowered evidence.externalEvidenceDigest))
    (clock : 0 ≤ evidence.observedEpoch) (acted : text evidence.action "action" = .ok action)
    (permitted : grant.permits primitives action evidence.observedEpoch = .ok true)
    (digest : evidence.evidenceDigest = primitives.sha256 evidence.sealedText) :
    evidence.assertSealed primitives grant = .ok () := by
  have authority : ¬ evidence.authority = true := eq_false_iff.mp plain
  have allowed : ¬ true = false := nofun
  obtain ⟨provider, -⟩ := text_eq_ok provided
  obtain ⟨rfl, -⟩ := text_eq_ok acted
  unfold assertSealed
  rw [bind_of_ok granted, bind_of_ok (refuse_of_not authority),
    bind_of_ok (refuse_of_not (not_not.mpr belongs)), bind_of_ok provided,
    bind_of_ok (refuse_of_not (not_not.mpr rfl)), bind_of_ok (requireDigest_of_isDigest external),
    bind_of_ok (epochOf_of_nonneg clock), bind_of_ok acted, bind_of_ok permitted,
    bind_of_ok (refuse_of_not allowed), provider]
  exact refuse_of_not (not_not.mpr digest)

end ExternalAdapterEvidence

namespace ExternalAdapterGrant

variable {primitives : Primitives} {grant first second : ExternalAdapterGrant}

/-! ## What a grant digest binds -/

/-- The two grants permit the same provider and consumer the same on the same scope. -/
structure SamePermission (primitives : Primitives) (first second : ExternalAdapterGrant) : Prop where
  provider : first.providerId = second.providerId
  consumer : first.consumerId = second.consumerId
  subject : first.subjectScopeDigest = second.subjectScopeDigest
  permits : ∀ action epoch,
    first.permits primitives action epoch = second.permits primitives action epoch

/-- The two grants are spelled alike: white space and capitals are in the same places, and
corresponding texts contain equally many newlines, corresponding actions equally many commas. -/
structure SpelledAlike (first second : ExternalAdapterGrant) : Prop where
  provider : margins first.providerId = margins second.providerId
  consumer : margins first.consumerId = margins second.consumerId
  subject : capitals first.subjectScopeDigest = capitals second.subjectScopeDigest
  providerLines : newlines (stripped first.providerId) = newlines (stripped second.providerId)
  consumerLines : newlines (stripped first.consumerId) = newlines (stripped second.consumerId)
  actionCommas : first.allowedActions.map (fun action => action.toList.count ',') =
    second.allowedActions.map fun action => action.toList.count ','

theorem Sealed.permits_of_mem (one : Sealed primitives grant)
    (passed : grant.assertSealed primitives = .ok ()) {action : String}
    (member : action ∈ grant.allowedActions) :
    grant.permits primitives action grant.validFromEpoch = .ok true := by
  unfold permits
  rw [bind_of_ok passed, bind_of_ok (one.texts action member),
    bind_of_ok (epochOf_of_nonneg one.start), decide_eq_true ⟨le_refl _, one.lifetime⟩,
    decide_eq_true member]
  rfl

theorem mem_of_permits {action : String} {epoch : Int} (member : text action "action" = .ok action)
    (permitted : grant.permits primitives action epoch = .ok true) :
    action ∈ grant.allowedActions := by
  unfold permits at permitted
  obtain ⟨_, -, permitted⟩ := bind_eq_ok permitted
  rw [bind_of_ok member] at permitted
  obtain ⟨_, -, permitted⟩ := bind_eq_ok permitted
  have both := ok.inj permitted
  rw [and_eq_true] at both
  exact of_decide_eq_true both.2

theorem length_rows (grant : ExternalAdapterGrant) : grant.rows.length = 7 := rfl

/-- The rows of a grant contain the newlines of its provider, of its consumer and of its
actions. -/
theorem Sealed.newlines_rows (one : Sealed primitives grant) :
    grant.rows.map newlines = [newlines (stripped grant.providerId),
      newlines (stripped grant.consumerId), 0, newlines (",".intercalate grant.allowedActions), 0, 0,
      0] := by
  have subject := newlines_of_hexadecimal one.subject.hexadecimal
  have start := newlines_toString one.start
  have expiry := newlines_toString (le_trans one.start one.lifetime.le)
  unfold rows rowsOf
  simp only [map_cons, map_nil, newlines_append, subject, start, expiry]
  have names : newlines "provider=" = 0 ∧ newlines "consumer=" = 0 ∧ newlines "subject=" = 0 ∧
      newlines "actions=" = 0 ∧ newlines "from=" = 0 ∧ newlines "before=" = 0 ∧
      newlines "authority=0" = 0 := by decide
  obtain ⟨provider, consumer, scope, actions, begins, ends, authority⟩ := names
  rw [provider, consumer, scope, actions, begins, ends, authority]
  simp only [Nat.zero_add, Nat.add_zero]

/-- Grants that are written as one text have the same fields when they are spelled alike. -/
theorem Sealed.fields_eq (one : Sealed primitives first) (other : Sealed primitives second)
    (same : first.sealedText = second.sealedText) (alike : SpelledAlike first second) :
    first.providerId = second.providerId ∧ first.consumerId = second.consumerId ∧
      first.subjectScopeDigest = second.subjectScopeDigest ∧
      first.allowedActions = second.allowedActions ∧
      first.validFromEpoch = second.validFromEpoch ∧
      first.expiresBeforeEpoch = second.expiresBeforeEpoch := by
  have written : lines first.rows = lines second.rows := append_cancel same
  have counts : first.rows.map newlines = second.rows.map newlines := by
    have total := sum_newlines_of_lines written (first.length_rows.trans second.length_rows.symm)
    rw [one.newlines_rows, other.newlines_rows, alike.providerLines, alike.consumerLines] at total ⊢
    simp only [sum_cons, List.sum_nil] at total
    have actions : newlines (",".intercalate first.allowedActions) =
        newlines (",".intercalate second.allowedActions) := by omega
    rw [actions]
  have rowsSame := rows_eq_of_lines written counts
  unfold rows rowsOf at rowsSame
  simp only [cons.injEq, and_true] at rowsSame
  obtain ⟨provider, consumer, subject, actions, start, expiry⟩ := rowsSame
  have expiryPositive := fun {grant : ExternalAdapterGrant} (given : Sealed primitives grant) =>
    le_trans given.start given.lifetime.le
  exact ⟨eq_of_stripped (append_cancel provider) alike.provider,
    eq_of_stripped (append_cancel consumer) alike.consumer,
    eq_of_lowered (append_cancel subject) alike.subject,
    rows_eq_of_intercalate rfl (append_cancel actions) alike.actionCommas,
    toString_injective one.start other.start (append_cancel start),
    toString_injective (expiryPositive one) (expiryPositive other) (append_cancel expiry)⟩

theorem Sealed.actions_eq (one : Sealed primitives first) (other : Sealed primitives second)
    (firstPassed : first.assertSealed primitives = .ok ())
    (secondPassed : second.assertSealed primitives = .ok ())
    (same : SamePermission primitives first second) :
    first.allowedActions = second.allowedActions := by
  apply one.actions.eq_of_subset other.actions
  · intro action member
    have permitted := one.permits_of_mem firstPassed member
    rw [same.permits] at permitted
    exact mem_of_permits (one.texts action member) permitted
  · intro action member
    have permitted := other.permits_of_mem secondPassed member
    rw [← same.permits] at permitted
    exact mem_of_permits (other.texts action member) permitted

/-- The digest of a grant binds what it permits, unless the two grants are written as one text and
not spelled alike. -/
theorem binds_iff (firstPassed : first.assertSealed primitives = .ok ())
    (secondPassed : second.assertSealed primitives = .ok ())
    (free : CollisionFree primitives.sha256 [first.sealedText, second.sealedText]) :
    (first.grantDigest = second.grantDigest → SamePermission primitives first second) ↔
      (first.sealedText = second.sealedText → SpelledAlike first second) := by
  have one := assertSealed_eq_ok firstPassed
  have other := assertSealed_eq_ok secondPassed
  constructor
  · intro binds same
    have permission := binds (by rw [one.digest, other.digest, same])
    have actions := one.actions_eq other firstPassed secondPassed permission
    exact {
      provider := by rw [permission.provider]
      consumer := by rw [permission.consumer]
      subject := by rw [permission.subject]
      providerLines := by rw [permission.provider]
      consumerLines := by rw [permission.consumer]
      actionCommas := by rw [actions] }
  · intro alike digests
    rw [one.digest, other.digest] at digests
    have same : first.sealedText = second.sealedText := free.pair digests
    obtain ⟨provider, consumer, subject, actions, start, expiry⟩ :=
      one.fields_eq other same (alike same)
    have permits : ∀ action epoch,
        first.permits primitives action epoch = second.permits primitives action epoch := by
      intro action epoch
      unfold permits
      rw [firstPassed, secondPassed, actions, start, expiry]
    exact ⟨provider, consumer, subject, permits⟩

end ExternalAdapterGrant

end Koschei.Authorization
