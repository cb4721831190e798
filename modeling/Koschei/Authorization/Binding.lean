import Koschei.Authorization.Permits
import Koschei.Authorization.Delegation

/-!
# Binding an authorization to a request

`assert_effect_authorization_binding_v1` of `fresh_effect_authorization_v1.py`:
an effect is executed for one canonical request by one principal, under an
intent for exactly that request and under effective constraints that allow
nothing else. It looks into no ledger.
-/

namespace Koschei.Authorization

open Lib

/-- `canonical_subject_scope_digest_v1`. -/
def canonicalSubjectScopeDigest (primitives : Primitives) (request : CanonicalEffectRequest) :
    Checked String := do
  refuse (request.subject = "" ∨ request.identityDigest = "")
    "canonical request subject identity is incomplete"
  .ok (primitives.sha256 ("koschei.canonical-subject-scope/v1\x00" ++
    lines ["subject=" ++ request.subject, "identity=" ++ request.identityDigest]))

/-- `canonical_execution_principal_v1`. -/
def canonicalExecutionPrincipal (request : CanonicalEffectRequest) : Checked String := do
  refuse (request.identityDigest.length ≠ 64) "canonical request identity digest is invalid"
  refuse (request.identityDigest ≠ lowered request.identityDigest ∨
      request.identityDigest.toList.any (fun c => !isHex c) ∨ request.identityDigest = zeroDigest)
    "canonical request identity digest is invalid"
  .ok ("koschei:canonical-identity:v1:" ++ request.identityDigest)

/-- One row of the comparison in `_assert_exact_effect_constraints`. -/
def assertExactScope (actual wanted : List String) (label : String) : Checked Unit :=
  refuse (actual ≠ wanted)
    ("effective authorization " ++ label ++ " scope is not exact for canonical request")

/-- `_assert_exact_effect_constraints`. -/
def assertExactEffectConstraints (constraints : ConstraintSet) (request : CanonicalEffectRequest)
    (grant : ExternalAdapterGrant) : Checked Unit := do
  assertExactScope constraints.fields.resources [request.subject] "resource"
  assertExactScope constraints.fields.operations [request.operation] "operation"
  assertExactScope constraints.fields.arguments [request.requestDigest] "argument"
  assertExactScope constraints.fields.audience [grant.consumerId] "audience"
  refuse (constraints.fields.delegationDepth ≠ 0 ∨ constraints.fields.redelegation = true)
    "effect execution authority must terminate delegation at the executing principal"

/-- `assert_effect_authorization_binding_v1`. -/
def assertEffectAuthorizationBinding {library : Library} (primitives : Primitives)
    (state : AuthorizationState library) (intent : IntentCommitment) (grant : ExternalAdapterGrant)
    (mir : NativeSigilMir) (request : CanonicalEffectRequest) (currentEpoch : Int) :
    Checked Unit := do
  mir.assertSealed primitives
  request.assertSealed primitives mir
  refuse (currentEpoch < 0) "current_epoch must be a non-negative integer"
  refuse (currentEpoch ≠ request.epoch) "execution epoch differs from canonical request"
  let principal ← canonicalExecutionPrincipal request
  refuse (intent.principal ≠ principal) "intent principal differs from canonical request identity"
  refuse (intent.intentDigest ≠ request.digest) "intent is not bound to the exact canonical request"
  refuse (intent.createdEpoch > currentEpoch) "intent was created after the execution epoch"
  refuse (state.fields.subject ≠ principal)
    "authorization subject differs from canonical request identity"
  refuse (state.fields.intentCommitmentDigest ≠ intent.digest library)
    "authorization state is bound to a different intent"
  let scope ← canonicalSubjectScopeDigest primitives request
  refuse (grant.subjectScopeDigest ≠ scope) "adapter grant scope differs from canonical request"
  assertExactEffectConstraints state.fields.effectiveConstraints request grant

end Koschei.Authorization
