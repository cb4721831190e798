import Koschei.Authorization.Texts

/-!
# Canonical effect requests

`native_sigil_request_binding_v1.py` seals a request for a privileged effect to
a native MIR. The seal is a hash of the fields of the request, written one to a
line. Fields may contain newlines, so two requests can be written as one text.

The digests of two requests that are sealed against one MIR bind their fields
exactly as far as that does not happen: when the two requests are written as one
text, corresponding fields contain equally many newlines.
-/

namespace Koschei.Authorization

open Lib

/-! ## Native MIR -/

/-- `MirSigilBinding`, without the source position. -/
structure MirSigilBinding where
  sigil : String
  subject : String
  semanticDomain : String
  mayGrantAuthority : Bool
  obligations : List String
  deriving DecidableEq

/-- `NativeSigilMir`. -/
structure NativeSigilMir where
  bindings : List MirSigilBinding
  universePlanDigest : String
  fingerprint : String
  deriving DecidableEq

/-- The row of a binding in `_fingerprint`. -/
def MirSigilBinding.row (binding : MirSigilBinding) : String := "|".intercalate [
    "sigil=" ++ binding.sigil,
    "subject=" ++ binding.subject,
    "domain=" ++ binding.semanticDomain,
    "authority=" ++ (if binding.mayGrantAuthority then "1" else "0"),
    "obligations=" ++ ",".intercalate binding.obligations]

/-- `_fingerprint`. -/
def fingerprintOf (primitives : Primitives) (bindings : List MirSigilBinding)
    (universeDigest : String) : String :=
  primitives.sha256 ("koschei.native-sigil-mir/v1\x00" ++
    lines (("universe=" ++ universeDigest) :: bindings.map MirSigilBinding.row))

/-- `NativeSigilMir.assert_sealed`. -/
def NativeSigilMir.assertSealed (primitives : Primitives) (mir : NativeSigilMir) : Checked Unit := do
  refuse (mir.bindings = []) "native sigil MIR requires at least one binding"
  refuse (mir.fingerprint ≠ fingerprintOf primitives mir.bindings mir.universePlanDigest)
    "native sigil MIR fingerprint mismatch"

/-- The subjects of the `vor` bindings. -/
def NativeSigilMir.vorSubjects (mir : NativeSigilMir) : List String :=
  (mir.bindings.filter fun binding => binding.sigil == "vor").map MirSigilBinding.subject

/-! ## Requests -/

/-- `CanonicalEffectRequest`. -/
structure CanonicalEffectRequest where
  effectId : String
  subject : String
  operation : String
  requestDigest : String
  identityDigest : String
  epoch : Int
  nonceDigest : String
  nativeMirFingerprint : String
  universePlanDigest : String
  digest : String
  activationPlanDigest : String
  deriving DecidableEq

namespace CanonicalEffectRequest

/-- The values `_request_digest` is given. -/
def rows (request : CanonicalEffectRequest) : List String :=
  [request.effectId, request.subject, request.operation, request.requestDigest,
    request.identityDigest, toString request.epoch, request.nonceDigest,
    request.nativeMirFingerprint, request.universePlanDigest, request.activationPlanDigest]

/-- The text that is hashed. -/
def sealedText (request : CanonicalEffectRequest) : String :=
  "koschei.native-sigil-request-binding/v1\x00request\x00" ++ lines request.rows

/-- `_request_digest`. -/
def sealOf (primitives : Primitives) (request : CanonicalEffectRequest) : Checked String := do
  refuse ("" ∈ request.rows) "canonical effect request fields cannot be empty"
  .ok (primitives.sha256 request.sealedText)

/-- `CanonicalEffectRequest.assert_sealed`. -/
def assertSealed (primitives : Primitives) (mir : NativeSigilMir)
    (request : CanonicalEffectRequest) : Checked Unit := do
  mir.assertSealed primitives
  refuse (request.nativeMirFingerprint ≠ mir.fingerprint) "request MIR fingerprint mismatch"
  refuse (request.universePlanDigest ≠ mir.universePlanDigest) "request Universe identity mismatch"
  let expectedActivation ← primitives.activationPlan (mir.bindings.map MirSigilBinding.sigil)
  refuse (request.activationPlanDigest ≠ expectedActivation)
    "request activation-plan identity mismatch"
  refuse (request.epoch < 0) "request epoch cannot be negative"
  refuse (request.subject ∉ mir.vorSubjects)
    "privileged request subject is not declared by a vor binding"
  let expected ← request.sealOf primitives
  refuse (request.digest ≠ expected) "canonical effect request seal mismatch"

end CanonicalEffectRequest

namespace CanonicalEffectRequest

variable {primitives : Primitives} {mir : NativeSigilMir} {request first second :
  CanonicalEffectRequest}

/-- What a request that passes `assert_sealed` is known to be. -/
structure Sealed (primitives : Primitives) (mir : NativeSigilMir)
    (request : CanonicalEffectRequest) : Prop where
  fingerprint : request.nativeMirFingerprint = mir.fingerprint
  identity : request.universePlanDigest = mir.universePlanDigest
  activation : primitives.activationPlan (mir.bindings.map MirSigilBinding.sigil) =
    .ok request.activationPlanDigest
  clock : 0 ≤ request.epoch
  declared : request.subject ∈ mir.vorSubjects
  digest : request.digest = primitives.sha256 request.sealedText

theorem assertSealed_eq_ok {u : Unit}
    (passed : request.assertSealed primitives mir = .ok u) : Sealed primitives mir request := by
  simp only [assertSealed, sealOf, bind_eq_ok_iff, refuse_iff, exists_and_left, exists_const, ne_eq,
    not_not, not_lt] at passed
  obtain ⟨_, -, fingerprint, identity, _, activation, planned, clock, declared, _, ⟨_, -, ⟨⟩⟩,
    digest⟩ := passed
  exact {
    fingerprint := fingerprint
    identity := identity
    activation := planned ▸ activation
    clock := clock
    declared := declared
    digest := digest }

/-! ## What a digest binds -/

/-- The fields a request is bound by. -/
structure SameFields (first second : CanonicalEffectRequest) : Prop where
  effectId : first.effectId = second.effectId
  subject : first.subject = second.subject
  operation : first.operation = second.operation
  requestDigest : first.requestDigest = second.requestDigest
  identityDigest : first.identityDigest = second.identityDigest
  epoch : first.epoch = second.epoch
  nonceDigest : first.nonceDigest = second.nonceDigest

/-- Corresponding fields contain equally many newlines. -/
def NewlinesAlike (first second : CanonicalEffectRequest) : Prop :=
  first.rows.map newlines = second.rows.map newlines

theorem Sealed.rows_eq (one : Sealed primitives mir first) (other : Sealed primitives mir second)
    (same : SameFields first second) : first.rows = second.rows := by
  have activation : first.activationPlanDigest = second.activationPlanDigest :=
    ok.inj (one.activation.symm.trans other.activation)
  unfold rows
  rw [same.effectId, same.subject, same.operation, same.requestDigest, same.identityDigest,
    same.epoch, same.nonceDigest, one.fingerprint, other.fingerprint, one.identity, other.identity,
    activation]

theorem Sealed.sameFields (one : Sealed primitives mir first) (other : Sealed primitives mir second)
    (same : first.rows = second.rows) : SameFields first second := by
  unfold rows at same
  rw [cons.injEq, cons.injEq, cons.injEq, cons.injEq, cons.injEq, cons.injEq, cons.injEq] at same
  obtain ⟨effectId, subject, operation, requestDigest, identityDigest, epoch, nonceDigest, -⟩ := same
  exact ⟨effectId, subject, operation, requestDigest, identityDigest,
    toString_injective one.clock other.clock epoch, nonceDigest⟩

/-- The digest of a request binds its fields unless another request is written as the same text,
with newlines in other fields. -/
theorem digest_binds_iff (primitives : Primitives) (mir : NativeSigilMir)
    (first second : CanonicalEffectRequest)
    (firstSealed : first.assertSealed primitives mir = .ok ())
    (secondSealed : second.assertSealed primitives mir = .ok ())
    (free : CollisionFree primitives.sha256 [first.sealedText, second.sealedText]) :
    (first.digest = second.digest → SameFields first second) ↔
      (first.sealedText = second.sealedText → NewlinesAlike first second) := by
  have one := assertSealed_eq_ok firstSealed
  have other := assertSealed_eq_ok secondSealed
  constructor
  · intro binds same
    have digests : first.digest = second.digest := by rw [one.digest, other.digest, same]
    unfold NewlinesAlike
    rw [one.rows_eq other (binds digests)]
  · intro alike digests
    rw [one.digest, other.digest] at digests
    have same : first.sealedText = second.sealedText := free.pair digests
    exact one.sameFields other (rows_eq_of_lines (append_cancel same) (alike same))

end CanonicalEffectRequest

/-! ## Two requests written as one text -/

/-- Primitives under which every text is its own digest. -/
def plainPrimitives : Primitives := ⟨id, fun _ => id, fun _ => .ok "plan"⟩

def vaultBindings : List MirSigilBinding := [⟨"vor", "vault", "authority", true, ["bind"]⟩]

/-- A MIR that declares one subject. -/
def vaultMir : NativeSigilMir where
  bindings := vaultBindings
  universePlanDigest := "universe"
  fingerprint := fingerprintOf plainPrimitives vaultBindings "universe"

def vaultRequest (operation requestDigest : String) : CanonicalEffectRequest :=
  let unsealed : CanonicalEffectRequest := {
    effectId := "effect"
    subject := "vault"
    operation := operation
    requestDigest := requestDigest
    identityDigest := "identity"
    epoch := 1
    nonceDigest := "nonce"
    nativeMirFingerprint := vaultMir.fingerprint
    universePlanDigest := "universe"
    digest := ""
    activationPlanDigest := "plan" }
  { unsealed with digest := plainPrimitives.sha256 unsealed.sealedText }

/-- Reading and reading everything are sealed by one digest. -/
theorem digest_of_two_operations :
    (vaultRequest "read\nall" "x").assertSealed plainPrimitives vaultMir = .ok () ∧
      (vaultRequest "read" "all\nx").assertSealed plainPrimitives vaultMir = .ok () ∧
      (vaultRequest "read\nall" "x").digest = (vaultRequest "read" "all\nx").digest ∧
      (vaultRequest "read\nall" "x").operation ≠ (vaultRequest "read" "all\nx").operation := by
  decide +kernel

theorem digest_binds_iff_vault :
    ((vaultRequest "read" "x").digest = (vaultRequest "write" "x").digest →
        CanonicalEffectRequest.SameFields (vaultRequest "read" "x") (vaultRequest "write" "x")) ↔
      ((vaultRequest "read" "x").sealedText = (vaultRequest "write" "x").sealedText →
        CanonicalEffectRequest.NewlinesAlike (vaultRequest "read" "x") (vaultRequest "write" "x")) :=
  CanonicalEffectRequest.digest_binds_iff plainPrimitives vaultMir _ _ (by decide +kernel)
    (by decide +kernel) (.of_injective (fun _ _ same => same) _)

end Koschei.Authorization
