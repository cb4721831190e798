import Koschei.Authorization.Requests

/-!
# Universe states and their receipts

The receipts the execution coordinator acts on: of a nuclear containment
(`universe_nuclear_containment_v1.py`) and of a rebirth (`universe_rebirth_v1.py`).
A caller brings them with the states before and after; the digests have no key.
-/

namespace Koschei.Execution

open Lib Authorization

/-- `SigilState`. -/
inductive SigilState where
  | inactive | prepared | sealed | active | contained
  deriving DecidableEq

/-- `SigilLifecycle`. -/
structure SigilLifecycle where
  sigil : String
  state : SigilState
  epoch : Int
  evidenceDigest : String
  deriving DecidableEq

/-- `UniverseState`. -/
structure UniverseState where
  activationPlanDigest : String
  sigils : List SigilLifecycle
  digest : String
  deriving DecidableEq

/-! ## Nuclear containment -/

/-- `NuclearContainmentReceipt`. -/
structure NuclearContainmentReceipt where
  previousStateDigest : String
  containedStateDigest : String
  epoch : Int
  causeEvidenceDigest : String
  completedActions : List String
  externalEffectsAttempted : Bool
  digest : String
  deriving DecidableEq

/-- `_REQUIRED_ACTIONS`. -/
def requiredActions : List String :=
  ["freeze-privileged-effects", "revoke-active-authority", "tombstone-current-epoch",
    "isolate-execution-boundaries", "preserve-forensic-evidence", "rotate-visible-compartments",
    "zeroize-ephemeral-secret-handles", "require-manual-or-independent-rebirth-proof"]

namespace NuclearContainmentReceipt

variable (primitives : Primitives)

/-- `_receipt_digest`. -/
def sealOf (receipt : NuclearContainmentReceipt) : String :=
  primitives.sha256 ("koschei.universe-nuclear-containment/v1\x00" ++ lines [
    "previous=" ++ receipt.previousStateDigest, "contained=" ++ receipt.containedStateDigest,
    "epoch=" ++ toString receipt.epoch, "cause=" ++ receipt.causeEvidenceDigest,
    "actions=" ++ ",".intercalate receipt.completedActions,
    "external-effects=" ++ if receipt.externalEffectsAttempted then "1" else "0"])

/-- `NuclearContainmentReceipt.assert_sealed`. -/
def assertSealed (receipt : NuclearContainmentReceipt) : Checked Unit := do
  refuse (receipt.epoch < 1) "nuclear containment epoch must be positive"
  refuse (receipt.causeEvidenceDigest = "") "nuclear containment requires cause evidence"
  refuse receipt.externalEffectsAttempted
    "nuclear containment must never perform retaliatory/external effects"
  refuse (receipt.completedActions ≠ requiredActions) "nuclear containment action set incomplete"
  refuse (receipt.sealOf primitives ≠ receipt.digest) "nuclear containment receipt seal mismatch"

end NuclearContainmentReceipt

/-- `require_nuclear_containment`. -/
def requireNuclearContainment (primitives : Primitives) (previous contained : UniverseState)
    (receipt : NuclearContainmentReceipt) : Checked Unit := do
  receipt.assertSealed primitives
  refuse (receipt.previousStateDigest ≠ previous.digest) "nuclear receipt previous-state mismatch"
  refuse (receipt.containedStateDigest ≠ contained.digest) "nuclear receipt contained-state mismatch"
  refuse (contained.sigils.any fun row => row.state != .contained)
    "nuclear containment did not contain every sigil"
  refuse (contained.sigils.any fun row => row.epoch != receipt.epoch)
    "nuclear containment epoch mismatch"

/-! ## Rebirth -/

/-- `RebirthReceipt`. -/
structure RebirthReceipt where
  previousStateDigest : String
  activationPlanDigest : String
  previousEpoch : Int
  nextEpoch : Int
  causeEvidenceDigest : String
  freshStateDigest : String
  digest : String
  deriving DecidableEq

/-- `_receipt_digest`. -/
def RebirthReceipt.sealOf (primitives : Primitives) (receipt : RebirthReceipt) : String :=
  primitives.sha256 ("koschei.universe-rebirth/v1\x00" ++ lines [
    "previous=" ++ receipt.previousStateDigest, "plan=" ++ receipt.activationPlanDigest,
    "previous_epoch=" ++ toString receipt.previousEpoch,
    "next_epoch=" ++ toString receipt.nextEpoch, "cause=" ++ receipt.causeEvidenceDigest,
    "fresh=" ++ receipt.freshStateDigest])

/-- `require_rebirth_receipt`. -/
def requireRebirthReceipt (primitives : Primitives) (previous fresh : UniverseState)
    (receipt : RebirthReceipt) : Checked Unit := do
  refuse (receipt.previousStateDigest ≠ previous.digest) "rebirth receipt previous-state mismatch"
  refuse (receipt.activationPlanDigest ≠ previous.activationPlanDigest)
    "rebirth receipt plan mismatch"
  refuse (fresh.activationPlanDigest ≠ previous.activationPlanDigest)
    "rebirth changed activation-plan identity"
  refuse (receipt.freshStateDigest ≠ fresh.digest) "rebirth receipt fresh-state mismatch"
  refuse (receipt.nextEpoch ≠ receipt.previousEpoch + 1) "rebirth epoch is not monotonic"
  refuse (receipt.sealOf primitives ≠ receipt.digest) "rebirth receipt digest mismatch"
  refuse (previous.sigils.any fun row => row.state != .contained)
    "previous universe was not fully contained"
  refuse (fresh.sigils.any fun row => row.state != .inactive)
    "fresh universe did not restart inactive"
  refuse (fresh.sigils.any fun row => row.epoch != receipt.nextEpoch) "fresh universe epoch mismatch"

theorem requireRebirthReceipt_eq_ok {primitives : Primitives} {previous fresh : UniverseState}
    {receipt : RebirthReceipt} {u : Unit}
    (passed : requireRebirthReceipt primitives previous fresh receipt = .ok u) :
    receipt.nextEpoch = receipt.previousEpoch + 1 := by
  unfold requireRebirthReceipt at passed
  iterate 4 obtain ⟨_, -, passed⟩ := bind_eq_ok passed
  obtain ⟨_, next, -⟩ := bind_eq_ok passed
  exact not_not.mp (refuse_eq_ok next)

end Koschei.Execution
