import Koschei.Kernel.Programs
import Koschei.Kernel.Lines

/-!
# Conduits

`native_relationship_v1.py` and `native_mixed_reuse_v1.py`: a line
`witness <name> conduit <slot>` leaves the value of a witness open. A source with
conduits is materialized with a value for every slot: its conduit lines are replaced
by lines that give the witness the number 0, the result is read by the ordinary
frontend, and the values are then put into the graph. The kernel is also checked
before the values are there; the value graph is only read.
-/

namespace Koschei.Kernel

open Lib

/-- `MAX_RELATION_SLOT_V1`. -/
def maxRelationSlot : Nat := 65535

/-- `MAX_REALIZATION_INPUTS_V1`. -/
def maxRealizationInputs : Nat := 64

/-- The identity and the slot of a line `witness <name> conduit <slot>`. -/
def conduitOf (tokens : List String) : Option (String × String) := match tokens with
  | [head, identity, word, slot] =>
    if head = "witness" ∧ word = "conduit" then some (identity, slot) else none
  | _ => none

/-- What a frontend says about slots. -/
structure SlotTexts where
  fault : String → Fault
  notDecimal : String
  tooLong : String
  tooLarge : String
  duplicate : String

/-- A conduit: its slot, its witness and its line. -/
abbrev Conduit : Type := Nat × String × Nat

/-- One line of `_conduit_slots` and `_conduit_contract`; what they admit differs. -/
def readSlot (texts : SlotTexts) (require : List String → Nat → Checked Unit) (found : List Conduit)
    (number : Nat) (line : String) : Checked (List Conduit) := do
  require (split ' ' line) number
  match conduitOf (split ' ' line) with
  | none => .ok found
  | some (identity, raw) => do
    raiseIf (isNumber raw = false ∨ 1 < raw.length ∧ ['0'] <+: raw.toList)
      (texts.fault texts.notDecimal)
    raiseIf (5 < raw.length) (texts.fault texts.tooLong)
    raiseIf (maxRelationSlot < decimal raw) (texts.fault texts.tooLarge)
    raiseIf (decimal raw ∈ found.map fst) (texts.fault texts.duplicate)
    .ok (found ++ [(decimal raw, identity, number)])

def readSlots (texts : SlotTexts) (require : List String → Nat → Checked Unit) :
    List Conduit → Nat → List String → Checked (List Conduit)
  | found, _, [] => .ok found
  | found, number, line :: lines => do
    let found ← readSlot texts require found number line
    readSlots texts require found (number + 1) lines

/-- A line without its conduit: the witness gets the number 0. -/
def replaceLine (misplaced : Fault) (line : String) : Checked String :=
  match conduitOf (split ' ' line) with
  | some (identity, _) => .ok ("witness " ++ identity ++ " 0")
  | none => do
    raiseIf ("conduit" ∈ split ' ' line) misplaced
    .ok line

/-- `{witness_by_slot[slot]: value for slot, value in values_by_slot.items()}`. -/
def replacementByName {V : Type} (conduits : List Conduit) (values : List (Nat × V)) :
    Checked (List (String × V)) :=
  values.mapM fun (slot, value) =>
    match conduits.lookup slot with
    | some (name, _) => .ok (name, value)
    | none => .error .key

def replaceTerm {V : Type} (replacement : List (String × V)) (witness : Witness V) : Witness V :=
  match replacement.reverse.lookup witness.name with
  | some value => { witness with term := ⟨none, [.literal value]⟩ }
  | none => witness

/-- A graph with the values that replace terms. -/
def Graph.replaced {V : Type} (graph : Graph V) (replacement : List (String × V)) : Graph V :=
  ⟨graph.witnesses.map (replaceTerm replacement), graph.resolve, graph.resolveLine⟩

/-- The slots of two lists are the same set. -/
def SameSlots (first second : List Nat) : Prop := first ⊆ second ∧ second ⊆ first

instance (first second : List Nat) : Decidable (SameSlots first second) :=
  inferInstanceAs (Decidable (first ⊆ second ∧ second ⊆ first))

/-! ## Roots -/

/-- `_fail` of `native_relationship_v1.py`. -/
def relationshipFault (message : String) : Fault := .relationship message

def relationshipSlots : SlotTexts where
  fault := relationshipFault
  notDecimal := "conduit slot must use canonical unsigned decimal spelling"
  tooLong := "conduit slot exceeds v1 range"
  tooLarge := "conduit slot exceeds v1 range"
  duplicate := "duplicate conduit slot in root source"

/-- What `_conduit_slots` checks before it reads a slot. -/
def admitRoot (host : Host) (tokens : List String) (number : Nat) : Checked Unit := do
  raiseIf (["witness", "conduit"] <+: tokens)
    (relationshipFault "'conduit' is relationship vocabulary and cannot be a witness identity")
  match conduitOf tokens with
  | some (identity, _) => do
    let _ ← kernelName host identity number
    .ok ()
  | none => .ok ()

/-- `_conduit_slots`. -/
def conduitSlots (host : Host) (source : String) : Checked (List Conduit) := do
  let lines ← canonicalSource source
  readSlots relationshipSlots (admitRoot host) [] 1 lines

/-- `_materialize_root`. -/
def materializeRoot (host : Host) (source : String) (values : List (Nat × Int)) :
    Checked NativeKernelCheck := do
  let lines ← canonicalSource source
  let conduits ← conduitSlots host source
  raiseIf (¬ SameSlots (conduits.map fst) (values.map fst))
    (relationshipFault "root conduit slots do not exactly match sealed relationship slots")
  let replaced ← lines.mapM (replaceLine
    (relationshipFault "'conduit' is valid only as: witness <name> conduit <slot>"))
  let placeholder ← checkNativeKernel host (textOf replaced)
  let replacement ← replacementByName conduits values
  checkKernel host (placeholder.kernel.replaced replacement)

/-! ## Reusable objects -/

/-- `_fail` of `native_mixed_reuse_v1.py`. -/
def mixedReuseFault (message : String) : Fault := .mixedReuse (.inl message)

/-- `raise NativeMixedReuseError(str(error)) from error`. -/
def mixedReuseError {α : Type} (check : Checked α) : Checked α := match check with
  | .ok value => .ok value
  | .error fault => .error (.mixedReuse (.inr fault))

def mixedReuseSlots : SlotTexts where
  fault := mixedReuseFault
  notDecimal := "mixed reusable conduit slot is not canonical unsigned decimal"
  tooLong := "mixed reusable conduit slot exceeds v1 range"
  tooLarge := "mixed reusable conduit slot is duplicate or outside v1 range"
  duplicate := "mixed reusable conduit slot is duplicate or outside v1 range"

/-- What `_conduit_contract` checks before it reads a slot. -/
def admitReusable (tokens : List String) (_ : Nat) : Checked Unit :=
  raiseIf ("conduit" ∈ tokens ∧ conduitOf tokens = none)
    (mixedReuseFault "'conduit' is valid only as: witness <name> conduit <slot>")

/-- `_conduit_contract`. -/
def conduitContract (host : Host) (source : String) : Checked (List Conduit) := do
  let lines ← canonicalLines host source
  let read ← readSlots mixedReuseSlots admitReusable [] 1 lines
  let found := sortByKey fst read
  raiseIf (found = []) (mixedReuseFault "mixed reusable reality must expose at least one conduit input")
  raiseIf (maxRealizationInputs < found.length)
    (mixedReuseFault "mixed reusable reality exposes too many conduit inputs")
  raiseIf (found.map fst ≠ range found.length)
    (mixedReuseFault "mixed reusable conduit inputs must be contiguous from slot 0")
  .ok found

/-- `_materialize_typed`. -/
def materializeTyped (host : Host) (source : String) (values : List (Nat × NativeValue)) :
    Checked NativeValueDomainCheck := do
  let lines ← canonicalLines host source
  let conduits ← conduitContract host source
  raiseIf (¬ SameSlots (conduits.map fst) (values.map fst))
    (mixedReuseFault "typed conduit slots do not exactly match sealed bindings")
  let replaced ← lines.mapM (replaceLine
    (mixedReuseFault "'conduit' is valid only as a witness input aperture"))
  let graph ← mixedReuseError (parseNativeValueGraph host (textOf replaced))
  let replacement ← replacementByName conduits values
  mixedReuseError (checkValueGraph host (graph.replaced replacement))

end Koschei.Kernel
