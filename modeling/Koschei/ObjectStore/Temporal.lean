import Koschei.Evidence.Histories
import Koschei.Lib.Runs

/-!
# Temporal access handles

A handle is the MAC of a project, an epoch, a time slot and a period. The process
remembers, for each project and period, the highest slot of a call that went
through, and refuses every earlier one. That is what keeps handles from running
backwards, whatever the clock says; but a clock too far in the future is no
longer refused with the module's own error.

The MAC is a parameter. `Unforgeable` is what is assumed of it in a run: whoever
presents a MAC under a key has it from a call that issued it.
-/

namespace Koschei.Temporal

open Lib Evidence
open Recovery (Bytes bigEndian)

/-- `TemporalAccessError` with its text, or the host's `OverflowError`. -/
inductive Fault where
  | access (message : String)
  | overflow
  deriving DecidableEq

/-- What the clock says: an int, a finite float, or a float that is not finite. -/
inductive Clock where
  | int (value : Int)
  | float (value : Rat)
  | notFinite

/-- `TemporalAccessPolicy`. -/
structure Policy where
  periodSeconds : Nat
  range : 10 ≤ periodSeconds ∧ periodSeconds ≤ 300

/-- The arguments of both functions. -/
structure Request where
  temporalKey : Bytes
  projectId : Bytes
  epoch : Int
  now : Clock
  policy : Policy

/-- `_SLOT_HIGHWATER`. -/
abbrev HighWater : Type := Bytes × Nat → Option Nat

/-! ## The functions -/

def checkProject (value : Bytes) : Except Fault Unit :=
  raiseIf (value.length ≠ 16 ∨ value.any (· != 0) = false)
    (.access "project id must be exactly 16 non-zero bytes")

def checkKey (value : Bytes) : Except Fault Unit :=
  raiseIf (value.length ≠ 64 ∨ value.any (· != 0) = false)
    (.access "temporal access key must be exactly 64 non-zero bytes")

def checkEpoch (value : Int) : Except Fault Unit :=
  raiseIf (value < 1 ∨ 2 ^ 64 - 1 < value) (.access "reality epoch must be a positive uint64")

/-- The ints that `float` rounds to infinity, and so refuses, start here. -/
def floatBound : Nat := 2 ^ 1024 - 2 ^ 970

def checkMoment (finite negative : Prop) [Decidable finite] [Decidable negative] :
    Except Fault Unit :=
  raiseIf (¬ finite ∨ negative) (.access "temporal access time must be finite and non-negative")

def temporalSlot (now : Clock) (policy : Policy) : Except Fault Nat := match now with
  | .int moment => do
    raiseIf (floatBound ≤ moment.natAbs) Fault.overflow
    checkMoment True (moment < 0)
    .ok (moment.toNat / policy.periodSeconds)
  | .float moment => do
    checkMoment True (moment < 0)
    .ok (moment.floor.toNat / policy.periodSeconds)
  | .notFinite => do
    checkMoment False False
    .ok 0

/-- `_slot_key`. -/
def Request.slotKey (request : Request) : Bytes × Nat :=
  (request.projectId, request.policy.periodSeconds)

def rolledBack : Fault :=
  .access "temporal access clock rolled back behind the trusted process high-water slot"

def requireNotRolledBack (previous : Option Nat) (slot : Nat) : Except Fault Unit :=
  raiseIf (∃ high ∈ previous, slot < high) rolledBack

def commitSlot (highWater : HighWater) (key : Bytes × Nat) (slot : Nat) :
    Except Fault Unit × HighWater :=
  if ∃ high ∈ highWater key, slot < high then (.error rolledBack, highWater)
  else if ∀ high ∈ highWater key, high < slot then
    (.ok (), Function.update highWater key (some slot))
  else (.ok (), highWater)

/-- `_CONTEXT`. -/
def context : Bytes := Recovery.encode "koschei.object-space.temporal-access/v1" ++ [0]

def payload (request : Request) (slot : Nat) : Bytes :=
  context ++ request.projectId ++ bigEndian 8 request.epoch.toNat ++ bigEndian 8 slot ++
    bigEndian 2 request.policy.periodSeconds

section Functions

variable (hmac : Bytes → Bytes → Bytes)

/-- `_mac`: the slot must fit into eight bytes, as epoch and period do. -/
def mac (request : Request) (slot : Nat) : Except Fault Bytes := do
  raiseIf (2 ^ 64 ≤ slot) Fault.overflow
  .ok (hmac request.temporalKey (payload request slot))

/-- What both functions compute first: the slot and the handle for it. -/
def expected (highWater : HighWater) (request : Request) : Except Fault (Nat × Bytes) := do
  checkKey request.temporalKey
  checkProject request.projectId
  checkEpoch request.epoch
  let slot ← temporalSlot request.now request.policy
  requireNotRolledBack (highWater request.slotKey) slot
  let handle ← mac hmac request slot
  .ok (slot, handle)

def issueTemporalHandle (highWater : HighWater) (request : Request) :
    Except Fault Bytes × HighWater :=
  match expected hmac highWater request with
  | .error fault => (.error fault, highWater)
  | .ok (slot, handle) =>
    match commitSlot highWater request.slotKey slot with
    | (.error fault, highWater) => (.error fault, highWater)
    | (.ok (), highWater) => (.ok handle, highWater)

def verifyTemporalHandle (highWater : HighWater) (handle : Bytes) (request : Request) :
    Except Fault Unit × HighWater :=
  if handle.length ≠ 64 then
    (.error (.access "temporal access handle must be exactly 64 bytes"), highWater)
  else
    match expected hmac highWater request with
    | .error fault => (.error fault, highWater)
    | .ok (slot, expected) =>
      if handle ≠ expected then
        (.error (.access "temporal access handle is stale, cross-project, cross-epoch or forged"),
          highWater)
      else commitSlot highWater request.slotKey slot

inductive Call where
  | issue (request : Request)
  | verify (handle : Bytes) (request : Request)

/-- One call; what is issued is a handle, and a verification has no result. -/
def step (highWater : HighWater) : Call → Except Fault (Option Bytes) × HighWater
  | .issue request =>
    ((issueTemporalHandle hmac highWater request).1.map some,
      (issueTemporalHandle hmac highWater request).2)
  | .verify handle request =>
    ((verifyTemporalHandle hmac highWater handle request).1.map fun _ => none,
      (verifyTemporalHandle hmac highWater handle request).2)

end Functions

/-! ## One call -/

def Call.request : Call → Request
  | .issue request => request
  | .verify _ request => request

/-- The key, the project and the epoch pass their checks. -/
structure Request.Valid (request : Request) : Prop where
  key : checkKey request.temporalKey = .ok ()
  project : checkProject request.projectId = .ok ()
  epoch : checkEpoch request.epoch = .ok ()

/-- The call goes through with this slot. -/
structure Ready (highWater : HighWater) (request : Request) (slot : Nat) : Prop where
  valid : request.Valid
  current : temporalSlot request.now request.policy = .ok slot
  notBelow : ∀ high ∈ highWater request.slotKey, high ≤ slot
  fits : slot < 2 ^ 64

variable {hmac : Bytes → Bytes → Bytes} {highWater : HighWater} {request : Request} {slot : Nat}

theorem expected_iff {handle : Bytes} : expected hmac highWater request = .ok (slot, handle) ↔
    Ready highWater request slot ∧ handle = hmac request.temporalKey (payload request slot) := by
  simp only [expected, requireNotRolledBack, mac, bind_eq_ok_iff, raiseIf_iff, ok.injEq,
    Prod.mk.injEq]
  constructor
  · rintro ⟨_, key, _, project, _, epoch, _, current, _, notBelow, _, ⟨_, fits, rfl⟩, rfl, rfl⟩
    exact ⟨⟨⟨key, project, epoch⟩, current, by simpa using notBelow, not_le.mp fits⟩, rfl⟩
  · rintro ⟨⟨⟨key, project, epoch⟩, current, notBelow, fits⟩, rfl⟩
    exact ⟨(), key, (), project, (), epoch, slot, current, (), by simpa using notBelow, _,
      ⟨(), not_le.mpr fits, rfl⟩, rfl, rfl⟩

theorem commitSlot_ready {key : Bytes × Nat} (notBelow : ∀ high ∈ highWater key, high ≤ slot) :
    commitSlot highWater key slot = (.ok (), Function.update highWater key (some slot)) := by
  have recent : ¬ ∃ high ∈ highWater key, slot < high := by simpa using notBelow
  rw [commitSlot, if_neg recent]
  split
  · rfl
  · next low =>
    have known : highWater key = some slot := by
      simp only [not_forall, not_lt] at low
      obtain ⟨high, found, above⟩ := low
      rw [le_antisymm above (notBelow high found)]
      exact found
    rw [← known, Function.update_eq_self]

/-- What a call that goes through is given, and gives. -/
def Delivers (hmac : Bytes → Bytes → Bytes) (slot : Nat) (answer : Option Bytes) : Call → Prop
  | .issue request => answer = some (hmac request.temporalKey (payload request slot))
  | .verify handle request => answer = none ∧ handle.length = 64 ∧
      handle = hmac request.temporalKey (payload request slot)

/-- A call that is ready goes through with what it delivers and raises its slot to the highest. -/
theorem step_of_ready {call : Call} {answer : Option Bytes}
    (ready : Ready highWater call.request slot) (delivers : Delivers hmac slot answer call) :
    step hmac highWater call =
      (.ok answer, Function.update highWater call.request.slotKey (some slot)) := by
  have known : expected hmac highWater call.request = .ok (slot, _) := expected_iff.mpr ⟨ready, rfl⟩
  have committed := commitSlot_ready ready.notBelow
  cases call with
  | issue request =>
    subst delivers
    simp only [Call.request] at known committed ⊢
    simp [step, issueTemporalHandle, known, committed, Except.map]
  | verify handle request =>
    obtain ⟨rfl, length, same⟩ := delivers
    simp only [Call.request] at known committed ⊢
    simp [step, verifyTemporalHandle, known, committed, length, ← same, Except.map]

variable (hmac) in
/-- A call that does not go through leaves the slots as they are, and raises what the common part
raises or an error of the module. -/
theorem step_cases (call : Call) :
    (∃ slot answer, Ready highWater call.request slot ∧ Delivers hmac slot answer call) ∨
    ∃ fault, step hmac highWater call = (.error fault, highWater) ∧
      (fault = .overflow ↔ expected hmac highWater call.request = .error .overflow ∧
        ∀ handle request, call = .verify handle request → handle.length = 64) := by
  cases call with
  | issue request =>
    cases known : expected hmac highWater request with
    | ok found => exact .inl ⟨found.1, _, (expected_iff.mp known).1, rfl⟩
    | error fault =>
      right
      refine ⟨fault, by simp [step, issueTemporalHandle, known, Except.map], ?_⟩
      simp [Call.request, known]
  | verify handle request =>
    by_cases length : handle.length = 64
    · cases known : expected hmac highWater request with
      | ok found =>
        obtain ⟨ready, tag⟩ := expected_iff.mp known
        by_cases same : handle = found.2
        · exact .inl ⟨found.1, none, ready, rfl, length, same.trans tag⟩
        · right
          refine ⟨_, by simp [step, verifyTemporalHandle, known, length, same, Except.map]; rfl, ?_⟩
          simp [Call.request, known]
      | error fault =>
        right
        refine ⟨fault, by simp [step, verifyTemporalHandle, known, length, Except.map], ?_⟩
        simp [Call.request, known, length]
    · right
      refine ⟨_, by simp [step, verifyTemporalHandle, length, Except.map]; rfl, ?_⟩
      simp [length]

/-- The clock is further in the future than the handles can say. -/
def Beyond (policy : Policy) : Clock → Prop
  | .int moment => floatBound ≤ moment.natAbs ∨
      ¬ moment < 0 ∧ 2 ^ 64 ≤ moment.toNat / policy.periodSeconds
  | .float moment => ¬ moment < 0 ∧ 2 ^ 64 ≤ moment.floor.toNat / policy.periodSeconds
  | .notFinite => False

theorem beyond_iff (now : Clock) (policy : Policy) : Beyond policy now ↔
    temporalSlot now policy = .error .overflow ∨
      ∃ slot, temporalSlot now policy = .ok slot ∧ 2 ^ 64 ≤ slot := by
  cases now with
  | int moment =>
    by_cases large : floatBound ≤ moment.natAbs
    · simp [Beyond, temporalSlot, raiseIf, large, bind, Except.bind]
    · by_cases negative : moment < 0 <;>
        simp [Beyond, temporalSlot, checkMoment, raiseIf, large, negative, bind, Except.bind]
  | float moment =>
    by_cases negative : moment < 0 <;>
      simp [Beyond, temporalSlot, checkMoment, raiseIf, negative, bind, Except.bind]
  | notFinite => simp [Beyond, temporalSlot, checkMoment, raiseIf, bind, Except.bind]

variable (hmac) in
theorem expected_overflow (bounded : ∀ high ∈ highWater request.slotKey, high < 2 ^ 64) :
    expected hmac highWater request = .error .overflow ↔
      request.Valid ∧ Beyond request.policy request.now := by
  rw [beyond_iff]
  constructor
  · intro raised
    rcases bind_eq_error raised with key | ⟨_, key, raised⟩
    · cases (raiseIf_eq_error key).2
    rcases bind_eq_error raised with project | ⟨_, project, raised⟩
    · cases (raiseIf_eq_error project).2
    rcases bind_eq_error raised with epoch | ⟨_, epoch, raised⟩
    · cases (raiseIf_eq_error epoch).2
    refine ⟨⟨key, project, epoch⟩, ?_⟩
    rcases bind_eq_error raised with early | ⟨slot, current, raised⟩
    · exact .inl early
    rcases bind_eq_error raised with rolled | ⟨_, -, raised⟩
    · cases (raiseIf_eq_error rolled).2
    rcases bind_eq_error raised with tagged | ⟨_, -, raised⟩
    · rcases bind_eq_error tagged with wide | ⟨_, -, tagged⟩
      · exact .inr ⟨slot, current, (raiseIf_eq_error wide).1⟩
      · cases tagged
    · cases raised
  · rintro ⟨⟨key, project, epoch⟩, early | ⟨slot, current, wide⟩⟩
    · rw [expected, bind_of_ok key, bind_of_ok project, bind_of_ok epoch, early]
      rfl
    · have recent : ¬ ∃ high ∈ highWater request.slotKey, slot < high := by
        rintro ⟨high, found, above⟩
        exact absurd (bounded high found) (by omega)
      rw [expected, bind_of_ok key, bind_of_ok project, bind_of_ok epoch, bind_of_ok current,
        requireNotRolledBack, bind_raiseIf recent, mac, bind_raiseIf_of wide]
      rfl

/-- The call gets as far as its clock, which is beyond reach. -/
def Call.Overflows (call : Call) : Prop :=
  call.request.Valid ∧ Beyond call.request.policy call.request.now ∧
    ∀ handle request, call = .verify handle request → handle.length = 64

/-! ## Runs of one process -/

variable (hmac) in
/-- The calls of a process, which starts without any slot. -/
abbrev run (calls : List Call) : List (Moment HighWater Call (Except Fault (Option Bytes))) :=
  trace (step hmac) (fun _ => none) calls

/-- A handle that is a MAC under the key it is verified with was issued under that key, for the
very bytes it is a MAC of. -/
def Unforgeable (hmac : Bytes → Bytes → Bytes) (calls : List Call) : Prop :=
  ∀ past moment future, run hmac calls = past ++ moment :: future →
    ∀ handle request, moment.call = .verify handle request →
    ∀ message, handle = hmac request.temporalKey message →
    ∃ issued ∈ past, ∃ source slot, issued.call = .issue source ∧
      issued.answer = .ok (some handle) ∧ source.temporalKey = request.temporalKey ∧
      temporalSlot source.now source.policy = .ok slot ∧ payload source slot = message

/-- An earlier call has issued the handle under the same key, project, epoch and period for the
current slot, which is not below the highest one. -/
def Backed (past : List (Moment HighWater Call (Except Fault (Option Bytes))))
    (highWater : HighWater) (handle : Bytes) (request : Request) : Prop :=
  ∃ issued ∈ past, ∃ source slot, issued.call = .issue source ∧
    issued.answer = .ok (some handle) ∧ source.temporalKey = request.temporalKey ∧
    source.projectId = request.projectId ∧ source.epoch = request.epoch ∧
    source.policy = request.policy ∧ temporalSlot source.now source.policy = .ok slot ∧
    temporalSlot request.now request.policy = .ok slot ∧
    ∀ high ∈ highWater request.slotKey, high ≤ slot

variable (hmac) in
/-- Handles never run backwards. -/
structure Forward (calls : List Call) : Prop where
  raises : ∀ moment ∈ run hmac calls, ∀ fault, moment.answer = .error fault →
    ∃ message, fault = .access message
  ordered : (run hmac calls).Pairwise fun earlier later =>
    ∀ first second slot slot', earlier.answer = .ok first → later.answer = .ok second →
      earlier.call.request.slotKey = later.call.request.slotKey →
      temporalSlot earlier.call.request.now earlier.call.request.policy = .ok slot →
      temporalSlot later.call.request.now later.call.request.policy = .ok slot' → slot ≤ slot'
  unchanged : ∀ moment ∈ run hmac calls, ∀ fault, moment.answer = .error fault →
    moment.after = moment.before
  exact : ∀ past moment future, run hmac calls = past ++ moment :: future →
    ∀ handle request, moment.call = .verify handle request →
    (moment.answer = .ok none ↔ Backed past moment.before handle request)

section Run

variable {calls : List Call} {moment : Moment HighWater Call (Except Fault (Option Bytes))}

theorem ready_of_ok (member : moment ∈ run hmac calls) {answer : Option Bytes}
    (passed : moment.answer = .ok answer) : ∃ slot, Ready moment.before moment.call.request slot ∧
      Delivers hmac slot answer moment.call ∧
      moment.after = Function.update moment.before moment.call.request.slotKey (some slot) := by
  rcases step_cases hmac moment.call with ⟨slot, other, ready, delivers⟩ | ⟨fault, failed, -⟩
  · obtain ⟨same, after⟩ := outcome_of_mem_trace member (step_of_ready ready delivers)
    rw [passed, ok.injEq] at same
    exact ⟨slot, ready, same ▸ delivers, after⟩
  · rw [(outcome_of_mem_trace member failed).1] at passed
    cases passed

theorem unchanged_of_error (member : moment ∈ run hmac calls) {fault : Fault}
    (raised : moment.answer = .error fault) : moment.after = moment.before := by
  rcases step_cases hmac moment.call with ⟨slot, answer, ready, delivers⟩ | ⟨_, failed, -⟩
  · rw [(outcome_of_mem_trace member (step_of_ready ready delivers)).1] at raised
    cases raised
  · exact (outcome_of_mem_trace member failed).2

theorem bounded_before : ∀ moment ∈ run hmac calls, ∀ key, ∀ high ∈ moment.before key,
    high < 2 ^ 64 := by
  have start : ∀ key : Bytes × Nat, ∀ high ∈ (fun _ => none : HighWater) key, high < 2 ^ 64 := by
    simp
  refine before_of_invariant (I := fun state : HighWater =>
    ∀ key, ∀ high ∈ state key, high < 2 ^ 64) start fun moment member bounded key high found => ?_
  cases outcome : moment.answer with
  | error fault =>
    rw [unchanged_of_error member outcome] at found
    exact bounded key high found
  | ok answer =>
    obtain ⟨slot, ready, -, after⟩ := ready_of_ok member outcome
    rw [after, Function.update_apply] at found
    split at found
    · cases found
      exact ready.fits
    · exact bounded key high found

/-- No slot is forgotten or lowered. -/
def Rises (before after : HighWater) : Prop :=
  ∀ key, ∀ high ∈ before key, ∃ high' ∈ after key, high ≤ high'

theorem rises (member : moment ∈ run hmac calls) : Rises moment.before moment.after := by
  intro key high found
  cases outcome : moment.answer with
  | error fault =>
    rw [unchanged_of_error member outcome]
    exact ⟨high, found, le_refl high⟩
  | ok answer =>
    obtain ⟨slot, ready, -, after⟩ := ready_of_ok member outcome
    rw [after]
    by_cases same : key = moment.call.request.slotKey
    · subst same
      exact ⟨slot, update_self _ _ _, ready.notBelow high found⟩
    · exact ⟨high, (update_of_ne same _ _).trans found, le_refl high⟩

theorem overflow_iff (member : moment ∈ run hmac calls) :
    moment.answer = .error .overflow ↔ moment.call.Overflows := by
  have overflows := expected_overflow hmac (bounded_before moment member moment.call.request.slotKey)
  rw [Call.Overflows, ← and_assoc, ← overflows]
  rcases step_cases hmac moment.call with ⟨slot, answer, ready, delivers⟩ | ⟨_, failed, which⟩
  · rw [(outcome_of_mem_trace member (step_of_ready ready delivers)).1,
      expected_iff.mpr ⟨ready, rfl⟩]
    simp
  · rw [(outcome_of_mem_trace member failed).1, Except.error.injEq]
    exact which

theorem payload_inj {first second : Request} {slot' : Nat} (valid : first.Valid)
    (valid' : second.Valid) (fits : slot < 2 ^ 64) (fits' : slot' < 2 ^ 64)
    (same : payload first slot = payload second slot') :
    first.projectId = second.projectId ∧ first.epoch = second.epoch ∧
      first.policy = second.policy ∧ slot = slot' := by
  have range := raiseIf_iff.mp valid.epoch
  have range' := raiseIf_iff.mp valid'.epoch
  have period := first.policy.range
  have period' := second.policy.range
  obtain ⟨same, periods⟩ := append_inj' same (by simp [length_bigEndian])
  obtain ⟨same, slots⟩ := append_inj' same (by simp [length_bigEndian])
  obtain ⟨same, epochs⟩ := append_inj' same (by simp [length_bigEndian])
  have policies : first.policy.periodSeconds = second.policy.periodSeconds :=
    bigEndian_inj (by omega) (by omega) periods
  refine ⟨append_cancel_left same, eq_of_bigEndian (by omega) (by omega) epochs, ?_,
    bigEndian_inj (by omega) (by omega) slots⟩
  generalize first.policy = policy at policies
  generalize second.policy = policy' at policies
  cases policy
  cases policy'
  cases policies
  rfl

theorem exact_of_unforgeable (length : ∀ key text, (hmac key text).length = 64)
    (unforgeable : Unforgeable hmac calls) : ∀ past moment future,
    run hmac calls = past ++ moment :: future →
    ∀ handle request, moment.call = .verify handle request →
    (moment.answer = .ok none ↔ Backed past moment.before handle request) := by
  intro past moment future split handle request isVerify
  have member : moment ∈ run hmac calls := by simp [split]
  have inRun : ∀ issued ∈ past, issued ∈ run hmac calls := by
    intro issued early
    simp [split, early]
  constructor
  · intro passed
    obtain ⟨slot, ready, delivers, -⟩ := ready_of_ok member passed
    rw [isVerify] at ready delivers
    obtain ⟨issued, early, source, slot', isIssue, answer, key, current, same⟩ :=
      unforgeable past moment future split handle request isVerify _ delivers.2.2
    obtain ⟨slot'', ready', -, -⟩ := ready_of_ok (inRun issued early) answer
    rw [isIssue] at ready'
    cases current.symm.trans ready'.current
    obtain ⟨project, epoch, policy, rfl⟩ :=
      payload_inj ready'.valid ready.valid ready'.fits ready.fits same
    exact ⟨issued, early, source, _, isIssue, answer, key, project, epoch, policy, current,
      ready.current, ready.notBelow⟩
  · rintro ⟨issued, early, source, slot, isIssue, answer, key, project, epoch, policy, current,
      current', notBelow⟩
    obtain ⟨slot', ready, delivers, -⟩ := ready_of_ok (inRun issued early) answer
    rw [isIssue] at ready delivers
    cases current.symm.trans ready.current
    have tag : handle = hmac request.temporalKey (payload request slot) := by
      rw [some.inj delivers, key, payload, payload, project, epoch, policy]
    have valid : request.Valid :=
      ⟨key ▸ ready.valid.key, project ▸ ready.valid.project, epoch ▸ ready.valid.epoch⟩
    have goes : Ready moment.before moment.call.request slot := by
      rw [isVerify]
      exact ⟨valid, current', notBelow, ready.fits⟩
    have gives : Delivers hmac slot none moment.call := by
      rw [isVerify]
      exact ⟨rfl, by rw [tag, length], tag⟩
    exact (outcome_of_mem_trace member (step_of_ready goes gives)).1

end Run

/-- A request whose key, project and epoch pass their checks. -/
def sample (now : Clock) : Request :=
  ⟨replicate 64 1, replicate 16 1, 1, now, ⟨30, by decide⟩⟩

/-- Nothing is forged in a run that verifies nothing. -/
theorem unforgeable_issue (request : Request) : Unforgeable hmac [.issue request] := by
  intro past moment future split handle other isVerify
  have member : moment ∈ run hmac [.issue request] := by
    rw [split]
    exact mem_append_right _ mem_cons_self
  have issued := call_of_mem_trace member
  rw [isVerify] at issued
  simp at issued

end Koschei.Temporal
