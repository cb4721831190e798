import Koschei.Values.Plain
import Koschei.Values.Upheld

/-!
# Authority comes with the arguments

A call whose arguments reach no capability never invokes one and never returns
one: there is no ambient authority. `_contains_capability` is not the test for it:
it does not look at the receiver of a bound member, so a method bound to a token
passes for a value without capabilities, and calling it is an operation of the
token.
-/

namespace Koschei.Values

open Lib Ast

/-! ## What a value reaches -/

mutual
/-- The addresses in a value, those of receivers of bound members included. -/
def addresses : Value → List Nat
  | .object address => [address]
  | .list items => itemAddresses items
  | .map entries | .struct _ entries _ => entryAddresses entries
  | .enum _ _ payload _ => payloadAddresses payload
  | .member receiver _ => addresses receiver
  | .unit | .bool _ | .int _ | .float _ | .str _ | .error _ => []
  | .function _ _ | .module _ | .constructor _ | .noPayload => []

def itemAddresses : List Value → List Nat
  | [] => []
  | item :: items => addresses item ++ itemAddresses items

def entryAddresses : List (String × Value) → List Nat
  | [] => []
  | (_, item) :: entries => addresses item ++ entryAddresses entries

def payloadAddresses : Option Value → List Nat
  | none => []
  | some payload => addresses payload
end

/-- What an object hands out: the fields of a record, the roots of `SystemCaps`, the items of
a queue, the workers and arguments of tasks. -/
def HostObject.parts : HostObject → List Value
  | .record _ fields _ => fields.map snd
  | .capability _ _ roots => roots.map snd
  | .queue ring => ring.buffer.filterMap id
  | .tasks group =>
    group.slots.flatMap (fun record => [record.worker, record.argument]) ++ group.joinResult.toList
  | .response _ _ | .decimal _ _ | .data _ => []

/-- An address is reached from another through what objects hand out. -/
inductive Reaches (world : World) : Nat → Nat → Prop
  | here (address : Nat) : Reaches world address address
  | through {first middle last : Nat} {object : HostObject} {part : Value} :
      world.objects[first]? = some object → part ∈ object.parts → middle ∈ addresses part →
        Reaches world middle last → Reaches world first last

/-- No capability is reached from an address. -/
def Confined (world : World) (address : Nat) : Prop := ∀ reached, Reaches world address reached →
    ∀ kind scope roots, world.objects[reached]? ≠ some (.capability kind scope roots)

def WithoutCapabilities (world : World) (value : Value) : Prop :=
  ∀ address ∈ addresses value, Confined world address

/-! ## The standard of a confined call -/

/-- Addresses from which no capability is reached at the start of the call, and no authority. -/
def confinedStandard (world : World) : Standard where
  int _ := True
  object := Confined world
  authority := False
  operations := world.operations
  inRange _ _ := trivial
  orOut := .inl fun _ => trivial

mutual
theorem within_confined (world : World) :
    ∀ value, Within (confinedStandard world) value ↔ WithoutCapabilities world value
  | .object address => by simp [Within, WithoutCapabilities, addresses, confinedStandard]
  | .list items => by
    simpa [Within, WithoutCapabilities, addresses] using withinAll_confined world items
  | .map entries => by
    simpa [Within, WithoutCapabilities, addresses] using withinEntries_confined world entries
  | .struct _ entries _ => by
    simpa [Within, WithoutCapabilities, addresses] using withinEntries_confined world entries
  | .enum _ _ none _ => by simp [Within, WithinPayload, WithoutCapabilities, addresses,
      payloadAddresses]
  | .enum _ _ (some payload) _ => by
    simpa [Within, WithinPayload, WithoutCapabilities, addresses, payloadAddresses]
      using within_confined world payload
  | .member receiver _ => by
    simpa [Within, WithoutCapabilities, addresses] using within_confined world receiver
  | .unit | .bool _ | .int _ | .float _ | .str _ | .error _ => by
    simp [Within, WithoutCapabilities, addresses, confinedStandard]
  | .function _ _ | .module _ | .constructor _ | .noPayload => by
    simp [Within, WithoutCapabilities, addresses]

theorem withinAll_confined (world : World) : ∀ items, WithinAll (confinedStandard world) items ↔
      ∀ address ∈ itemAddresses items, Confined world address
  | [] => by simp [WithinAll, itemAddresses]
  | item :: items => by
    have first := within_confined world item
    have rest := withinAll_confined world items
    simp only [WithinAll, itemAddresses, forall_mem_append]
    exact and_congr first rest

theorem withinEntries_confined (world : World) :
    ∀ entries, WithinEntries (confinedStandard world) entries ↔
      ∀ address ∈ entryAddresses entries, Confined world address
  | [] => by simp [WithinEntries, entryAddresses]
  | (_, item) :: entries => by
    have first := within_confined world item
    have rest := withinEntries_confined world entries
    simp only [WithinEntries, entryAddresses, forall_mem_append]
    exact and_congr first rest
end

theorem confined_start (world : World) : WorldWithin (confinedStandard world) world := by
  refine ⟨fun address object found admitted => ?_, fun address fresh => ?_, fun _ => rfl⟩
  · have inside (part : Value) (member : part ∈ object.parts) :
        Within (confinedStandard world) part :=
      (within_confined world part).mpr fun middle held reached path =>
        admitted reached (.through found member held path)
    cases object with
    | record typeName fields typeArguments =>
      exact fun field member => inside _ (mem_map_of_mem member)
    | capability kind scope roots => exact absurd found (admitted address (.here address) _ _ _)
    | response body statusCode => trivial
    | queue queue =>
      rintro item member value rfl
      exact inside value (mem_filterMap.mpr ⟨some value, member, rfl⟩)
    | tasks scope =>
      refine ⟨fun record member => ⟨?_, ?_⟩, ?_⟩
      · exact inside _ (mem_append_left _ (mem_flatMap.mpr ⟨record, member, by simp⟩))
      · exact inside _ (mem_append_left _ (mem_flatMap.mpr ⟨record, member, by simp⟩))
      · intro value joined
        exact inside _ (mem_append_right _ (by simp [joined]))
    | decimal atoms scale => trivial
    | data text => trivial
  · rintro reached path kind scope roots known
    cases path with
    | here =>
      rw [List.getElem?_eq_none fresh] at known
      cases known
    | through found =>
      rw [List.getElem?_eq_none fresh] at found
      cases found

/-! ## Confinement -/

/-- The way a call ends: without an operation of a capability, and without one in the result. -/
def StaysConfined (world : World) : Outcome Fault (Store World) Value → Prop
  | .ok value store =>
    store.host.operations = world.operations ∧ containsCapability store.host value = false
  | .raise _ store => store.host.operations = world.operations
  | .timeout => True

/-- A run is watched for operations of capabilities. -/
def quietWatch (world : World) : Watch World :=
  ⟨fun state => state.store.host.operations = world.operations, fun _ => True⟩

/-- There is always a fault that did not come up. -/
theorem exists_foreign (o : Outcome Fault (Store World) Value) :
    ∃ stop, isKoscheiFault stop = false ∧ ∀ store, o ≠ .raise stop store := by
  cases o with
  | ok value store => exact ⟨⟨"", ""⟩, rfl, by simp⟩
  | timeout => exact ⟨⟨"", ""⟩, rfl, by simp⟩
  | raise fault store =>
    refine ⟨⟨"*" ++ fault.code, ""⟩, by simp [isKoscheiFault, List.isPrefixOf], fun other same => ?_⟩
    have longer := congrArg String.length (congrArg Fault.code (Outcome.raise.inj same).1)
    simp only [String.length_append] at longer
    have one : "*".length = 1 := rfl
    omega

theorem none_keepsNumbers (world : World) (outside : Outside) {stop : Fault}
    (foreign : isKoscheiFault stop = false) :
    KeepsNumbers (confinedStandard world) outside (Conditions.none stop) where
  foreign := foreign
  readable _ _ _ _ _ _ _ _ := trivial
  number _ _ _ _ _ _ _ _ _ := trivial

/-- No operation of a capability is invoked in a call whose arguments reach no capability, in
all the calls it makes, whether it ends or not, and none is in its result. -/
theorem no_ambient_authority (outside : Outside) (declared : Declared)
    (inference : Inference World) (program : Program) (fuel : Nat) (moduleKey name : String)
    (arguments : List Value) (store : Store World) (parsed : program.Parsed)
    (inputs : ∀ argument ∈ arguments, WithoutCapabilities store.host argument) :
    watchedCall (quietWatch store.host) ⟨runtime outside declared, inference, program⟩ fuel
        moduleKey name arguments store =
      callFunction Lane.interpreter ⟨runtime outside declared, inference, program⟩ fuel moduleKey
        name arguments store ∧
      StaysConfined store.host (callFunction Lane.interpreter
        ⟨runtime outside declared, inference, program⟩ fuel moduleKey name arguments store) := by
  obtain ⟨stop, foreign, other⟩ := exists_foreign (callFunction Lane.interpreter
    ⟨runtime outside declared, inference, program⟩ fuel moduleKey name arguments store)
  have upholds := runtime_upholds (none_keepsNumbers store.host outside foreign) declared
  have states (state : State World) (holds : StateKept (Within (confinedStandard store.host))
      (WorldWithin (confinedStandard store.host)) state) :
      (quietWatch store.host).state state := holds.1.operations id
  have seen : CallKeeps stop (Within (confinedStandard store.host))
      (WorldWithin (confinedStandard store.host))
      (guardedCall (Conditions.none stop) ⟨runtime outside declared, inference, program⟩ fuel)
      (watchedCall (quietWatch store.host) ⟨runtime outside declared, inference, program⟩ fuel) :=
    guardedCall_watched upholds states (fun _ _ => trivial) parsed fuel
  rw [guardedCall_none] at seen
  have within (argument : Value) (member : argument ∈ arguments) :
      Within (confinedStandard store.host) argument :=
    (within_confined store.host argument).mpr (inputs argument member)
  rcases seen moduleKey name arguments within store (confined_start store.host) with
    ⟨after, stopped⟩ | ⟨watched, ended⟩
  · exact absurd stopped (other after)
  · refine ⟨watched.symm, ?_⟩
    revert ended
    cases callFunction Lane.interpreter ⟨runtime outside declared, inference, program⟩ fuel
      moduleKey name arguments store with
    | ok value after =>
      exact fun both => ⟨both.2.operations id, carries_false id both.2 _ both.1⟩
    | raise fault after => exact fun both => both.2.operations id
    | timeout => exact id

/-- `fn apply<T>(read: T) { return read("/tmp/secret") }`. -/
def applyFunction : FunctionDeclaration := plainFunction "apply" ["T"] [⟨"read", ["T"], .named "T"⟩]
    [.ret (some (.call (.ident "read" .unknown) [.literal (.str "/tmp/secret") .string] .plain
      .unknown))]

def diskWorld : World := ⟨[.capability .diskCaps [.str "/tmp"] []], [], []⟩

theorem applyFunction_parsed : (plainSetting [applyFunction]).program.Parsed := by
  intro module listed function declared
  rw [mem_singleton.mp listed] at declared
  rw [mem_singleton.mp declared]
  exact ⟨⟨trivial, trivial, trivial⟩, trivial⟩

/-- A call with a text in a world with a token. -/
theorem no_ambient_authority_text :
    StaysConfined diskWorld (callFunction Lane.interpreter (plainSetting [applyFunction]) 5 "main"
      "apply" [.str "length"] ⟨diskWorld, [], 0⟩) :=
  (no_ambient_authority plainOutside plainDeclared plainInference
    (plainSetting [applyFunction]).program 5 "main" "apply" [.str "length"] ⟨diskWorld, [], 0⟩
    applyFunction_parsed (by simp [WithoutCapabilities, addresses])).2

/-- A method bound to the token contains no capability, and is invoked. -/
theorem bound_method_has_authority :
    containsCapability diskWorld (.member (.object 0) "read_file") = false ∧
      ¬ StaysConfined diskWorld (callFunction Lane.interpreter (plainSetting [applyFunction]) 5
        "main" "apply" [.member (.object 0) "read_file"] ⟨diskWorld, [], 0⟩) := by
  refine ⟨rfl, ?_⟩
  have run : callFunction Lane.interpreter (plainSetting [applyFunction]) 5 "main" "apply"
      [.member (.object 0) "read_file"] ⟨diskWorld, [], 0⟩ =
        .ok .unit ⟨⟨diskWorld.objects, [], [⟨0, "read_file", [.str "/tmp/secret"]⟩]⟩, [], 0⟩ := rfl
  rw [run]
  rintro ⟨same, -⟩
  simp [diskWorld] at same

end Koschei.Values
