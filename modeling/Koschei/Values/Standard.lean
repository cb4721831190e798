import Koschei.Values.Builtins
import Koschei.Ast.Preservation

/-!
# Values and worlds within a standard

A standard says which Ints a value may hold, which addresses, and whether
capabilities are admitted. A value is within it when everything in it is, the
receivers of bound members included; a world is, when what its admitted objects
hold is, and fresh addresses are admitted. Every member, method and builtin keeps
within a standard, as long as `to_int` reads a number within it: so the value
runtime upholds it, and every run does.
-/

namespace Koschei.Values

open Lib Ast

/-- What values may hold. Without authority no capability may be reached, and the operations
of capabilities stay those there were. -/
structure Standard where
  int : Int → Prop
  object : Nat → Prop
  authority : Prop
  operations : List Operation
  inRange : ∀ i, InRange i → int i
  orOut : (∀ i, int i) ∨ ∀ i, int i → InRange i

variable (std : Standard)

/-! ## Values -/

mutual
/-- Everything a value holds is within the standard. -/
def Within : Value → Prop
  | .int i => std.int i
  | .object address => std.object address
  | .list items => WithinAll items
  | .map entries | .struct _ entries _ => WithinEntries entries
  | .enum _ _ payload _ => WithinPayload payload
  | .member receiver _ => Within receiver
  | .unit | .bool _ | .float _ | .str _ | .error _ => True
  | .function _ _ | .module _ | .constructor _ | .noPayload => True

def WithinAll : List Value → Prop
  | [] => True
  | item :: items => Within item ∧ WithinAll items

def WithinEntries : List (String × Value) → Prop
  | [] => True
  | (_, item) :: entries => Within item ∧ WithinEntries entries

def WithinPayload : Option Value → Prop
  | none => True
  | some payload => Within payload
end

variable {std} {items : List Value}

theorem withinAll_iff : WithinAll std items ↔ ∀ item ∈ items, Within std item := by
  induction items with
  | nil => simp [WithinAll]
  | cons item items ih => simp [WithinAll, ih]

variable {entries : List (String × Value)}

theorem withinEntries_iff : WithinEntries std entries ↔ ∀ entry ∈ entries, Within std entry.2 := by
  induction entries with
  | nil => simp [WithinEntries]
  | cons entry entries ih => simp [WithinEntries, ih]

theorem within_list : Within std (.list items) ↔ ∀ item ∈ items, Within std item := by
  rw [Within, withinAll_iff]

theorem within_map : Within std (.map entries) ↔ ∀ entry ∈ entries, Within std entry.2 := by
  rw [Within, withinEntries_iff]

variable {enumName variant : String} {typeArguments : List String}

theorem within_enum {payload : Option Value} :
    Within std (.enum enumName variant payload typeArguments) ↔
      ∀ value, payload = some value → Within std value := by
  cases payload with
  | none => simp [Within, WithinPayload]
  | some value => simp [Within, WithinPayload]

theorem hereditary_within (std : Standard) : Hereditary (Within std) where
  unit := trivial
  bool _ := trivial
  float _ := trivial
  str _ := trivial
  error _ := trivial
  noPayload := trivial
  function _ _ := trivial
  module _ := trivial
  int := std.inRange
  intOut := std.orOut
  list _ := within_list
  map _ := within_map
  enum _ _ _ _ := within_enum

theorem within_texts (texts : List String) : Within std (.list (texts.map Value.str)) :=
  within_list.mpr fun item member => by
    obtain ⟨text, -, rfl⟩ := mem_map.mp member
    trivial

variable {value : Value}

theorem within_asPayload (holds : Within std value) :
    Within std (.enum enumName variant value.asPayload typeArguments) := by
  refine within_enum.mpr fun payload same => ?_
  unfold Value.asPayload at same
  split at same
  · cases same
  · cases same
    exact holds

def ResultWithin (std : Standard) (result : Except Fault Value) : Prop :=
  ∀ value, result = .ok value → Within std value

theorem resultWithin_ok (holds : Within std value) : ResultWithin std (.ok value) := by
  rintro _ ⟨⟩
  exact holds

theorem resultWithin_error (fault : Fault) : ResultWithin std (.error fault) := by
  rintro _ ⟨⟩

theorem resultWithin_bind {α : Type} {first : Except Fault α} {rest : α → Except Fault Value}
    (holds : ∀ a, first = .ok a → ResultWithin std (rest a)) :
    ResultWithin std (first >>= rest) := by
  cases first with
  | error fault => exact resultWithin_error fault
  | ok a => exact holds a rfl

/-! ## Objects and worlds -/

/-- Everything a record of a task holds. -/
structure RecordWithin (std : Standard) (record : TaskRecord) : Prop where
  worker : Within std record.worker
  argument : Within std record.argument

/-- Everything an object hands out is within the standard. -/
def ObjectWithin (std : Standard) : HostObject → Prop
  | .record _ fields _ => ∀ field ∈ fields, Within std field.2
  | .capability _ _ roots => std.authority ∧ ∀ root ∈ roots, Within std root.2
  | .response _ statusCode => std.int statusCode
  | .queue queue => ∀ item ∈ queue.buffer, ∀ value, item = some value → Within std value
  | .tasks scope =>
    (∀ record ∈ scope.slots, RecordWithin std record) ∧
      ∀ value, scope.joinResult = some value → Within std value
  | .decimal _ _ => True
  | .data _ => True

/-- A world within the standard. -/
structure WorldWithin (std : Standard) (world : World) : Prop where
  objects : ∀ address object, world.objects[address]? = some object → std.object address →
    ObjectWithin std object
  fresh : ∀ address, world.objects.length ≤ address → std.object address
  operations : ¬ std.authority → world.operations = std.operations

namespace WorldWithin

variable {world : World} (within : WorldWithin std world)

include within

variable {object : HostObject}

theorem objectOf {value : Value} (holds : Within std value)
    (found : world.objectOf value = some object) : ObjectWithin std object := by
  unfold World.objectOf at found
  split at found
  · exact within.objects _ _ found holds
  · cases found

theorem allocate (holds : ObjectWithin std object) :
    Within std (world.allocate object).1 ∧ WorldWithin std (world.allocate object).2 := by
  refine ⟨within.fresh _ le_rfl, ?_, ?_, within.operations⟩
  · intro address other found admitted
    rcases Nat.lt_or_ge address world.objects.length with old | new
    · rw [show (world.allocate object).2.objects = world.objects ++ [object] from rfl,
        List.getElem?_append_left old] at found
      exact within.objects address other found admitted
    · rw [show (world.allocate object).2.objects = world.objects ++ [object] from rfl,
        List.getElem?_append_right new] at found
      cases mem_singleton.mp (mem_of_getElem? found)
      exact holds
  · intro address later
    refine within.fresh address ?_
    simp only [World.allocate, length_append, length_singleton] at later
    omega

theorem replace {address : Nat} (holds : ObjectWithin std object) :
    WorldWithin std (world.replace address object) := by
  refine ⟨?_, ?_, within.operations⟩
  · intro other found read admitted
    simp only [World.replace, List.getElem?_set] at read
    split at read
    · split at read
      · cases read
        exact holds
      · cases read
    · exact within.objects other found read admitted
  · intro other later
    refine within.fresh other ?_
    simpa [World.replace] using later

theorem write (text : String) : WorldWithin std (world.write text) :=
  ⟨within.objects, within.fresh, within.operations⟩

theorem record (authority : std.authority) (operation : Operation) :
    WorldWithin std (world.record operation) :=
  ⟨within.objects, within.fresh, fun without => absurd authority without⟩

end WorldWithin

/-! ## Capabilities are not carried -/

mutual
/-- What is held is admitted, so a test that no admitted address passes is not passed. -/
theorem anyHeld_false {test : Nat → Bool}
    (refused : ∀ address, std.object address → test address = false) :
    ∀ value, Within std value → anyHeld test value = false
  | .object address, holds => refused address holds
  | .list items, holds => anyHeldItem_false refused items holds
  | .map entries, holds => anyHeldEntry_false refused entries holds
  | .struct _ entries _, holds => anyHeldEntry_false refused entries holds
  | .enum _ _ none _, _ => rfl
  | .enum _ _ (some payload) _, holds => anyHeld_false refused payload holds
  | .unit, _ | .bool _, _ | .int _, _ | .float _, _ | .str _, _ | .error _, _ => rfl
  | .function _ _, _ | .module _, _ | .constructor _, _ | .member _ _, _ | .noPayload, _ => rfl

theorem anyHeldItem_false {test : Nat → Bool}
    (refused : ∀ address, std.object address → test address = false) :
    ∀ items, WithinAll std items → anyHeldItem test items = false
  | [], _ => rfl
  | item :: items, holds => by
    rw [anyHeldItem, anyHeld_false refused item holds.1, anyHeldItem_false refused items holds.2]
    rfl

theorem anyHeldEntry_false {test : Nat → Bool}
    (refused : ∀ address, std.object address → test address = false) :
    ∀ entries, WithinEntries std entries → anyHeldEntry test entries = false
  | [], _ => rfl
  | (_, item) :: entries, holds => by
    rw [anyHeldEntry, anyHeld_false refused item holds.1,
      anyHeldEntry_false refused entries holds.2]
    rfl
end

theorem carries_false (without : ¬ std.authority) {world : World} (within : WorldWithin std world)
    (depth : Nat) (holds : Within std value) : carries world depth value = false := by
  induction depth generalizing value with
  | zero => rfl
  | succ depth ih =>
    refine anyHeld_false (fun address admitted => ?_) value holds
    cases found : world.objects[address]? with
    | none => rfl
    | some object =>
      have inside := within.objects address object found admitted
      cases object with
      | capability => exact absurd inside.1 without
      | record =>
        refine List.any_eq_false.mpr fun field member => ?_
        simp [ih (inside field member)]
      | _ => rfl

end Koschei.Values
