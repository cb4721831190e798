import Koschei.Values.Plain
import Koschei.Values.Upheld

/-!
# Ints stay in range, as long as `to_int` reads no larger number

Literals, arithmetic, remainder, negation, lengths, queue and task counts and the
reductions of Lists and Maps yield an Int in the signed 64-bit range or an Error.
Two operations do not look at the range: `String.to_int`, which hands on whatever
number the host reads, and the host's own `+`, `-` and `*`, which count a Bool
operand as a number. In a run whose steps keep to it there, every state that is
reached and every value that is computed does.
-/

namespace Koschei.Values

open Lib Ast

/-- Ints are in range; nothing else is asked. -/
def rangeStandard : Standard where
  int := InRange
  object _ := True
  authority := True
  operations := []
  inRange _ := id
  orOut := .inr fun _ => id

/-- A value all of whose Ints are in range, at any depth. -/
abbrev IntsInRange (value : Value) : Prop := Within rangeStandard value

/-- A world all of whose objects hold Ints in range only. -/
abbrev WorldInRange (world : World) : Prop := WorldWithin rangeStandard world

/-- A state of the interpreter with Ints in range only: those of the host and those in scope. -/
def StateInRange (state : State World) : Prop := WorldInRange state.store.host ∧
    ∀ scope ∈ state.scopes, ∀ entry ∈ scope, IntsInRange entry.2.value

/-- The number `to_int` reads is in range, if that is what is called. -/
def readsInRange (outside : Outside) : Value → Bool
  | .member (.str text) name =>
    name != "to_int" ||
      match Datum.int? outside.library (strip text.toList) with
      | some i => decide (InRange i)
      | none => true
  | _ => true

/-- The sum, difference or product the host forms of two numbers, one of them a Bool, is in
range. -/
def countsInRange (operator : BinaryOperator) (left right : Value) : Bool := match left, right with
  | .int _, .int _ => true
  | left, right =>
    match left.num?, right.num? with
    | some (.int i), some (.int j) =>
      match operator with
      | .add => decide (InRange (i + j))
      | .sub => decide (InRange (i - j))
      | .mul => decide (InRange (i * j))
      | _ => true
    | _, _ => true

/-- `to_int` is called on texts of numbers in range only, and Bools are not counted out of
range. -/
def rangeConditions (outside : Outside) (stop : Fault) : Conditions World where
  stop := stop
  invoke _ callee _ := readsInRange outside callee
  operands := countsInRange
  write _ _ _ _ := true

def rangeWatch : Watch World := ⟨StateInRange, IntsInRange⟩

/-- The way a call ends: with Ints in range only, in its result and in the world. -/
def EndsInRange : Outcome Fault (Store World) Value → Prop
  | .ok value store => IntsInRange value ∧ WorldInRange store.host
  | .raise _ store => WorldInRange store.host
  | .timeout => True

variable {outside : Outside} {declared : Declared} {op : ArithOp} {left right : Value} {i : Int}

/-- Where the host's arithmetic makes an Int, it counts two numbers. -/
theorem arithValue_int (run : outside.host.arithValue op left right = .ok (.int i)) :
    ∃ a b, left.num? = some (.int a) ∧ right.num? = some (.int b) ∧
      outside.host.arithNum op (.int a) (.int b) = .ok (.int i) := by
  have double {op : ArithOp} {a b : Num} : outside.host.arith op a b ≠ .ok (.int i) := by
    intro run
    obtain ⟨bits, -, same⟩ := map_eq_ok run
    cases same
  unfold Host.arithValue at run
  split at run
  · rename_i a b first second
    cases a with
    | float bits => exact absurd run double
    | int a =>
      cases b with
      | float bits => exact absurd run double
      | int b => exact ⟨a, b, first, second, run⟩
  · split at run
    · cases run
    · cases run
    all_goals
      first
      | cases run
      | (split at run <;> cases run)

theorem readable_of_met {text : String}
    (met : readsInRange outside (.member (.str text) "to_int") = true) :
    Readable rangeStandard outside text := by
  intro i read
  have inside : InRange i := by simpa [readsInRange, read] using met
  exact inside

theorem number_inRange {operator : BinaryOperator}
    (met : countsInRange operator left right = true) (which : arithOf operator = some op)
    (other : NotBothInts left right)
    (run : outside.host.arithValue op left right = .ok (.int i)) : InRange i := by
  obtain ⟨a, b, first, second, counted⟩ := arithValue_int run
  unfold countsInRange at met
  split at met
  · exact absurd rfl (other _ _ rfl)
  · simp only [first, second] at met
    cases operator with
    | add =>
      cases which
      cases counted
      exact of_decide_eq_true met
    | sub =>
      cases which
      cases counted
      exact of_decide_eq_true met
    | mul =>
      cases which
      cases counted
      exact of_decide_eq_true met
    | div =>
      cases which
      obtain ⟨bits, -, same⟩ := map_eq_ok counted
      cases same
    | _ => cases which

theorem rangeConditions_keepsNumbers (outside : Outside) {stop : Fault}
    (foreign : isKoscheiFault stop = false) :
    KeepsNumbers rangeStandard outside (rangeConditions outside stop) where
  foreign := foreign
  readable world callee arguments met text same := by
    subst same
    exact readable_of_met met
  number operator op left right i which met other run := number_inRange met which other run

/-- What happens to a result out of range: every operation on Ints yields an Error. -/
structure RefusesOutOfRange (runtime : Runtime World) : Prop where
  literal : ∀ i, ¬ InRange i → ∃ message, interpreterLiteral (.int i) = .error message
  sum : ∀ i j, ¬ InRange (i + j) →
    interpreterStrict runtime .add (.int i) (.int j) = pure (intOverflow "+")
  difference : ∀ i j, ¬ InRange (i - j) →
    interpreterStrict runtime .sub (.int i) (.int j) = pure (intOverflow "-")
  product : ∀ i j, ¬ InRange (i * j) →
    interpreterStrict runtime .mul (.int i) (.int j) = pure (intOverflow "*")
  quotient : ∀ i j store, InRange i → ¬ InRange (Mir.truncatedQuotient i j) →
    interpreterStrict runtime .div (.int i) (.int j) store = .ok (intOverflow "/") store
  negation : ∀ i, InRange i → ¬ InRange (-i) →
    interpreterUnary runtime .neg (.int i) = pure (intOverflow "unary -")
  listSum : ∀ i rest total, ¬ InRange (total + i) →
    ∃ message, sumInts (i :: rest) total = resultError message
  mapAdd : ∀ outside entries key i j, entries.lookup key = some (.int i) → ¬ InRange (i + j) →
    ∃ message, addEntry outside entries key (.int j) = .ok (.error message)

theorem runtime_refusesOutOfRange (outside : Outside) (declared : Declared) :
    RefusesOutOfRange (runtime outside declared) where
  literal i wide := ⟨_, if_neg wide⟩
  sum i j wide := if_neg wide
  difference i j wide := if_neg wide
  product i j wide := if_neg wide
  quotient i j store dividend wide := by
    have edge : i = intMin ∧ j = -1 := by
      by_contra other
      exact wide (Lanes.inRange_truncatedQuotient dividend other)
    obtain ⟨rfl, rfl⟩ := edge
    simp only [interpreterStrict, askLift, runtime, outside.equal_int, bind_apply]
    rfl
  negation i operand wide := by
    have least : i = intMin := by
      unfold InRange intMin intMax at *
      omega
    exact if_pos least
  listSum i rest total wide := ⟨_, if_neg wide⟩
  mapAdd outside entries key i j known wide := by
    unfold addEntry
    simp only [known]
    exact ⟨_, if_neg wide⟩

/-- In every run whose steps keep to the range where the code does not look at it, whether it
ends or not, every state that is reached and every value that is computed is in range: the
watched run is the interpreter's, and it ends in range. An operation with a result out of range
yields an Error. -/
theorem ints_stay_inRange (outside : Outside) (declared : Declared)
    (inference : Inference World) (program : Program) (fuel : Nat) (moduleKey name : String)
    (arguments : List Value) (store : Store World) (parsed : program.Parsed)
    (inputs : ∀ argument ∈ arguments, IntsInRange argument) (start : WorldInRange store.host)
    (stop : Fault) (foreign : isKoscheiFault stop = false)
    (met : ∀ after, guardedCall (rangeConditions outside stop)
      ⟨runtime outside declared, inference, program⟩ fuel moduleKey name arguments store ≠
        .raise stop after) :
    watchedCall rangeWatch ⟨runtime outside declared, inference, program⟩ fuel moduleKey name
        arguments store =
      callFunction Lane.interpreter ⟨runtime outside declared, inference, program⟩ fuel moduleKey
        name arguments store ∧
      EndsInRange (callFunction Lane.interpreter ⟨runtime outside declared, inference, program⟩
        fuel moduleKey name arguments store) ∧
      RefusesOutOfRange (runtime outside declared) := by
  have upholds := runtime_upholds (rangeConditions_keepsNumbers outside foreign) declared
  have states (state : State World)
      (holds : StateKept (Within rangeStandard) (WorldWithin rangeStandard) state) :
      rangeWatch.state state := holds
  have values (value : Value) (holds : Within rangeStandard value) : rangeWatch.value value := holds
  have seen : CallKeeps stop (Within rangeStandard) (WorldWithin rangeStandard)
      (guardedCall (rangeConditions outside stop) ⟨runtime outside declared, inference, program⟩ fuel)
      (watchedCall rangeWatch ⟨runtime outside declared, inference, program⟩ fuel) :=
    guardedCall_watched upholds states values parsed fuel
  have plain : CallKeeps stop (Within rangeStandard) (WorldWithin rangeStandard)
      (guardedCall (rangeConditions outside stop) ⟨runtime outside declared, inference, program⟩ fuel)
      (callFunction Lane.interpreter ⟨runtime outside declared, inference, program⟩ fuel) :=
    guardedCall_keeps upholds parsed fuel
  rcases plain moduleKey name arguments inputs store start with ⟨after, stopped⟩ | ⟨same, ended⟩
  · exact absurd stopped (met after)
  · rcases seen moduleKey name arguments inputs store start with ⟨after, stopped⟩ | ⟨watched, -⟩
    · exact absurd stopped (met after)
    · refine ⟨watched.symm.trans same, ?_, runtime_refusesOutOfRange outside declared⟩
      rw [← same]
      revert ended
      cases guardedCall (rangeConditions outside stop) ⟨runtime outside declared, inference, program⟩
        fuel moduleKey name arguments store with
      | ok value after => exact id
      | raise fault after => exact fun both => both.2
      | timeout => exact id

/-- `fn main() { return "12".to_int() }`, for any text. -/
def readsInt (text : String) : FunctionDeclaration := plainFunction "main" [] []
    [.ret (some (.call (.member (.literal (.str text) .string) "to_int" .unknown) [] .plain
      (.named "Int")))]

theorem readsInt_parsed (text : String) : (plainSetting [readsInt text]).program.Parsed := by
  intro module listed function declared
  rw [mem_singleton.mp listed] at declared
  rw [mem_singleton.mp declared]
  exact ⟨⟨trivial, trivial⟩, trivial⟩

theorem emptyWorld_inRange : WorldInRange emptyWorld :=
  ⟨by simp [emptyWorld], fun _ _ => trivial, fun without => absurd trivial without⟩

/-- A text of a number in range is read in range. -/
theorem ints_stay_inRange_twelve :
    EndsInRange (callFunction Lane.interpreter (plainSetting [readsInt "12"]) 5 "main" "main" []
      ⟨emptyWorld, [], 0⟩) := by
  refine (ints_stay_inRange plainOutside plainDeclared plainInference
    (plainSetting [readsInt "12"]).program 5 "main" "main" [] ⟨emptyWorld, [], 0⟩
    (readsInt_parsed "12") (by simp) emptyWorld_inRange ⟨"unmet", ""⟩ rfl ?_).2.1
  intro after stopped
  have run : guardedCall (rangeConditions plainOutside ⟨"unmet", ""⟩)
      (plainSetting [readsInt "12"]) 5 "main" "main" [] ⟨emptyWorld, [], 0⟩ =
        .ok (.int 12) ⟨emptyWorld, [], 0⟩ := rfl
  exact absurd (run.symm.trans stopped) (by simp)

/-- `to_int` reads 2^63. -/
theorem to_int_leaves_range :
    ¬ EndsInRange (callFunction Lane.interpreter (plainSetting [readsInt "9223372036854775808"]) 5
      "main" "main" [] ⟨emptyWorld, [], 0⟩) := by
  have run : callFunction Lane.interpreter (plainSetting [readsInt "9223372036854775808"]) 5
      "main" "main" [] ⟨emptyWorld, [], 0⟩ =
        .ok (.int 9223372036854775808) ⟨emptyWorld, [], 0⟩ := rfl
  rw [run]
  rintro ⟨within, -⟩
  exact absurd within.2 (by decide)

end Koschei.Values
