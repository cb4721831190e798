import Koschei.Ast.Evaluate
import Koschei.Core.Plain
import Koschei.Native.Executor

/-!
# Int arithmetic in the three lanes

The interpreter, the canonical executor and the native executor each have their
own copy of the Int operators. All three divide by the quotient of the absolute
values, which is division rounding to zero, and all three answer a zero divisor
and a result out of range by an `Error` value.

The copies differ at one point. The remainder of `INT_MIN` by `-1` is guarded
like the quotient in the interpreter and not guarded in the canonical executor,
which returns 0; the native lane does not admit `%` at all.
-/

namespace Koschei.Lanes

open Lib Native

variable {σ : Type}

/-! ## Truncating division stays in range -/

theorem truncatedQuotient_eq_tdiv (i j : Int) : Mir.truncatedQuotient i j = i.tdiv j := by
  have magnitude : (i.natAbs : Int).tdiv j.natAbs = ((i.natAbs / j.natAbs : Nat) : Int) := by
    rw [Int.tdiv_eq_ediv_of_nonneg (by omega)]
    exact (Int.natCast_ediv _ _).symm
  unfold Mir.truncatedQuotient
  rcases lt_or_ge i 0 with negative | nonnegative
  · have left : i = -(i.natAbs : Int) := by omega
    rcases lt_or_ge j 0 with negative' | nonnegative'
    · have right : j = -(j.natAbs : Int) := by omega
      conv_rhs => rw [left, right, Int.neg_tdiv, Int.tdiv_neg, Int.neg_neg, magnitude]
      simp [negative, negative']
    · have right : j = (j.natAbs : Int) := by omega
      conv_rhs => rw [left, right, Int.neg_tdiv, magnitude]
      simp [negative, not_lt.mpr nonnegative']
  · have left : i = (i.natAbs : Int) := by omega
    rcases lt_or_ge j 0 with negative' | nonnegative'
    · have right : j = -(j.natAbs : Int) := by omega
      conv_rhs => rw [left, right, Int.tdiv_neg, magnitude]
      simp [not_lt.mpr nonnegative, negative']
    · have right : j = (j.natAbs : Int) := by omega
      conv_rhs => rw [left, right, magnitude]
      simp [not_lt.mpr nonnegative, not_lt.mpr nonnegative']

/-- The quotient of two Ints is an Int, `INT_MIN / -1` excepted. -/
theorem inRange_truncatedQuotient {i j : Int} (dividend : InRange i)
    (fits : ¬ (i = intMin ∧ j = -1)) : InRange (Mir.truncatedQuotient i j) := by
  rw [truncatedQuotient_eq_tdiv]
  have magnitude := Int.natAbs_tdiv i j
  unfold InRange intMin intMax at *
  rcases Nat.lt_or_ge 1 j.natAbs with large | small
  · have halved : (i.tdiv j).natAbs ≤ i.natAbs / 2 := by
      rw [magnitude]
      exact Nat.div_le_div_left large (by decide)
    omega
  · have unit : j = 0 ∨ j = 1 ∨ j = -1 := by omega
    rcases unit with rfl | rfl | rfl
    · simp
    · rw [Int.tdiv_one]
      exact dividend
    · rw [Int.tdiv_neg, Int.tdiv_one]
      omega

theorem inRange_remainder {i j : Int} (divisor : InRange j) (nonzero : j ≠ 0) :
    InRange (i - Mir.truncatedQuotient i j * j) := by
  have remainder : i - Mir.truncatedQuotient i j * j = i.tmod j := by
    rw [truncatedQuotient_eq_tdiv, Int.tmod_def, Int.mul_comm]
  rw [remainder]
  have magnitude := Int.natAbs_tmod i j
  have bounded : i.natAbs % j.natAbs < j.natAbs := Nat.mod_lt _ (by omega)
  unfold InRange intMin intMax at *
  omega

theorem checkedQuotient_eq (i j : Int) :
    Native.checkedQuotient i j = Mir.truncatedQuotient i j := rfl

/-! ## Agreement -/

/-- A result an Int operation hands out: an Int in range or a Bool. -/
def Live : Value → Prop
  | .int i => InRange i
  | .bool _ => True
  | _ => False

/-- The lanes return the same Int or Bool, or each returns an `Error`; a lane that does
not admit the operator has no say. -/
def Agreement (store : Store σ) (interpreter executor : Exec σ Value)
    (native : Option (Except Fault NValue)) : Prop :=
  (∃ value, Live value ∧ interpreter store = .ok value store ∧ executor store = .ok value store ∧
    ∀ result ∈ native, result = .ok (Native.constValue value)) ∨
  (∃ message message', interpreter store = .ok (.error message) store ∧
    executor store = .ok (.error message') store ∧
    ∀ result ∈ native, ∃ message'', result = .ok (.error message''))

/-- What the native lane makes of an operator on two Ints, if it admits the operator. -/
def nativeBinary (host : Host) (operator : BinaryOperator) (i j : Int) :
    Option (Except Fault NValue) :=
  if supportedBinary.contains operator then some (Native.binary host operator (.int i) (.int j))
  else none

/-- The lanes agree on a binary operator applied to two Ints. -/
def BinaryAgreement (runtime : Runtime σ) (host : Host) (store : Store σ)
    (operator : BinaryOperator) (i j : Int) : Prop :=
  Agreement store (Ast.interpreterStrict runtime operator (.int i) (.int j))
    (Mir.strictBinary runtime operator (.int i) (.int j)) (nativeBinary host operator i j)

/-- The lanes agree on unary minus applied to an Int. -/
def NegationAgreement (runtime : Runtime σ) (host : Host) (store : Store σ) (i : Int) : Prop :=
  Agreement store (Ast.interpreterUnary runtime .neg (.int i))
    (Mir.unaryValue runtime .neg (.int i)) (some (Native.unary host .neg (.int i)))

section Operators

variable (runtime : Runtime σ) (host : Host) (store : Store σ)

/-- A choice between two values, as a computation. -/
theorem pure_ite_apply {P : Prop} [Decidable P] (first second : Value) :
    (if P then pure first else pure second : Exec σ Value) store =
      .ok (if P then first else second) store := by
  split <;> rfl

variable {result i j : Int}

/-- Lanes that all compute `result` and check it, each with its own text. -/
theorem Agreement.ofChecked {interpreter executor : Exec σ Value}
    {fits : Prop} [Decidable fits] {first second third : String} (inRange : fits → InRange result)
    (interprets : interpreter store = .ok (if fits then .int result else .error first) store)
    (executes : executor store = .ok (if fits then .int result else .error second) store) :
    Agreement store interpreter executor
      (some (.ok (if fits then .int result else .error third))) := by
  by_cases decided : fits
  · left
    refine ⟨.int result, inRange decided, ?_, ?_, ?_⟩
    · simpa only [if_pos decided] using interprets
    · simpa only [if_pos decided] using executes
    · simp only [mem_some_iff, if_pos decided]
      rintro _ rfl
      rfl
  · right
    refine ⟨first, second, ?_, ?_, ?_⟩
    · simpa only [if_neg decided] using interprets
    · simpa only [if_neg decided] using executes
    · simp only [mem_some_iff, if_neg decided]
      rintro _ rfl
      exact ⟨third, rfl⟩

variable {operator : BinaryOperator}

theorem nativeBinary_of_supported (i j : Int)
    (supported : supportedBinary.contains operator = true) :
    nativeBinary host operator i j = some (Native.binary host operator (.int i) (.int j)) := by
  simp only [nativeBinary, supported, if_true]

theorem nativeEqual_int (i j : Int) : Native.equalValue host (.int i) (.int j) = (i == j) := by
  simp [Native.equalValue, NValue.num?, Host.equalNum]

/-- `+`, `-` and `*`: the exact result if it fits, an `Error` otherwise. -/
theorem binaryAgreement_wide (wide : wideResult operator i j = some result) :
    BinaryAgreement runtime host store operator i j := by
  have supported : supportedBinary.contains operator = true := by
    cases operator <;> first | rfl | simp [wideResult] at wide
  have native : nativeBinary host operator i j = some (.ok (if InRange result then .int result
      else .error ("KS3501: Int overflow: '" ++ operator.text ++
        "' exceeded signed 64-bit range"))) := by
    rw [nativeBinary_of_supported host i j supported]
    simp only [Native.binary, wide]
    exact congrArg some (apply_ite Except.ok _ _ _).symm
  unfold BinaryAgreement
  rw [native]
  cases operator <;> simp only [wideResult, some.injEq, reduceCtorEq] at wide <;>
    subst wide <;>
    exact Agreement.ofChecked store id (pure_ite_apply store _ _) (pure_ite_apply store _ _)

/-- `/`: a zero divisor and `INT_MIN / -1` are answered by an `Error` everywhere. -/
theorem binaryAgreement_div (dividend : InRange i) :
    BinaryAgreement runtime host store .div i j := by
  have zeroTest : askLift (fun state => runtime.equal state (.int j) (.int 0)) store =
      .ok (j == 0) store := by
    simp only [askLift, runtime.equal_int]
  by_cases zero : j = 0
  · subst zero
    right
    refine ⟨"Sıfıra bölme", "Sıfıra bölme", ?_, ?_, ?_⟩
    · simp [Ast.interpreterStrict, zeroTest, andThen]
    · simp [Mir.strictBinary, zeroTest, andThen]
    · rw [nativeBinary_of_supported host i 0 rfl]
      simp [Native.binary, wideResult, divisionBinary, nativeEqual_int]
  · have native : nativeBinary host .div i j = some (.ok
        (if ¬ (i = intMin ∧ j = -1) then .int (Mir.truncatedQuotient i j)
        else .error "KS3501: Int taşması: '/' işlemi işaretli 64-bit aralığın dışına çıktı."))
        := by
      rw [nativeBinary_of_supported host i j rfl]
      simp only [Native.binary, wideResult, divisionBinary, nativeEqual_int,
        beq_eq_false_iff_ne.mpr zero, checkedQuotient_eq]
      by_cases edge : i = intMin ∧ j = -1 <;> simp [edge]
    have interprets : Ast.interpreterStrict runtime .div (.int i) (.int j) store = .ok
        (if ¬ (i = intMin ∧ j = -1) then .int (Mir.truncatedQuotient i j)
        else .error ("KS3501: Int taşması: '" ++ "/" ++
          "' işlemi işaretli 64-bit aralığın dışına çıktı.")) store := by
      simp only [Ast.interpreterStrict, bind_apply, zeroTest, andThen,
        beq_eq_false_iff_ne.mpr zero]
      by_cases edge : i = intMin ∧ j = -1 <;> simp [edge, Ast.intOverflow]
    have executes : Mir.strictBinary runtime .div (.int i) (.int j) store = .ok
        (if ¬ (i = intMin ∧ j = -1) then .int (Mir.truncatedQuotient i j)
        else .error "KS3501: Int taşması: '/'") store := by
      simp only [Mir.strictBinary, bind_apply, zeroTest, andThen,
        beq_eq_false_iff_ne.mpr zero]
      by_cases edge : i = intMin ∧ j = -1 <;> simp [edge]
    unfold BinaryAgreement
    rw [native]
    exact Agreement.ofChecked store (inRange_truncatedQuotient dividend) interprets executes

/-- The orderings and the equalities compare Ints as integers in every lane. -/
theorem binaryAgreement_bool {b : Bool}
    (interprets : Ast.interpreterStrict runtime operator (.int i) (.int j) store =
      .ok (.bool b) store)
    (executes : Mir.strictBinary runtime operator (.int i) (.int j) store = .ok (.bool b) store)
    (runs : nativeBinary host operator i j = some (.ok (.bool b))) :
    BinaryAgreement runtime host store operator i j := by
  refine .inl ⟨.bool b, trivial, interprets, executes, ?_⟩
  rw [runs]
  simp only [mem_some_iff]
  rintro _ rfl
  rfl

theorem binaryAgreement_eq (i j : Int) : BinaryAgreement runtime host store .eq i j := by
  refine binaryAgreement_bool runtime host store (b := i == j) ?_ ?_ ?_
  · simp [Ast.interpreterStrict, askLift, runtime.equal_int, andThen]
  · simp [Mir.strictBinary, askLift, runtime.equal_int, andThen]
  · rw [nativeBinary_of_supported host i j rfl]
    simp [Native.binary, wideResult, divisionBinary, plainBinary, nativeEqual_int]

theorem binaryAgreement_ne (i j : Int) : BinaryAgreement runtime host store .ne i j := by
  refine binaryAgreement_bool runtime host store (b := !(i == j)) ?_ ?_ ?_
  · simp [Ast.interpreterStrict, askLift, runtime.equal_int, andThen]
  · simp [Mir.strictBinary, askLift, runtime.equal_int, andThen]
  · rw [nativeBinary_of_supported host i j rfl]
    simp [Native.binary, wideResult, divisionBinary, plainBinary, nativeEqual_int]

def orderingOperator : CompareOp → BinaryOperator
  | .lt => .lt
  | .le => .le
  | .gt => .gt
  | .ge => .ge

theorem binaryAgreement_ordering (op : CompareOp) (i j : Int) :
    BinaryAgreement runtime host store (orderingOperator op) i j := by
  refine binaryAgreement_bool runtime host store (b := Host.applyCompare op i j) ?_ ?_ ?_
  · cases op <;>
      simp [orderingOperator, Ast.interpreterStrict, askLift, runtime.compare_int, andThen]
  · cases op <;>
      simp [orderingOperator, Mir.strictBinary, askLift, runtime.compare_int, andThen]
  · rw [nativeBinary_of_supported host i j (by cases op <;> rfl)]
    cases op <;>
      simp [orderingOperator, Native.binary, wideResult, divisionBinary, plainBinary,
        Native.compareValue, NValue.num?, Host.compareNum, Except.map]

/-- `%`: the guard the executor lacks decides. -/
theorem binaryAgreement_rem_iff (divisor : InRange j) :
    BinaryAgreement runtime host store .rem i j ↔ ¬ (i = intMin ∧ j = -1) := by
  have native : nativeBinary host .rem i j = none := rfl
  unfold BinaryAgreement
  rw [native]
  by_cases edge : i = intMin ∧ j = -1
  · obtain ⟨rfl, rfl⟩ := edge
    have interprets : Ast.interpreterStrict runtime .rem (.int intMin) (.int (-1)) store =
        .ok (Ast.intOverflow "%") store := by
      simp [Ast.interpreterStrict]
    have executes : Mir.strictBinary runtime .rem (.int intMin) (.int (-1)) store =
        .ok (.int 0) store := by
      simp [Mir.strictBinary, Mir.truncatedQuotient, intMin]
    constructor
    · rintro (⟨value, live, first, second, -⟩ | ⟨_, _, -, second, -⟩)
      · rw [interprets] at first
        cases first
        exact live.elim
      · rw [executes] at second
        cases second
    · intro differs
      exact absurd ⟨rfl, rfl⟩ differs
  · refine ⟨fun _ => edge, fun _ => ?_⟩
    by_cases zero : j = 0
    · refine .inr ⟨"Sıfıra bölme", "Sıfıra bölme", ?_, ?_, by simp⟩
      · simp [Ast.interpreterStrict, zero]
      · simp [Mir.strictBinary, zero]
    · refine .inl ⟨.int (i - Mir.truncatedQuotient i j * j), inRange_remainder divisor zero,
        ?_, ?_, by simp⟩
      · simp [Ast.interpreterStrict, zero, edge]
      · simp [Mir.strictBinary, zero]

/-- Unary minus: only `INT_MIN` has no negation. -/
theorem negationAgreement (operand : InRange i) : NegationAgreement runtime host store i := by
  by_cases least : i = intMin
  · refine .inr ⟨"KS3501: Int taşması: '" ++ "unary -" ++
      "' işlemi işaretli 64-bit aralığın dışına çıktı.", "KS3501: Int taşması: 'unary -'",
      ?_, ?_, ?_⟩
    · simp [Ast.interpreterUnary, Ast.intOverflow, least]
    · simp [Mir.unaryValue, least]
    · simp only [mem_some_iff, Native.unary, least, if_true]
      rintro _ rfl
      exact ⟨_, rfl⟩
  · refine .inl ⟨.int (-i), ?_, ?_, ?_, ?_⟩
    · simp only [Live]
      unfold InRange intMin intMax at *
      omega
    · simp [Ast.interpreterUnary, least]
    · simp [Mir.unaryValue, least]
    · simp [Native.unary, least, plainUnary, Native.constValue, NValue.ofScalar]

/-- **The three lanes agree on Int arithmetic except at `INT_MIN % -1`.** For two Ints of
the signed 64-bit range and every operator but `&&` and `||`, the lanes return the same
Int in range or the same Bool, or each returns an `Error`, and unary minus likewise,
exactly when the operation is not the remainder of `INT_MIN` by `-1`. -/
theorem intArithmetic_agrees_iff {operator : BinaryOperator} {i j : Int}
    (strict : operator ≠ .and ∧ operator ≠ .or) (left : InRange i) (right : InRange j) :
    (BinaryAgreement runtime host store operator i j ∧
      NegationAgreement runtime host store i ∧ NegationAgreement runtime host store j) ↔
    ¬ (operator = .rem ∧ i = intMin ∧ j = -1) := by
  have negations : NegationAgreement runtime host store i ∧
      NegationAgreement runtime host store j :=
    ⟨negationAgreement runtime host store left, negationAgreement runtime host store right⟩
  have always (agrees : BinaryAgreement runtime host store operator i j)
      (other : operator ≠ .rem) :
      (BinaryAgreement runtime host store operator i j ∧
        NegationAgreement runtime host store i ∧ NegationAgreement runtime host store j) ↔
      ¬ (operator = .rem ∧ i = intMin ∧ j = -1) :=
    ⟨fun _ edge => other edge.1, fun _ => ⟨agrees, negations⟩⟩
  cases operator with
  | add => exact always (binaryAgreement_wide runtime host store rfl) (by decide)
  | sub => exact always (binaryAgreement_wide runtime host store rfl) (by decide)
  | mul => exact always (binaryAgreement_wide runtime host store rfl) (by decide)
  | div => exact always (binaryAgreement_div runtime host store left) (by decide)
  | eq => exact always (binaryAgreement_eq runtime host store i j) (by decide)
  | ne => exact always (binaryAgreement_ne runtime host store i j) (by decide)
  | lt => exact always (binaryAgreement_ordering runtime host store .lt i j) (by decide)
  | le => exact always (binaryAgreement_ordering runtime host store .le i j) (by decide)
  | gt => exact always (binaryAgreement_ordering runtime host store .gt i j) (by decide)
  | ge => exact always (binaryAgreement_ordering runtime host store .ge i j) (by decide)
  | rem =>
    constructor
    · rintro ⟨agrees, -⟩ ⟨-, edge⟩
      exact (binaryAgreement_rem_iff runtime host store right).mp agrees edge
    · intro inside
      refine ⟨(binaryAgreement_rem_iff runtime host store right).mpr ?_, negations⟩
      exact fun edge => inside ⟨rfl, edge⟩
  | and => exact absurd rfl strict.1
  | or => exact absurd rfl strict.2

end Operators

/-- The product of `INT_MIN` and `-1` is an `Error` in every lane. -/
theorem intArithmetic_agrees_product :
    (BinaryAgreement plainRuntime integerHost emptyStore .mul intMin (-1) ∧
      NegationAgreement plainRuntime integerHost emptyStore intMin ∧
      NegationAgreement plainRuntime integerHost emptyStore (-1)) ↔
    ¬ (BinaryOperator.mul = .rem ∧ intMin = intMin ∧ (-1 : Int) = -1) :=
  intArithmetic_agrees_iff plainRuntime integerHost emptyStore (by decide) (by decide)
    (by decide)

/-- `INT_MIN % -1` is an `Error` in the interpreter and 0 in the canonical executor. -/
theorem remainder_of_intMin_disagrees : InRange intMin ∧ InRange (-1) ∧
      Ast.interpreterStrict plainRuntime .rem (.int intMin) (.int (-1)) emptyStore =
        .ok (Ast.intOverflow "%") emptyStore ∧
      Mir.strictBinary plainRuntime .rem (.int intMin) (.int (-1)) emptyStore =
        .ok (.int 0) emptyStore ∧
      ¬ BinaryAgreement plainRuntime integerHost emptyStore .rem intMin (-1) := by
  refine ⟨by decide, by decide, rfl, rfl, ?_⟩
  rw [binaryAgreement_rem_iff plainRuntime integerHost emptyStore (by decide)]
  exact fun outside => outside ⟨rfl, rfl⟩

end Koschei.Lanes
