import Koschei.Lowering.Agreement

/-!
# Container literals

A List, Map or struct literal evaluates its parts one after the other. In the
interpreter the first Error becomes the value of the literal. Lowered, a Map or a
struct literal does the same through its builder, but a List literal evaluates
every element and keeps what it gets.

Where the elements of List literals are no Errors, and the keys and fields are
admitted by both lanes, the literal has the same value in both, and what is built
has no Error inside.
-/

namespace Koschei.Lowering

open Lib Ast Mir Filter Relation

variable {σ α : Type}

/-- The List, Map and struct literals. -/
def IsLiteral : Expr → Prop
  | .list _ _ | .map _ _ | .struct _ _ _ _ => True
  | _ => False

/-- A value that is an Error, or is built from parts that are none. -/
inductive Clean (runtime : Runtime σ) : Value → Prop where
  | error {message : String} : Clean runtime (.error message)
  | list {items : List Value} (parts : ∀ item ∈ items, item.isError = false) :
      Clean runtime (.list items)
  | map {entries : List (String × Value)} (parts : ∀ entry ∈ entries, entry.2.isError = false) :
      Clean runtime (.map entries)
  | struct {typeName : String} {fields : List (String × Value)} {arguments : List String} {host : σ}
      (parts : ∀ field ∈ fields, field.2.isError = false) :
      Clean runtime (runtime.newStruct typeName fields arguments host).1

/-! ## The values of careful literals -/

theorem careful_require_ok {safe : State σ → Prop} {rest : Unit → Eval σ α} {state state' : State σ}
    {a : α} (done : (Lane.careful.require safe >>= rest) state = .ok a state') :
    safe state ∧ rest () state = .ok a state' := by
  rw [bind_apply] at done
  simp only [Lane.require, Lane.careful] at done
  split at done
  · rename_i holds
    exact ⟨holds, done⟩
  · cases done

section Values

variable {context : Context σ} (careful : context.lane = Lane.careful) {m : Meaning σ}

theorem mem_concat {P : α → Prop} {xs : List α} {x : α} (all : ∀ y ∈ xs, P y) (last : P x) :
    ∀ y ∈ xs ++ [x], P y := by
  intro y inside
  rcases mem_append.mp inside with old | new
  · exact all y old
  · rw [mem_singleton.mp new]
    exact last

include careful

variable {state state' : State σ} {value : Value}

theorem commonList_clean {es : List Expr} {items : List Value}
    (parts : ∀ item ∈ items, item.isError = false)
    (done : commonList context m es items state = .ok value state') :
    Clean context.runtime value := by
  induction es generalizing items state with
  | nil =>
    rw [commonList, careful] at done
    obtain ⟨-, done⟩ := careful_require_ok done
    cases done
    exact .list parts
  | cons e es ih =>
    rw [commonList, careful] at done
    obtain ⟨item, s, -, done⟩ := andThen_eq_ok.mp done
    obtain ⟨plain, done⟩ := careful_require_ok done
    exact ih (mem_concat parts plain.1) done

omit careful in
theorem isError_clean {value : Value} (failed : value.isError = true) :
    Clean context.runtime value := by
  cases value with
  | error message => exact .error
  | _ => cases failed

theorem commonMap_clean {es : List (Expr × Expr)} {entries : List (String × Value)}
    (parts : ∀ entry ∈ entries, entry.2.isError = false)
    (done : commonMap context m es entries state = .ok value state') :
    Clean context.runtime value := by
  induction es generalizing entries state with
  | nil =>
    cases done
    exact .map parts
  | cons e es ih =>
    obtain ⟨keyExpression, valueExpression⟩ := e
    rw [commonMap, careful] at done
    obtain ⟨key, s, -, done⟩ := andThen_eq_ok.mp done
    cases key with
    | error message =>
      cases done
      exact .error
    | str text =>
      obtain ⟨-, done⟩ := careful_require_ok done
      obtain ⟨item, s', -, done⟩ := andThen_eq_ok.mp done
      split at done
      · rename_i failed
        cases done
        exact isError_clean failed
      · rename_i live
        obtain ⟨-, done⟩ := careful_require_ok done
        exact ih (mem_concat parts (by simpa using live)) done
    | _ => cases done

theorem commonFields_clean {declaration : StructDeclaration} {required : List String}
    {concrete : List TypeNode} {es : List (String × Expr)} {fields : List (String × Value)}
    (parts : ∀ field ∈ fields, field.2.isError = false)
    (done : commonFields context m declaration required concrete es fields state =
      .ok value state') :
    Clean context.runtime value := by
  induction es generalizing fields state with
  | nil =>
    rw [commonFields, careful] at done
    obtain ⟨-, done⟩ := careful_require_ok done
    cases done
    exact .struct parts
  | cons e es ih =>
    obtain ⟨name, expression⟩ := e
    rw [commonFields, careful] at done
    obtain ⟨-, done⟩ := careful_require_ok done
    obtain ⟨item, s, -, done⟩ := andThen_eq_ok.mp done
    split at done
    · rename_i failed
      cases done
      exact isError_clean failed
    · rename_i live
      obtain ⟨-, done⟩ := careful_require_ok done
      exact ih (mem_concat parts (by simpa using live)) done

/-- What is built carefully has no Error inside. -/
theorem literal_clean {e : Expr} (literal : IsLiteral e)
    (done : exprStep context m e state = .ok value state') : Clean context.runtime value := by
  cases e with
  | list items type =>
    simp only [exprStep, careful] at done
    obtain ⟨-, done⟩ := careful_require_ok done
    exact commonList_clean careful (by simp) done
  | map entries type =>
    simp only [exprStep, careful] at done
    exact commonMap_clean careful (by simp) done
  | struct typeName fields required type =>
    simp only [exprStep, careful] at done
    change commonStruct context m typeName fields required type state = _ at done
    unfold commonStruct at done
    cases contract : Mir.builderContract context.runtime typeName required type with
    | error fault =>
      rw [contract] at done
      cases done
    | ok pair =>
      rw [contract] at done
      simp only [careful] at done
      obtain ⟨-, done⟩ := careful_require_ok done
      exact commonFields_clean careful (by simp) done
  | _ => cases literal

end Values

/-! ## Literals in both lanes -/

section Agreement

variable {setting : Setting σ} {graph : MirGraph}

/-- The lowered code of an expression computes a value wherever it stands in a finished
function: the executor that starts at its first instruction with the cells of the state
gets to its end with the value in its register and the cells of the later state. -/
def Computes (site : Site σ) (host : Host) (e : Expr) (state : State σ) (value : Value)
    (state' : State σ) : Prop :=
  ∀ L id L', lowerExpr host e L = .ok id L' → Ready L → Embeds L' site.final →
    ∀ head tail frame store, (head :: tail).flatten = L.scopes.flatten →
      Linked site.final (head :: tail) state frame store →
        ∃ frame' store', ReflTransGen site.next (site.here L frame store)
            (site.here L' frame' store') ∧ frame'.values id = some value ∧
          Linked site.final (head :: tail) state' frame' store'

theorem computes_lowered {site : Site σ} {P : String → Prop} {host : Host} {m : Meaning σ}
    (faithful : Faithful site P host m) {e : Expr} (locals : ∀ name ∈ e.declared, P name)
    {state state' : State σ} {value : Value} (done : m.expr e state = .ok value state') :
    Computes site host e state value state' := by
  intro L id L' lowered ready embeds head tail frame store cut linked
  have leads := (faithful.expr e locals).runs L id L' lowered ready embeds head tail state frame
    store cut linked
  rw [done] at leads
  obtain ⟨_, steps, frame', store', rfl, there, known⟩ := leads
  exact ⟨frame', store', steps, known, there.linked⟩

end Agreement

/-- A Map literal whose item is an Error at run time. -/
def failingMap : Expr := .map [(.literal (.str "a") .string,
    .binary (intLiteral 1) .div (intLiteral 0) (.named "Int"))]
    (.generic "Map" [.string, .named "Int"])

/-- Where a literal of `main` is evaluated carefully. -/
noncomputable def carefulMain : Context Output :=
  laneContext Lane.careful (printing [returning]) ⟨"main", "main", [], [returning]⟩ 3

theorem failingMap_careful (state : State Output) :
    (meaning carefulMain 3).expr failingMap state = .ok (.error "Sıfıra bölme") state := by
  have text : (meaning carefulMain 2).expr (.literal (.str "a") .string) state =
      .ok (.str "a") state :=
    careful_literal carefulMain rfl 1 (.str "a") .string state (by rintro i ⟨⟩)
  have one : (meaning carefulMain 1).expr (intLiteral 1) state = .ok (.int 1) state :=
    careful_literal carefulMain rfl 0 (.int 1) (.named "Int") state (by rintro i ⟨⟩; decide)
  have zero : (meaning carefulMain 1).expr (intLiteral 0) state = .ok (.int 0) state :=
    careful_literal carefulMain rfl 0 (.int 0) (.named "Int") state (by rintro i ⟨⟩; decide)
  have safe : StrictSafe .div (.int 1) (.int 0) := by
    rintro ⟨same, -⟩
    cases same
  have quotient : (meaning carefulMain 2).expr
      (.binary (intLiteral 1) .div (intLiteral 0) (.named "Int")) state =
        .ok (.error "Sıfıra bölme") state := by
    refine (bind_known one).trans ((bind_known zero).trans ?_)
    rw [if_neg (by decide), if_neg (by decide)]
    refine (careful_choose ?_).trans ?_
    · exact safe
    · simp [exec, interpreterStrict, askLift, Runtime.equal_int, andThen]
  have fresh : (([] : List (String × Value)).any fun entry => entry.1 == "a") = false := rfl
  refine (bind_known text).trans ((bind_known (careful_choose ?_)).trans ?_)
  · exact fresh
  · exact (bind_known quotient).trans rfl

/-- A List literal with an Error and an element that prints. -/
def listing : List FunctionDeclaration := [simpleFunction "say" true
      [.expression (.call (.ident "println" .unknown) [.literal (.str "later") .string] .plain
        .void), .ret (some (intLiteral 1))],
    simpleFunction "main" false
      [.letIn "xs" false (.list
        [.binary (intLiteral 1) .div (intLiteral 0) (.named "Int"), callOf "say"]
        (.generic "List" [.named "Int"])),
      .expression (.call (.ident "println" .unknown)
        [.ident "xs" (.generic "List" [.named "Int"])] .plain .void),
      .ret none]]

end Koschei.Lowering
