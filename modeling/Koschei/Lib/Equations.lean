import Koschei.Lib.DepthFirst

/-!
# Equations between named values

A system gives every name an equation: a value computed from the values of other
names. It is solved in an order in which the names an equation depends on stand
before it. The values found are the only ones that satisfy the equations, so
they do not depend on the order.
-/

namespace Koschei.Lib.Equations

open Koschei.Lib.DepthFirst

variable {K V ε : Type} [DecidableEq K]

/-- The values of the names in their order, each from those found before it. -/
def fill (solve : K → (K → Option V) → Except ε V) : List K → List (K × V) → Except ε (List (K × V))
  | [], values => .ok values
  | name :: names, values => do
    let value ← solve name fun other => values.lookup other
    fill solve names ((name, value) :: values)

/-- Values that satisfy the equations of some names. -/
def Solution (solve : K → (K → Option V) → Except ε V) (names : List K) (values : K → Option V) :
    Prop :=
  ∀ name ∈ names, ∃ value, solve name values = .ok value ∧ values name = some value

/-- An equation looks only at the values of the names it depends on. -/
def Local (next : K → Option (List K)) (solve : K → (K → Option V) → Except ε V) : Prop :=
  ∀ name dependencies, next name = some dependencies → ∀ first second : K → Option V,
    (∀ other ∈ dependencies, first other = second other) → solve name first = solve name second

variable {next : K → Option (List K)} {solve : K → (K → Option V) → Except ε V}

theorem lookup_cons_ne {values : List (K × V)} {name other : K} (value : V) (differs : other ≠ name) :
    ((name, value) :: values).lookup other = values.lookup other := by
  rw [lookup_cons, beq_false_of_ne differs]

theorem lookup_cons_same (values : List (K × V)) (name : K) (value : V) :
    ((name, value) :: values).lookup name = some value := by
  rw [lookup_cons, beq_self_eq_true]

variable {first second : K → Option V}

omit [DecidableEq K] in
/-- Two lists of values that agree before an equation give it the same value. -/
theorem solve_congr (here : Local next solve) {before after : List K} {name : K}
    (closed : Closed next (before ++ name :: after))
    (agree : ∀ other ∈ before, first other = second other) : solve name first = solve name second := by
  obtain ⟨dependencies, known, subset⟩ := closed before name after rfl
  exact here name dependencies known first second fun other inside => agree other (subset inside)

theorem fill_of_solution (here : Local next solve) {values : K → Option V} (names before : List K)
    (closed : Closed next (before ++ names)) (solution : Solution solve (before ++ names) values)
    {found : List (K × V)} (agree : ∀ other ∈ before, found.lookup other = values other) :
    ∃ result, fill solve names found = .ok result ∧
      ∀ other ∈ before ++ names, result.lookup other = values other := by
  induction names generalizing before found with
  | nil => exact ⟨found, rfl, by simpa using agree⟩
  | cons name names ih =>
    obtain ⟨value, solved, isValue⟩ := solution name (mem_append_right _ mem_cons_self)
    have solved' : solve name (fun other => found.lookup other) = .ok value :=
      (solve_congr here closed agree).trans solved
    rw [append_cons] at closed solution ⊢
    obtain ⟨result, ran, final⟩ := @ih (before ++ [name]) closed solution ((name, value) :: found) (by
      intro other inside
      by_cases same : other = name
      · rw [same, lookup_cons_same, isValue]
      · rw [lookup_cons_ne value same]
        exact agree other ((mem_append.mp inside).resolve_right (by simpa using same)))
    exact ⟨result, (bind_of_ok solved').trans ran, final⟩

/-- The values that are found satisfy the equations. -/
theorem solution_of_fill (here : Local next solve) (names before : List K)
    (closed : Closed next (before ++ names)) (nodup : (before ++ names).Nodup)
    {found result : List (K × V)} (solution : Solution solve before fun other => found.lookup other)
    (ran : fill solve names found = .ok result) :
    Solution solve (before ++ names) fun other => result.lookup other := by
  induction names generalizing before found with
  | nil =>
    cases ran
    simpa using solution
  | cons name names ih =>
    obtain ⟨value, solved, rest⟩ := bind_eq_ok ran
    have fresh : name ∉ before := fun inside =>
      (nodup_append.mp nodup).2.2 name inside name mem_cons_self rfl
    have agree : ∀ other ∈ before,
        ((name, value) :: found).lookup other = found.lookup other := fun other inside =>
      lookup_cons_ne value fun same => fresh (same ▸ inside)
    rw [append_cons] at closed nodup ⊢
    refine ih (before ++ [name]) closed nodup ?_ rest
    intro other inside
    rcases mem_append.mp inside with earlier | isName
    · obtain ⟨theirs, solvedBefore, isTheirs⟩ := solution other earlier
      refine ⟨theirs, ?_, (agree other earlier).trans isTheirs⟩
      obtain ⟨front, back, rfl⟩ := append_of_mem earlier
      have split : Closed next (front ++ other :: (back ++ [name] ++ names)) := by
        simpa using closed
      refine (solve_congr here split fun dependency isEarlier => ?_).trans solvedBefore
      exact agree dependency (mem_append_left _ isEarlier)
    · rw [mem_singleton] at isName
      subst isName
      refine ⟨value, ?_, lookup_cons_same found other value⟩
      have split : Closed next (before ++ other :: names) := by simpa using closed
      exact (solve_congr here split agree).trans solved

omit [DecidableEq K] in
/-- The equations have one solution at most. -/
theorem Solution.unique (here : Local next solve)
    (names before : List K) (closed : Closed next (before ++ names))
    (one : Solution solve (before ++ names) first) (other : Solution solve (before ++ names) second)
    (agree : ∀ name ∈ before, first name = second name) :
    ∀ name ∈ before ++ names, first name = second name := by
  induction names generalizing before with
  | nil => simpa using agree
  | cons name names ih =>
    have member : name ∈ before ++ name :: names := mem_append_right _ mem_cons_self
    obtain ⟨value, solved, isValue⟩ := one name member
    obtain ⟨value', solved', isValue'⟩ := other name member
    have same : value = value' :=
      ok.inj (solved.symm.trans ((solve_congr here closed agree).trans solved'))
    rw [append_cons] at closed one other ⊢
    refine ih (before ++ [name]) closed one other fun next inside => ?_
    rcases mem_append.mp inside with earlier | isName
    · exact agree next earlier
    · rw [mem_singleton.mp isName, isValue, isValue', same]

/-- Solving the equations in an order that is closed ends with values exactly when there are values
that satisfy them, and then with those. -/
theorem fill_iff (here : Local next solve) {order : List K} (closed : Closed next order)
    (nodup : order.Nodup) :
    (∃ result, fill solve order [] = .ok result) ↔ ∃ values, Solution solve order values := by
  constructor
  · rintro ⟨result, ran⟩
    exact ⟨_, solution_of_fill here order [] closed nodup (fun _ inside => by cases inside) ran⟩
  · rintro ⟨values, solution⟩
    obtain ⟨result, ran, -⟩ := @fill_of_solution _ _ _ _ next solve here values order [] closed
      solution [] fun _ inside => by cases inside
    exact ⟨result, ran⟩

end Koschei.Lib.Equations
