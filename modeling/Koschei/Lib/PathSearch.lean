import Koschei.Lib.Names
import Mathlib.Data.Set.Finite.Lattice
import Mathlib.Order.Filter.AtTopBot.Basic

/-!
# Searches that remember the path

A search for a goal goes into the parts of a node first, and opens the node after
that, where it has an inside. A node is not opened below a node of the same key. The
search stops at the first goal, and gives no answer when its fuel runs out.

`Finds` says that a goal is reached, and `Asks` which search is run within which. An
answer says whether a goal is reached (`search_answer`). The search answers exactly where
the nodes it runs at have finitely many keys (`search_answers_iff`): within finitely
many keys every search run inside another has fewer keys left to open or a smaller
node, and an answer is given after finitely many searches.
-/

namespace Koschei.Lib

open Filter Relation

/-- What a search looks at: its goals, the smaller parts of a node, the nodes inside it and
its key. -/
structure Landscape (N K : Type*) [SizeOf N] where
  goal : N → Bool
  parts : N → List N
  inside : N → Option (List N)
  key : N → K
  part_smaller : ∀ {n part}, part ∈ parts n → sizeOf part < sizeOf n

namespace Landscape

variable {N K : Type*} [SizeOf N] (L : Landscape N K)

/-- A goal is reached from the node, below the keys of the path. -/
inductive Finds : List K → N → Prop where
  | goal {path : List K} {n : N} : L.goal n = true → Finds path n
  | part {path : List K} {n part : N} : part ∈ L.parts n → Finds path part → Finds path n
  | inside {path : List K} {n node : N} {nodes : List N} : L.inside n = some nodes →
      L.key n ∉ path → node ∈ nodes → Finds (L.key n :: path) node → Finds path n

/-- A node of the list is looked at, since no goal is reached from those before it. -/
def Turn (path : List K) (nodes : List N) (node : N) : Prop :=
  ∃ before after, nodes = before ++ node :: after ∧ ∀ other ∈ before, ¬ L.Finds path other

/-- The search at the first node runs one at the second. -/
inductive Asks : List K × N → List K × N → Prop where
  | part {path : List K} {n part : N} : L.goal n = false → L.Turn path (L.parts n) part →
      Asks (path, n) (path, part)
  | inside {path : List K} {n node : N} {nodes : List N} : L.goal n = false →
      (∀ part ∈ L.parts n, ¬ L.Finds path part) → L.inside n = some nodes → L.key n ∉ path →
      L.Turn (L.key n :: path) nodes node → Asks (path, n) (L.key n :: path, node)

/-- The keys of the nodes at which a search is run, from the given one. -/
def keysMet (s : List K × N) : Set K := {k | ∃ s', ReflTransGen L.Asks s s' ∧ L.key s'.2 = k}

variable {L} {path : List K} {n : N} {nodes : List N}

theorem finds_iff (path : List K) (n : N) :
    L.Finds path n ↔ L.goal n = true ∨ (∃ part ∈ L.parts n, L.Finds path part) ∨
      ∃ nodes, L.inside n = some nodes ∧ L.key n ∉ path ∧
        ∃ node ∈ nodes, L.Finds (L.key n :: path) node := by
  constructor
  · rintro (goal | ⟨member, found⟩ | ⟨opened, fresh, member, found⟩)
    · exact .inl goal
    · exact .inr (.inl ⟨_, member, found⟩)
    · exact .inr (.inr ⟨_, opened, fresh, _, member, found⟩)
  · rintro (goal | ⟨part, member, found⟩ | ⟨nodes, opened, fresh, node, member, found⟩)
    · exact .goal goal
    · exact .part member found
    · exact .inside opened fresh member found

theorem finite_asks (s : List K × N) : {s' | L.Asks s s'}.Finite := by
  obtain ⟨path, n⟩ := s
  refine ((L.parts n).map (Prod.mk path) ++ ((L.inside n).getD []).map
    (Prod.mk (L.key n :: path))).finite_toSet.subset ?_
  rintro s' (⟨-, before, after, split, -⟩ | ⟨-, -, opened, -, before, after, split, -⟩)
  · simp [split]
  · simp [opened, split]

variable [DecidableEq K] (L)

mutual
def search : (fuel : Nat) → (path : List K) → N → Option Bool
  | 0, _, _ => none
  | fuel + 1, path, n =>
    if L.goal n then some true
    else do
      if ← searchAny fuel path (L.parts n) then return true
      match L.inside n with
      | none => return false
      | some nodes =>
        if path.contains (L.key n) then return false
        searchAny fuel (L.key n :: path) nodes

def searchAny : (fuel : Nat) → (path : List K) → List N → Option Bool
  | _, _, [] => some false
  | 0, _, _ :: _ => none
  | fuel + 1, path, n :: nodes => do
    if ← search fuel path n then return true
    searchAny fuel path nodes
end

variable {L} {fuel : Nat} {answer : Bool}

/-! ## What an answer says -/

theorem searchAny_cons (fuel : Nat) (path : List K) (n : N) (nodes : List N) :
    L.searchAny (fuel + 1) path (n :: nodes) = (L.search fuel path n).bind fun found =>
      if found then some true else L.searchAny fuel path nodes := by
  rw [searchAny]
  rfl

/-- What the search at a node does after its parts. -/
def searchInside (L : Landscape N K) (fuel : Nat) (path : List K) (n : N) : Option Bool :=
  (L.inside n).elim (some false) fun nodes =>
    if L.key n ∈ path then some false else L.searchAny fuel (L.key n :: path) nodes

theorem search_succ (quiet : L.goal n = false) : L.search (fuel + 1) path n =
    (L.searchAny fuel path (L.parts n)).bind fun found =>
      if found then some true else L.searchInside fuel path n := by
  rw [search, if_neg (by simp [quiet]), searchInside.eq_def]
  cases L.inside n <;> simp

theorem search_answer (fuel : Nat) :
    (∀ path n answer, L.search fuel path n = some answer → (answer = true ↔ L.Finds path n)) ∧
    ∀ path nodes answer, L.searchAny fuel path nodes = some answer →
      (answer = true ↔ ∃ node ∈ nodes, L.Finds path node) := by
  induction fuel with
  | zero =>
    refine ⟨fun path n answer searched => ?_, fun path nodes answer searched => ?_⟩
    · simp [search] at searched
    · cases nodes <;> simp_all [searchAny]
  | succ fuel ih =>
    constructor
    · intro path n answer searched
      cases quiet : L.goal n with
      | true =>
        simp only [search, quiet, if_true, some.injEq] at searched
        exact ⟨fun _ => .goal quiet, fun _ => searched.symm⟩
      | false =>
        rw [search_succ quiet, bind_eq_some_iff] at searched
        obtain ⟨found, parts, rest⟩ := searched
        simp only [finds_iff path n, quiet, ← ih.2 _ _ _ parts]
        cases found with
        | true => simp_all
        | false =>
          cases opened : L.inside n with
          | none => simp_all [searchInside]
          | some nodes =>
            by_cases met : L.key n ∈ path
            · simp_all [searchInside]
            · simp only [searchInside, opened, met, false_eq_true, if_false,
                Option.elim_some] at rest
              simp [ih.2 _ _ _ rest, met]
    · intro path nodes answer searched
      cases nodes with
      | nil => simp_all [searchAny]
      | cons n nodes =>
        rw [searchAny_cons, bind_eq_some_iff] at searched
        obtain ⟨found, first, rest⟩ := searched
        rw [List.exists_mem_cons_iff, ← ih.1 _ _ _ first]
        cases found with
        | true => simp_all
        | false => simpa using ih.2 _ _ _ rest

/-! ## Answers within finitely many keys -/

/-- With enough fuel the search at the node answers. -/
def Answers (L : Landscape N K) (path : List K) (n : N) : Prop :=
  ∀ᶠ fuel in atTop, ∃ answer, L.search fuel path n = some answer

theorem eventually_of_succ {p : ℕ → Prop} (succ : ∀ᶠ fuel in atTop, p (fuel + 1)) :
    ∀ᶠ fuel in atTop, p fuel := by
  rw [← map_add_atTop_eq_nat 1]
  exact succ

theorem searchAny_answers (nodes : List N)
    (turns : ∀ node, L.Turn path nodes node → L.Answers path node) :
    ∀ᶠ fuel in atTop, ∃ answer, L.searchAny fuel path nodes = some answer := by
  induction nodes with
  | nil => exact .of_forall fun fuel => ⟨false, by simp [searchAny]⟩
  | cons n nodes ih =>
    have first := turns n ⟨[], nodes, rfl, by simp⟩
    refine eventually_of_succ ?_
    by_cases found : L.Finds path n
    · filter_upwards [first] with fuel ⟨answer, searched⟩
      have yes := ((search_answer fuel).1 _ _ _ searched).mpr found
      exact ⟨true, by simp [searchAny_cons, searched, yes]⟩
    · have others := ih fun node ⟨before, after, split, quiet⟩ =>
        turns node ⟨n :: before, after, by simp [split], by simpa [found] using quiet⟩
      filter_upwards [first, others] with fuel ⟨answer, searched⟩ ⟨rest, restSearched⟩
      have no : answer ≠ true := mt ((search_answer fuel).1 _ _ _ searched).mp found
      exact ⟨rest, by simp [searchAny_cons, searched, no, restSearched]⟩

/-- A search answers when every search it runs does. -/
theorem answers_of_asks {s : List K × N} (asked : ∀ s', L.Asks s s' → L.Answers s'.1 s'.2) :
    L.Answers s.1 s.2 := by
  obtain ⟨path, n⟩ := s
  refine eventually_of_succ ?_
  cases quiet : L.goal n with
  | true => exact .of_forall fun fuel => ⟨true, by simp [search, quiet]⟩
  | false =>
    have parts := searchAny_answers (L.parts n) fun part turn => asked _ (.part quiet turn)
    have inner : ∀ᶠ fuel in atTop, (∀ part ∈ L.parts n, ¬ L.Finds path part) →
        ∃ answer, L.searchInside fuel path n = some answer := by
      by_cases none : ∀ part ∈ L.parts n, ¬ L.Finds path part
      · by_cases opened : ∃ nodes, L.inside n = some nodes ∧ L.key n ∉ path
        · obtain ⟨nodes, opened, fresh⟩ := opened
          filter_upwards [searchAny_answers nodes fun node turn =>
            asked _ (.inside quiet none opened fresh turn)] with fuel answers _
          simpa [searchInside, opened, fresh] using answers
        · refine .of_forall fun fuel _ => ⟨false, ?_⟩
          cases inside : L.inside n <;> simp_all [searchInside]
      · exact .of_forall fun fuel quiet => absurd quiet none
    filter_upwards [parts, inner] with fuel ⟨found, searched⟩ inner
    rw [search_succ quiet, searched]
    cases found with
    | true => exact ⟨true, rfl⟩
    | false => exact inner (by simpa using (search_answer fuel).2 _ _ _ searched)

/-- Going into a part makes the node smaller, and opening it leaves a key less to open. -/
theorem answers_of_finite {root : List K × N} (finite : (L.keysMet root).Finite) :
    L.Answers root.1 root.2 := by
  classical
  let left : List K × N → Nat := fun s => (finite.toFinset \ s.1.toFinset).card
  have all : ∀ keys size s, ReflTransGen L.Asks root s → left s = keys →
      sizeOf s.2 = size → L.Answers s.1 s.2 := by
    intro keys
    induction keys using Nat.strong_induction_on with
    | _ keys fewer =>
      intro size
      induction size using Nat.strong_induction_on with
      | _ size smaller =>
        rintro s reached rfl rfl
        refine answers_of_asks fun s' asked => ?_
        have further := reached.tail asked
        cases asked with
        | part _ turn =>
          obtain ⟨before, after, split, -⟩ := turn
          exact smaller _ (L.part_smaller (by simp [split])) _ further rfl rfl
        | @inside path n node nodes _ _ _ fresh _ =>
          refine fewer _ (Finset.card_lt_card ?_) _ _ further rfl rfl
          have met : L.key n ∈ finite.toFinset := by
            simpa using ⟨(path, n), reached, rfl⟩
          refine ⟨Finset.sdiff_subset_sdiff subset_rfl (by simp), fun back => ?_⟩
          simpa [fresh, met] using back (Finset.mem_sdiff.mpr ⟨met, by simpa using fresh⟩)
  exact all _ _ root .refl rfl rfl

/-! ## Finitely many keys within an answer -/

theorem exists_search_of_turn (searched : L.searchAny fuel path nodes = some answer) {node : N}
    (turn : L.Turn path nodes node) :
    ∃ smaller < fuel, ∃ answer, L.search smaller path node = some answer := by
  obtain ⟨before, after, rfl, quiet⟩ := turn
  induction before generalizing fuel with
  | nil =>
    cases fuel with
    | zero => simp [searchAny] at searched
    | succ fuel =>
      rw [nil_append, searchAny_cons, bind_eq_some_iff] at searched
      exact ⟨fuel, fuel.lt_succ_self, _, searched.choose_spec.1⟩
  | cons first before ih =>
    cases fuel with
    | zero => simp [searchAny] at searched
    | succ fuel =>
      rw [cons_append, searchAny_cons, bind_eq_some_iff] at searched
      obtain ⟨found, firstSearched, rest⟩ := searched
      have no : found ≠ true := mt ((search_answer fuel).1 _ _ _ firstSearched).mp
        (quiet first mem_cons_self)
      rw [if_neg no] at rest
      obtain ⟨smaller, less, answers⟩ := ih (fun other member =>
        quiet other (mem_cons_of_mem first member)) rest
      exact ⟨smaller, less.trans fuel.lt_succ_self, answers⟩

/-- A search run within one that answers does so with less fuel. -/
theorem exists_search_of_asks {s s' : List K × N} (asked : L.Asks s s')
    (searched : L.search fuel s.1 s.2 = some answer) :
    ∃ smaller < fuel, ∃ answer, L.search smaller s'.1 s'.2 = some answer := by
  cases fuel with
  | zero => simp [search] at searched
  | succ fuel =>
    have step : ∀ {path : List K} {nodes : List N} {node : N} {answer : Bool},
        L.searchAny fuel path nodes = some answer → L.Turn path nodes node →
          ∃ smaller < fuel + 1, ∃ answer, L.search smaller path node = some answer := by
      intro path nodes node answer any turn
      obtain ⟨smaller, less, answers⟩ := exists_search_of_turn any turn
      exact ⟨smaller, less.trans fuel.lt_succ_self, answers⟩
    cases asked with
    | part quiet turn =>
      rw [search_succ quiet, bind_eq_some_iff] at searched
      exact step searched.choose_spec.1 turn
    | inside quiet none opened fresh turn =>
      rw [search_succ quiet, bind_eq_some_iff] at searched
      obtain ⟨found, parts, rest⟩ := searched
      have no : found = false := by
        simpa using mt ((search_answer fuel).2 _ _ _ parts).mp (by simpa using none)
      simp only [searchInside, no, opened, fresh, false_eq_true, if_false, Option.elim_some] at rest
      exact step rest turn

theorem finite_of_answers {s : List K × N} (searched : L.search fuel s.1 s.2 = some answer) :
    {s' | ReflTransGen L.Asks s s'}.Finite := by
  induction fuel using Nat.strong_induction_on generalizing s answer with
  | _ fuel ih =>
    have below : (⋃ s' ∈ {s' | L.Asks s s'}, {s'' | ReflTransGen L.Asks s' s''}).Finite := by
      refine (finite_asks s).biUnion fun s' asked => ?_
      obtain ⟨smaller, less, answer, inner⟩ := exists_search_of_asks asked searched
      exact ih smaller less inner
    refine ((Set.finite_singleton s).union below).subset fun s' reached => ?_
    rcases reached.cases_head with rfl | ⟨next, asked, rest⟩
    · exact .inl rfl
    · exact .inr (Set.mem_biUnion asked rest)

/-- The search answers exactly where it meets finitely many keys. -/
theorem search_answers_iff (path : List K) (n : N) :
    (∃ answer fuel, L.search fuel path n = some answer) ↔ (L.keysMet (path, n)).Finite := by
  constructor
  · rintro ⟨answer, fuel, searched⟩
    refine ((finite_of_answers (s := (path, n)) searched).image fun s => L.key s.2).subset ?_
    rintro key ⟨s, reached, rfl⟩
    exact ⟨s, reached, rfl⟩
  · intro finite
    obtain ⟨fuel, answer, searched⟩ := (answers_of_finite finite).exists
    exact ⟨answer, fuel, searched⟩

end Landscape

end Koschei.Lib
