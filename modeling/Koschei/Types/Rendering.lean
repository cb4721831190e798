import Koschei.Types.Assignability

/-!
# The texts of types

`render_type` is one-to-one on the closed types the parser builds: names without
brackets, commas and spaces, and unions of at least two options that are no
unions themselves. So `union_type`, which keeps one option for each text, keeps
every option, and a search that remembers texts remembers types.
-/

namespace Koschei.TypeNode

/-! ## Types as the parser builds them -/

/-- The characters that end a name in the text of a type. -/
def isDelimiter (c : Char) : Bool := c == '<' || c == '>' || c == ',' || c == ' '

/-- A name of the source: not empty, not the placeholder, and without delimiters. -/
structure Ident (name : String) : Prop where
  nonempty : name ≠ ""
  known : name ≠ "_"
  plain : ∀ c ∈ name.toList, isDelimiter c = false

mutual
/-- Names are those of the source, and the options of a union are two or more, none of them a
union or unknown. -/
def Formed : TypeNode → Prop
  | .unknown => True
  | .named name => Ident name
  | .variable name => Ident name
  | .generic name arguments => Ident name ∧ FormedAll arguments
  | .union options => 2 ≤ options.length ∧ (∀ option ∈ options, option.isLeaf = true) ∧
      FormedAll options

def FormedAll : List TypeNode → Prop
  | [] => True
  | node :: nodes => Formed node ∧ FormedAll nodes
end

theorem formedAll_iff (nodes : List TypeNode) : FormedAll nodes ↔ ∀ node ∈ nodes, Formed node := by
  induction nodes with
  | nil => simp [FormedAll]
  | cons node nodes ih => simp [FormedAll, ih]

theorem closedAll_iff (nodes : List TypeNode) :
    closedAll nodes = true ↔ ∀ node ∈ nodes, closed node = true := by
  induction nodes with
  | nil => simp [closedAll]
  | cons node nodes ih => simp [closedAll, ih]

/-! ## Texts determine types -/

/-- The characters of a text. -/
def chars (node : TypeNode) : List Char := node.render.toList

/-- Texts with a separator between them. -/
def joined (separator : List Char) : List TypeNode → List Char
  | [] => []
  | [node] => chars node
  | node :: nodes => chars node ++ separator ++ joined separator nodes

theorem joined_cons_cons (separator : List Char) (x y : TypeNode) (nodes : List TypeNode) :
    joined separator (x :: y :: nodes) =
      chars x ++ (separator ++ joined separator (y :: nodes)) := by
  rw [joined, append_assoc]
  intro empty
  cases empty

theorem renderAll_eq_map (nodes : List TypeNode) : renderAll nodes = nodes.map render := by
  induction nodes with
  | nil => rfl
  | cons node nodes ih => rw [renderAll, ih, map_cons]

theorem toList_intercalate_render (separator : String) (nodes : List TypeNode) :
    (separator.intercalate (nodes.map render)).toList = joined separator.toList nodes := by
  rw [toList_intercalate]
  induction nodes with
  | nil => rfl
  | cons node nodes ih =>
    cases nodes with
    | nil => simp [joined, chars]
    | cons next nodes =>
      rw [joined_cons_cons, ← ih]
      simp [chars, intercalate_cons_cons]

theorem chars_generic (name : String) (arguments : List TypeNode) :
    chars (.generic name arguments) =
      name.toList ++ '<' :: (joined [',', ' '] arguments ++ ['>']) := by
  have inner := toList_intercalate_render ", " arguments
  rw [chars, render, renderAll_eq_map]
  simp only [toList_append, inner]
  simp

theorem chars_union (options : List TypeNode) :
    chars (.union options) = joined [' ', 'o', 'r', ' '] options := by
  rw [chars, render, renderAll_eq_map]
  exact toList_intercalate_render " or " options

/-- What follows is nothing, or starts with a delimiter. -/
def Delimited (rest : List Char) : Prop := ∀ c, rest.head? = some c → isDelimiter c = true

/-- What follows a type inside another: nothing, a comma or a closing bracket. -/
def Stops (rest : List Char) : Prop := ∀ c, rest.head? = some c → c = ',' ∨ c = '>'

/-- What follows an option of a union: nothing, a space, a comma or a closing bracket. -/
def Pauses (rest : List Char) : Prop := ∀ c, rest.head? = some c → c = ',' ∨ c = '>' ∨ c = ' '

variable {rest : List Char}

theorem Stops.pauses (stops : Stops rest) : Pauses rest := by
  intro c first
  rcases stops c first with comma | bracket
  · exact .inl comma
  · exact .inr (.inl bracket)

theorem Pauses.delimited (pauses : Pauses rest) : Delimited rest := by
  intro c first
  rcases pauses c first with rfl | rfl | rfl <;> rfl

theorem pauses_separator (rest : List Char) : Pauses ([' ', 'o', 'r', ' '] ++ rest) := by
  intro c first
  rw [cons_append, head?_cons, some.injEq] at first
  exact .inr (.inr first.symm)

theorem names_eq {n m r s : List Char} (first : ∀ c ∈ n, isDelimiter c = false)
    (second : ∀ c ∈ m, isDelimiter c = false) (afterFirst : Delimited r)
    (afterSecond : Delimited s) (same : n ++ r = m ++ s) : n = m ∧ r = s := by
  induction n generalizing m with
  | nil =>
    cases m with
    | nil => exact ⟨rfl, same⟩
    | cons c m =>
      rw [nil_append, cons_append] at same
      have delimiter := afterFirst c (by rw [same, head?_cons])
      rw [second c mem_cons_self] at delimiter
      cases delimiter
  | cons c n ih =>
    cases m with
    | nil =>
      rw [nil_append, cons_append] at same
      have delimiter := afterSecond c (by rw [← same, head?_cons])
      rw [first c mem_cons_self] at delimiter
      cases delimiter
    | cons d m =>
      rw [cons_append, cons_append, cons.injEq] at same
      obtain ⟨rfl, rest⟩ := same
      obtain ⟨rfl, tails⟩ := ih (fun x member => first x (mem_cons_of_mem c member))
        (fun x member => second x (mem_cons_of_mem c member)) rest
      exact ⟨rfl, tails⟩

/-- The text of a closed type is not empty and starts with no delimiter. -/
theorem head_chars : ∀ {node : TypeNode}, Formed node → closed node = true →
    ∃ c rest, chars node = c :: rest ∧ isDelimiter c = false := by
  have nameHead : ∀ {name : String}, Ident name →
      ∃ c rest, name.toList = c :: rest ∧ isDelimiter c = false := by
    intro name ident
    cases spelled : name.toList with
    | nil => exact absurd (toList_inj.mp (by simpa using spelled)) ident.nonempty
    | cons c rest => exact ⟨c, rest, rfl, ident.plain c (by rw [spelled]; simp)⟩
  have leafHead : ∀ {node : TypeNode}, node.isLeaf = true → Formed node → closed node = true →
      ∃ c rest, chars node = c :: rest ∧ isDelimiter c = false := by
    intro node leaf formed isClosed
    cases node with
    | unknown | union => cases leaf
    | «variable» => simp [closed] at isClosed
    | named name => exact nameHead formed
    | generic name arguments =>
      obtain ⟨c, rest, spelled, plain⟩ := nameHead formed.1
      exact ⟨c, _, by rw [chars_generic, spelled]; rfl, plain⟩
  intro node formed isClosed
  cases node with
  | union options =>
    obtain ⟨many, leaves, all⟩ := formed
    cases options with
    | nil => simp at many
    | cons option options =>
      rw [closed, closedAll, and_eq_true] at isClosed
      obtain ⟨c, rest, spelled, plain⟩ := leafHead (leaves option mem_cons_self) all.1 isClosed.1
      rw [chars_union]
      cases options with
      | nil => exact ⟨c, rest, by rw [joined, spelled], plain⟩
      | cons next options => exact ⟨c, _, by rw [joined_cons_cons, spelled]; rfl, plain⟩
  | unknown => cases isClosed
  | «variable» name => cases isClosed
  | named name => exact leafHead rfl formed isClosed
  | generic name arguments => exact leafHead rfl formed isClosed

/-- The text of an option of a union tells it from every other. -/
def LeafEq (t : TypeNode) : Prop :=
  ∀ u, u.isLeaf = true → Formed u → closed u = true → ∀ r s, Pauses r → Pauses s →
    chars t ++ r = chars u ++ s → t = u ∧ r = s

/-- The text of a type tells it from every other. -/
def NodeEq (t : TypeNode) : Prop := ∀ u, Formed u → closed u = true → ∀ r s, Stops r → Stops s →
    chars t ++ r = chars u ++ s → t = u ∧ r = s

theorem delimited_bracket (rest : List Char) : Delimited ('<' :: rest) := by
  intro c first
  rw [head?_cons, some.injEq] at first
  rw [← first]
  rfl

variable {name : String}

theorem leafEq_named (ident : Ident name) : LeafEq (.named name) := by
  intro u leaf formed isClosed r s pauses pauses' same
  cases u with
  | unknown | union => cases leaf
  | «variable» => cases isClosed
  | named other =>
    obtain ⟨names, rests⟩ := names_eq ident.plain formed.plain pauses.delimited
      pauses'.delimited same
    exact ⟨by rw [toList_inj.mp names], rests⟩
  | generic other arguments =>
    rw [chars_generic, append_assoc, cons_append] at same
    obtain ⟨-, rests⟩ := names_eq ident.plain formed.1.plain pauses.delimited
      (delimited_bracket _) same
    have first := pauses '<' (by rw [rests, head?_cons])
    exact absurd first (by decide)

variable {xs types options : List TypeNode}

/-- Arguments, told apart one by one, are told apart together. -/
theorem arguments_eq (each : ∀ x ∈ xs, NodeEq x) (formed : FormedAll xs)
    (isClosed : closedAll xs = true) : ∀ {ys : List TypeNode}, FormedAll ys →
    closedAll ys = true → ∀ {r s : List Char},
      joined [',', ' '] xs ++ '>' :: r = joined [',', ' '] ys ++ '>' :: s → xs = ys ∧ r = s := by
  -- A list that is at its end goes on with a bracket, any other with a comma.
  have ends (r : List Char) : Stops ('>' :: r) := by
    intro c first
    rw [head?_cons, some.injEq] at first
    exact .inr first.symm
  have goesOn (r : List Char) : Stops ([',', ' '] ++ r) := by
    intro c first
    rw [cons_append, head?_cons, some.injEq] at first
    exact .inl first.symm
  have started : ∀ {z : TypeNode} {zs : List TypeNode} {r s : List Char}, Formed z →
      closed z = true → '>' :: r = joined [',', ' '] (z :: zs) ++ '>' :: s → False := by
    intro z zs r s zFormed zClosed same
    obtain ⟨c, rest, spelled, plain⟩ := head_chars zFormed zClosed
    have first : c = '>' := by
      cases zs with
      | nil =>
        rw [joined, spelled, cons_append, cons.injEq] at same
        exact same.1.symm
      | cons next zs =>
        rw [joined_cons_cons, spelled, cons_append, cons_append, cons.injEq] at same
        exact same.1.symm
    rw [first] at plain
    cases plain
  induction xs with
  | nil =>
    intro ys ysFormed ysClosed r s same
    cases ys with
    | nil => exact ⟨rfl, (cons.inj same).2⟩
    | cons y ys =>
      rw [closedAll, and_eq_true] at ysClosed
      exact (started ysFormed.1 ysClosed.1 same).elim
  | cons x xs ih =>
    intro ys ysFormed ysClosed r s same
    rw [closedAll, and_eq_true] at isClosed
    cases ys with
    | nil => exact (started formed.1 isClosed.1 same.symm).elim
    | cons y ys =>
      rw [closedAll, and_eq_true] at ysClosed
      have first := each x mem_cons_self y ysFormed.1 ysClosed.1
      cases xs with
      | nil =>
        cases ys with
        | nil =>
          rw [joined, joined] at same
          obtain ⟨rfl, rests⟩ := first _ _ (ends r) (ends s) same
          exact ⟨rfl, (cons.inj rests).2⟩
        | cons z ys =>
          rw [joined, joined_cons_cons, append_assoc, append_assoc] at same
          obtain ⟨-, rests⟩ := first _ _ (ends r) (goesOn _) same
          exact absurd (cons.inj rests).1 (by decide)
      | cons w xs =>
        cases ys with
        | nil =>
          rw [joined_cons_cons, joined, append_assoc, append_assoc] at same
          obtain ⟨-, rests⟩ := first _ _ (goesOn _) (ends s) same
          exact absurd (cons.inj rests).1 (by decide)
        | cons z ys =>
          rw [joined_cons_cons, joined_cons_cons, append_assoc, append_assoc,
            append_assoc, append_assoc] at same
          obtain ⟨rfl, rests⟩ := first _ _ (goesOn _) (goesOn _) same
          obtain ⟨tails, rests'⟩ := ih (fun v member => each v (mem_cons_of_mem x member))
            formed.2 isClosed.2 ysFormed.2 ysClosed.2 (append_cancel_left rests)
          exact ⟨by rw [tails], rests'⟩

theorem leafEq_generic {arguments : List TypeNode} (ident : Ident name)
    (each : ∀ x ∈ arguments, NodeEq x) (formed : FormedAll arguments)
    (isClosed : closedAll arguments = true) : LeafEq (.generic name arguments) := by
  intro u leaf uFormed uClosed r s pauses pauses' same
  rw [chars_generic, append_assoc (name.toList), cons_append] at same
  cases u with
  | unknown | union => cases leaf
  | «variable» => cases uClosed
  | named other =>
    obtain ⟨-, rests⟩ := names_eq ident.plain uFormed.plain (delimited_bracket _)
      pauses'.delimited same
    have first := pauses' '<' (by rw [← rests, head?_cons])
    exact absurd first (by decide)
  | generic other others =>
    rw [chars_generic, append_assoc (other.toList), cons_append] at same
    obtain ⟨names, rests⟩ := names_eq ident.plain uFormed.1.plain (delimited_bracket _)
      (delimited_bracket _) same
    rw [cons.injEq, append_assoc, append_assoc] at rests
    obtain ⟨rfl, tails⟩ := arguments_eq each formed isClosed uFormed.2 uClosed rests.2
    exact ⟨by rw [toList_inj.mp names], tails⟩

/-- Options, told apart one by one, are told apart together. -/
theorem options_eq (each : ∀ x ∈ xs, LeafEq x) (nonempty : xs ≠ []) :
    ∀ {ys : List TypeNode}, ys ≠ [] → (∀ y ∈ ys, y.isLeaf = true) → FormedAll ys →
    closedAll ys = true → ∀ {r s : List Char}, Stops r → Stops s →
      joined [' ', 'o', 'r', ' '] xs ++ r = joined [' ', 'o', 'r', ' '] ys ++ s →
        xs = ys ∧ r = s := by
  -- Where one list ends and the other goes on, what follows would start with a space.
  have notSpace : ∀ {r rest : List Char}, Stops r → r = [' ', 'o', 'r', ' '] ++ rest → False := by
    intro r rest stops same
    have first := stops ' ' (by rw [same, cons_append, head?_cons])
    exact absurd first (by decide)
  induction xs with
  | nil =>
    intro ys
    exact absurd rfl nonempty
  | cons x xs ih =>
    intro ys ysNonempty leaves ysFormed ysClosed r s stops stops' same
    cases ys with
    | nil => exact absurd rfl ysNonempty
    | cons y ys =>
      rw [closedAll, and_eq_true] at ysClosed
      have first := each x mem_cons_self y (leaves y mem_cons_self) ysFormed.1 ysClosed.1
      cases xs with
      | nil =>
        cases ys with
        | nil =>
          rw [joined, joined] at same
          obtain ⟨rfl, rests⟩ := first _ _ stops.pauses stops'.pauses same
          exact ⟨rfl, rests⟩
        | cons z ys =>
          rw [joined, joined_cons_cons, append_assoc, append_assoc] at same
          obtain ⟨-, rests⟩ := first _ _ stops.pauses (pauses_separator _) same
          exact (notSpace stops rests).elim
      | cons w xs =>
        cases ys with
        | nil =>
          rw [joined_cons_cons, joined, append_assoc, append_assoc] at same
          obtain ⟨-, rests⟩ := first _ _ (pauses_separator _) stops'.pauses same
          exact (notSpace stops' rests.symm).elim
        | cons z ys =>
          rw [joined_cons_cons, joined_cons_cons, append_assoc, append_assoc,
            append_assoc, append_assoc] at same
          obtain ⟨rfl, rests⟩ := first _ _ (pauses_separator _) (pauses_separator _) same
          obtain ⟨tails, rests'⟩ := ih (fun v member => each v (mem_cons_of_mem x member))
            (by simp) (by simp) (fun v member => leaves v (mem_cons_of_mem x member))
            ysFormed.2 ysClosed.2 stops stops' (append_cancel_left rests)
          exact ⟨by rw [tails], rests'⟩

/-! ### A type and its alternatives -/

variable {node t u leaf : TypeNode}

theorem alternatives_leaf (formed : Formed node) (isClosed : closed node = true) :
    ∀ option ∈ node.alternatives, option.isLeaf = true := by
  cases node with
  | unknown | «variable» => cases isClosed
  | union options => exact formed.2.1
  | named | generic =>
    intro option member
    rw [mem_singleton.mp member]
    rfl

theorem alternatives_formed (formed : Formed node) : FormedAll node.alternatives := by
  cases node with
  | union options => exact formed.2.2
  | unknown | «variable» | named | generic => exact ⟨formed, trivial⟩

theorem alternatives_closed (isClosed : closed node = true) :
    closedAll node.alternatives = true := by
  cases node with
  | union options => exact isClosed
  | unknown | «variable» => cases isClosed
  | named | generic =>
    change closedAll [_] = true
    rw [closedAll, and_eq_true]
    exact ⟨isClosed, rfl⟩

theorem alternatives_nonempty (formed : Formed node) : node.alternatives ≠ [] := by
  cases node with
  | union options =>
    rintro rfl
    have many := formed.1
    simp at many
  | unknown | «variable» | named | generic => simp [alternatives]

theorem chars_eq_joined (node : TypeNode) :
    chars node = joined [' ', 'o', 'r', ' '] node.alternatives := by
  cases node with
  | union options => exact chars_union options
  | unknown | «variable» | named | generic => rfl

theorem eq_of_alternatives (tFormed : Formed t) (uFormed : Formed u)
    (same : t.alternatives = u.alternatives) : t = u := by
  cases t with
  | union options =>
    cases u with
    | union others => exact congrArg union same
    | unknown | «variable» | named | generic =>
      have many := tFormed.1
      rw [show options = _ from same] at many
      simp [alternatives] at many
  | unknown | «variable» | named | generic =>
    cases u with
    | union others =>
      have many := uFormed.1
      rw [show others = _ from same.symm] at many
      simp [alternatives] at many
    | unknown | «variable» | named | generic => exact (cons.inj same).1

theorem nodeEq_of_options (formed : Formed t)
    (each : ∀ x ∈ t.alternatives, LeafEq x) : NodeEq t := by
  intro u uFormed uClosed r s stops stops' same
  rw [chars_eq_joined t, chars_eq_joined u] at same
  obtain ⟨options, rests⟩ := options_eq each (alternatives_nonempty formed)
    (alternatives_nonempty uFormed) (alternatives_leaf uFormed uClosed)
    (alternatives_formed uFormed) (alternatives_closed uClosed) stops stops' same
  exact ⟨eq_of_alternatives formed uFormed options, rests⟩

mutual
theorem text_eq : ∀ t : TypeNode, Formed t → closed t = true →
    (t.isLeaf = true → LeafEq t) ∧ NodeEq t
  | .unknown, _, isClosed => by cases isClosed
  | .variable _, _, isClosed => by cases isClosed
  | .named name, formed, _ => by
    have leaf : LeafEq (.named name) := leafEq_named formed
    refine ⟨fun _ => leaf, nodeEq_of_options formed fun x member => ?_⟩
    rw [mem_singleton.mp member]
    exact leaf
  | .generic name arguments, formed, isClosed => by
    have each := text_eq_all arguments formed.2 isClosed
    have leaf : LeafEq (.generic name arguments) :=
      leafEq_generic formed.1 (fun x member => (each x member).2) formed.2 isClosed
    refine ⟨fun _ => leaf, nodeEq_of_options formed fun x member => ?_⟩
    rw [mem_singleton.mp member]
    exact leaf
  | .union options, formed, isClosed => by
    have each := text_eq_all options formed.2.2 isClosed
    refine ⟨fun leaf => ?_, nodeEq_of_options formed fun x member => ?_⟩
    · cases leaf
    · exact (each x member).1 (formed.2.1 x member)

theorem text_eq_all : ∀ nodes : List TypeNode, FormedAll nodes → closedAll nodes = true →
    ∀ t ∈ nodes, (t.isLeaf = true → LeafEq t) ∧ NodeEq t
  | [], _, _, _, member => by cases member
  | node :: nodes, formed, isClosed, t, member => by
    rw [closedAll, and_eq_true] at isClosed
    rcases mem_cons.mp member with here | later
    · rw [here]
      exact text_eq node formed.1 isClosed.1
    · exact text_eq_all nodes formed.2 isClosed.2 t later
end

theorem render_injective (tFormed : Formed t) (tClosed : closed t = true)
    (uFormed : Formed u) (uClosed : closed u = true) (same : t.render = u.render) : t = u := by
  have nothing : Stops [] := by
    intro c first
    cases first
  refine ((text_eq t tFormed tClosed).2 u uFormed uClosed [] [] nothing nothing ?_).1
  rw [chars, chars, same]

/-! ## Unions keep their options -/

theorem mem_of_mem_dedupByText (kept : node ∈ dedupByText types) : node ∈ types := by
  have general : ∀ (types start : List TypeNode) (node : TypeNode),
      node ∈ types.foldl (fun (kept : List TypeNode) node =>
        if kept.any fun other => other.render == node.render then kept else kept ++ [node])
        start → node ∈ start ∨ node ∈ types := by
    intro types
    induction types with
    | nil =>
      intro start node member
      exact .inl member
    | cons first types ih =>
      intro start node member
      rw [foldl_cons] at member
      rcases ih _ _ member with early | late
      · split at early
        · exact .inl early
        · rcases mem_append.mp early with before | here
          · exact .inl before
          · rw [mem_singleton.mp here]
            exact .inr mem_cons_self
      · exact .inr (mem_cons_of_mem first late)
  rcases general types [] node kept with early | late
  · cases early
  · exact late

theorem exists_mem_dedupByText (member : node ∈ types) :
    ∃ kept ∈ dedupByText types, kept.render = node.render := by
  have general : ∀ (types start : List TypeNode) (node : TypeNode),
      (∃ early ∈ start, early.render = node.render) ∨ node ∈ types →
      ∃ kept ∈ types.foldl (fun (kept : List TypeNode) node =>
        if kept.any fun other => other.render == node.render then kept else kept ++ [node])
        start, kept.render = node.render := by
    intro types
    induction types with
    | nil =>
      rintro start node (early | late)
      · exact early
      · cases late
    | cons first types ih =>
      intro start node found
      rw [foldl_cons]
      apply ih
      rcases found with ⟨early, inStart, same⟩ | late
      · refine .inl ⟨early, ?_, same⟩
        split
        · exact inStart
        · exact mem_append_left _ inStart
      · rcases mem_cons.mp late with rfl | later
        · left
          split
          · rename_i present
            obtain ⟨early, inStart, same⟩ := any_eq_true.mp present
            exact ⟨early, inStart, beq_iff_eq.mp same⟩
          · exact ⟨node, mem_append_right _ (mem_singleton.mpr rfl), rfl⟩
        · exact .inr later
  exact general types [] node (.inr member)

/-- The options `union_type` collects from a list of types. -/
def collected (types : List TypeNode) : List TypeNode := types.flatMap fun node =>
    match node with
    | .unknown => []
    | .union options => options
    | node => [node]

/-- What `union_type` makes of its options, in the order of their texts. -/
def ofOptions : List TypeNode → TypeNode
  | [] => .unknown
  | [node] => node
  | nodes => .union nodes

theorem unionType_eq (types : List TypeNode) : unionType types =
    ofOptions ((dedupByText (collected types)).mergeSort
      fun a b => decide (a.render ≤ b.render)) := by
  unfold unionType ofOptions collected
  rfl

theorem mem_collected_closed (isClosed : ∀ x ∈ types, closed x = true)
    : node ∈ collected types ↔ ∃ x ∈ types, node ∈ x.alternatives := by
  rw [collected, mem_flatMap]
  constructor
  · rintro ⟨x, member, inside⟩
    refine ⟨x, member, ?_⟩
    cases x with
    | unknown | «variable» => cases isClosed _ member
    | union | named | generic => exact inside
  · rintro ⟨x, member, inside⟩
    refine ⟨x, member, ?_⟩
    cases x with
    | unknown | «variable» => cases isClosed _ member
    | union | named | generic => exact inside

theorem alternatives_ofOptions (some_option : options ≠ [])
    (leaves : ∀ option ∈ options, option.isLeaf = true) :
    (ofOptions options).alternatives = options := by
  match options with
  | [] => exact absurd rfl some_option
  | [node] =>
    have leaf := leaves node mem_cons_self
    cases node with
    | unknown | union => cases leaf
    | «variable» | named | generic => rfl
  | _ :: _ :: _ => rfl

theorem alternatives_unionType (some_type : types ≠ [])
    (formed : ∀ x ∈ types, Formed x) (isClosed : ∀ x ∈ types, closed x = true)
    : node ∈ (unionType types).alternatives ↔ ∃ x ∈ types, node ∈ x.alternatives := by
  have leafOf : ∀ option ∈ collected types,
      option.isLeaf = true ∧ Formed option ∧ closed option = true := by
    intro option member
    obtain ⟨x, inTypes, inside⟩ := (mem_collected_closed isClosed).mp member
    exact ⟨alternatives_leaf (formed x inTypes) (isClosed x inTypes) option inside,
      (formedAll_iff _).mp (alternatives_formed (formed x inTypes)) option inside,
      (closedAll_iff _).mp (alternatives_closed (isClosed x inTypes)) option inside⟩
  have sorted : ∀ option, option ∈ (dedupByText (collected types)).mergeSort
      (fun a b => decide (a.render ≤ b.render)) ↔ option ∈ collected types := by
    intro option
    rw [mem_mergeSort]
    constructor
    · exact mem_of_mem_dedupByText
    · intro member
      obtain ⟨kept, inKept, same⟩ := exists_mem_dedupByText member
      have first := leafOf kept (mem_of_mem_dedupByText inKept)
      have second := leafOf option member
      rw [← render_injective first.2.1 first.2.2 second.2.1 second.2.2 same]
      exact inKept
  have nonempty : (dedupByText (collected types)).mergeSort
      (fun a b => decide (a.render ≤ b.render)) ≠ [] := by
    obtain ⟨x, inTypes⟩ := exists_mem_of_ne_nil types some_type
    obtain ⟨option, inside⟩ := exists_mem_of_ne_nil _ (alternatives_nonempty (formed x inTypes))
    have member := (sorted option).mpr ((mem_collected_closed isClosed).mpr ⟨x, inTypes, inside⟩)
    exact ne_nil_of_mem member
  rw [unionType_eq, alternatives_ofOptions nonempty
    (fun option member => (leafOf option ((sorted option).mp member)).1), sorted,
    mem_collected_closed isClosed]

theorem mem_leavesAll : leaf ∈ leavesAll options ↔ ∃ option ∈ options, leaf ∈ leaves option := by
  induction options with
  | nil => simp [leavesAll]
  | cons option options ih => simp [leavesAll, ih]

theorem leaves_unionType (member : leaf ∈ leaves (unionType types)) :
    leaf = .unknown ∨ ∃ x ∈ types, leaf ∈ leaves x := by
  have fromOption : ∀ option ∈ collected types, leaf ∈ leaves option →
      ∃ x ∈ types, leaf ∈ leaves x := by
    intro option inside inOption
    rw [collected, mem_flatMap] at inside
    obtain ⟨x, inTypes, inside⟩ := inside
    refine ⟨x, inTypes, ?_⟩
    cases x with
    | unknown => cases inside
    | union options => exact mem_leavesAll.mpr ⟨option, inside, inOption⟩
    | «variable» | named | generic =>
      rw [← mem_singleton.mp inside]
      exact inOption
  rw [unionType_eq] at member
  have sorted : ∀ option ∈ (dedupByText (collected types)).mergeSort
      (fun a b => decide (a.render ≤ b.render)), option ∈ collected types := by
    intro option kept
    rw [mem_mergeSort] at kept
    exact mem_of_mem_dedupByText kept
  generalize (dedupByText (collected types)).mergeSort
    (fun a b => decide (a.render ≤ b.render)) = options at member sorted
  match options with
  | [] => exact .inl (mem_singleton.mp member)
  | [node] => exact .inr (fromOption node (sorted node mem_cons_self) member)
  | first :: second :: rest =>
    obtain ⟨option, inOptions, inOption⟩ := mem_leavesAll.mp member
    exact .inr (fromOption option (sorted option inOptions) inOption)

end Koschei.TypeNode
