import Koschei.Types.Canonical

/-!
# Reading the text of a type

`parse_type_text` reads the text of a canonical type back as that type. The
splitter passes over whatever stands between brackets, and outside of them over
a text without its separator, so it cuts a list of texts exactly where they were
joined. The one exception is a named type spelled `_`, the text of the unknown
type.
-/

namespace Koschei.TypeNode

/-- An identifier: not empty, and without delimiters and white space. -/
structure Word (name : String) : Prop where
  nonempty : name ≠ ""
  plain : ∀ c ∈ name.toList, isDelimiter c = false ∧ isSpace c = false

mutual
/-- Names are identifiers, those of named types of the given kind; generic types have arguments,
and there are no type variables. -/
def Spelled (kind : String → Prop) : TypeNode → Prop
  | .unknown => True
  | .named name => Word name ∧ kind name
  | .variable _ => False
  | .generic name arguments => Word name ∧ arguments ≠ [] ∧ SpelledAll kind arguments
  | .union options => SpelledAll kind options

def SpelledAll (kind : String → Prop) : List TypeNode → Prop
  | [] => True
  | node :: nodes => Spelled kind node ∧ SpelledAll kind nodes
end

variable {kind : String → Prop}

theorem spelledAll_iff (nodes : List TypeNode) :
    SpelledAll kind nodes ↔ ∀ node ∈ nodes, Spelled kind node := by
  induction nodes with
  | nil => simp [SpelledAll]
  | cons node nodes ih => simp [SpelledAll, ih]

/-! ## Passing over a text -/

/-- At this depth the splitter passes over the text without cutting it. -/
def Passes (separator : List Char) (depth : Nat) (text : List Char) : Prop :=
  ∀ (rest part : List Char) (parts : List (List Char)),
    splitLoop separator (text ++ rest) depth 0 part parts =
      splitLoop separator rest depth 0 (part ++ text) parts

variable {separator : List Char} {depth : Nat}

theorem Passes.append {first second : List Char} (one : Passes separator depth first)
    (other : Passes separator depth second) : Passes separator depth (first ++ second) := by
  intro rest part parts
  rw [append_assoc, one, other, append_assoc]

theorem passes_nil : Passes separator depth [] := by
  intro rest part parts
  simp

/-- Brackets hide what is between them. -/
theorem Passes.brackets {inner : List Char} (passes : Passes separator (depth + 1) inner) :
    Passes separator depth ('<' :: (inner ++ ['>'])) := by
  intro rest part parts
  have opened := passes ('>' :: rest) (part ++ ['<']) parts
  simp [splitLoop, opened]

variable {text between : List Char}

theorem passes_plain (plain : ∀ c ∈ text, c ≠ '<' ∧ c ≠ '>')
    (clear : depth ≠ 0 ∨ ∀ c ∈ text, separator.head? ≠ some c) (some_char : separator ≠ []) :
    Passes separator depth text := by
  induction text with
  | nil => exact passes_nil
  | cons c text ih =>
    have tail := ih (fun x member => plain x (mem_cons_of_mem c member))
      (clear.imp id fun none x member => none x (mem_cons_of_mem c member))
    have here := plain c mem_cons_self
    intro rest part parts
    have uncut : ¬ (depth = 0 ∧ separator.isPrefixOf (c :: (text ++ rest)) = true) := by
      rintro ⟨outside, before⟩
      rcases clear with inside | none
      · exact inside outside
      · cases separator with
        | nil => exact some_char rfl
        | cons d separator =>
          simp only [List.isPrefixOf, and_eq_true, beq_iff_eq] at before
          exact none c mem_cons_self (by rw [before.1, head?_cons])
    have next := tail rest (part ++ [c]) parts
    rw [cons_append, splitLoop, if_neg (by simp), if_neg here.1, if_neg here.2, if_neg uncut,
      next, append_assoc, singleton_append]

variable {name : String}

theorem Word.passes (word : Word name)
    (first : separator.head? = some ' ' ∨ separator.head? = some ',') :
    Passes separator depth name.toList := by
  have others : ∀ c ∈ name.toList, c ≠ '<' ∧ c ≠ '>' ∧ c ≠ ',' ∧ c ≠ ' ' := by
    intro c member
    have plain := (word.plain c member).1
    simp only [isDelimiter, or_eq_false_iff, beq_eq_false_iff_ne] at plain
    tauto
  apply passes_plain
  · exact fun c member => ⟨(others c member).1, (others c member).2.1⟩
  · right
    intro c member same
    rcases first with space | comma
    · exact (others c member).2.2.2 (some.inj (same.symm.trans space))
    · exact (others c member).2.2.1 (some.inj (same.symm.trans comma))
  · rintro rfl
    simp at first

variable {nodes : List TypeNode}

/-- What joins texts is passed over between brackets, and `or` also by the comma's splitter. -/
theorem passes_joined (each : ∀ node ∈ nodes, Passes separator depth (chars node))
    (passes : Passes separator depth between) : Passes separator depth (joined between nodes) := by
  induction nodes with
  | nil => exact passes_nil
  | cons node nodes ih =>
    have here := each node mem_cons_self
    cases nodes with
    | nil => exact here
    | cons next nodes =>
      rw [joined_cons_cons]
      exact here.append (passes.append (ih (forall_mem_cons.mp each).2))

/-- The text is passed over by the comma's splitter, and between brackets by both. -/
def Hidden (t : TypeNode) : Prop := ∀ (separator : List Char) (depth : Nat),
    separator = [','] ∨ depth ≠ 0 ∧ separator = unionSeparator → Passes separator depth (chars t)

theorem head_separator (which : separator = [','] ∨ depth ≠ 0 ∧ separator = unionSeparator) :
    separator.head? = some ' ' ∨ separator.head? = some ',' := by
  rcases which with rfl | ⟨-, rfl⟩ <;> simp [unionSeparator]

theorem separator_ne_nil (which : separator = [','] ∨ depth ≠ 0 ∧ separator = unionSeparator) :
    separator ≠ [] := by
  rcases which with rfl | ⟨-, rfl⟩ <;> simp [unionSeparator]

mutual
theorem hidden : ∀ t : TypeNode, Spelled kind t → Hidden t
  | .unknown, _ => by
    intro separator depth which
    apply passes_plain (by simp [chars, render]) ?_ (separator_ne_nil which)
    rcases which with rfl | inside
    · simp [chars, render]
    · exact .inl inside.1
  | .named _, spelled => fun _ _ which => spelled.1.passes (head_separator which)
  | .variable _, spelled => spelled.elim
  | .generic name arguments, spelled => by
    intro separator depth which
    rw [chars_generic]
    have inner : Passes separator (depth + 1) (joined [',', ' '] arguments) := by
      apply passes_joined
      · intro node member
        exact hiddenAll arguments spelled.2.2 node member _ _
          (which.imp id fun inside => ⟨Nat.succ_ne_zero depth, inside.2⟩)
      · exact passes_plain (by simp) (.inl (Nat.succ_ne_zero depth)) (separator_ne_nil which)
    exact (spelled.1.passes (head_separator which)).append inner.brackets
  | .union options, spelled => by
    intro separator depth which
    rw [chars_union]
    apply passes_joined fun node member => hiddenAll options spelled node member _ _ which
    apply passes_plain (by simp) ?_ (separator_ne_nil which)
    rcases which with rfl | inside
    · simp
    · exact .inl inside.1

theorem hiddenAll : ∀ nodes : List TypeNode, SpelledAll kind nodes → ∀ t ∈ nodes, Hidden t
  | [], _, _, member => by cases member
  | node :: nodes, spelled, t, member => by
    rcases mem_cons.mp member with here | later
    · rw [here]
      exact hidden node spelled.1
    · exact hiddenAll nodes spelled.2 t later
end

theorem passes_leaf {t : TypeNode} (leaf : t.isLeaf = true) (spelled : Spelled kind t) :
    Passes unionSeparator depth (chars t) := by
  cases t with
  | unknown | union => cases leaf
  | «variable» => exact spelled.elim
  | named name => exact spelled.1.passes (.inl rfl)
  | generic name arguments =>
    rw [chars_generic]
    refine (spelled.1.passes (.inl rfl)).append (Passes.brackets (passes_joined ?_ ?_))
    · intro node member
      exact hiddenAll arguments spelled.2.2 node member _ _ (.inr ⟨Nat.succ_ne_zero depth, rfl⟩)
    · exact passes_plain (by simp) (.inl (Nat.succ_ne_zero depth)) (by simp [unionSeparator])

/-! ## White space around a text -/

/-- Nothing is stripped from the text. -/
def Trim (text : List Char) : Prop := (∃ c rest, text = c :: rest ∧ isSpace c = false) ∧
    ∃ rest c, text = rest ++ [c] ∧ isSpace c = false

theorem Trim.strip_pad (trim : Trim text) (pad : List Char)
    (spaces : ∀ c ∈ pad, isSpace c = true) : strip (pad ++ text) = text := by
  obtain ⟨⟨first, after, starts, inside⟩, before, last, ends, inside'⟩ := trim
  have dropped : (pad ++ text).dropWhile isSpace = text := by
    rw [dropWhile_append_of_pos spaces, starts, List.dropWhile_cons_of_neg (by simp [inside])]
  rw [strip, dropped, ends, reverse_append, List.reverse_singleton, singleton_append,
    List.dropWhile_cons_of_neg (by simp [inside']), List.reverse_cons, reverse_reverse]

theorem Trim.strip (trim : Trim text) : Koschei.strip text = text := trim.strip_pad [] (by simp)

theorem Word.trim (word : Word name) : Trim name.toList := by
  have some_char : name.toList ≠ [] := by
    intro none
    exact word.nonempty (toList_inj.mp (by simpa using none))
  have plain := word.plain
  generalize name.toList = text at some_char plain
  constructor
  · obtain ⟨c, rest, rfl⟩ := List.exists_cons_of_ne_nil some_char
    exact ⟨c, rest, rfl, (plain c (by simp)).2⟩
  · refine ⟨text.dropLast, text.getLast some_char, (List.dropLast_append_getLast some_char).symm, ?_⟩
    exact (plain _ (List.getLast_mem some_char)).2

theorem trim_joined (some_node : nodes ≠ [])
    (each : ∀ node ∈ nodes, Trim (chars node)) : Trim (joined between nodes) := by
  induction nodes with
  | nil => exact absurd rfl some_node
  | cons node nodes ih =>
    have here := each node mem_cons_self
    cases nodes with
    | nil => exact here
    | cons next nodes =>
      obtain ⟨⟨c, rest, starts, inside⟩, -⟩ := here
      obtain ⟨-, before, d, ends, inside'⟩ :=
        ih (by simp) fun x member => each x (mem_cons_of_mem node member)
      rw [joined_cons_cons]
      refine ⟨⟨c, _, by rw [starts]; rfl, inside⟩, chars node ++ (between ++ before), d, ?_,
        inside'⟩
      rw [ends]
      simp

mutual
theorem trim_chars : ∀ t : TypeNode, Canonical t → Spelled kind t → Trim (chars t)
  | .unknown, _, _ => ⟨⟨'_', [], by simp [chars, render], rfl⟩, [], '_', by simp [chars, render], rfl⟩
  | .named _, _, spelled => spelled.1.trim
  | .variable _, _, spelled => spelled.elim
  | .generic name arguments, _, spelled => by
    obtain ⟨⟨c, rest, starts, inside⟩, -⟩ := spelled.1.trim
    rw [chars_generic, starts]
    exact ⟨⟨c, _, rfl, inside⟩, c :: rest ++ '<' :: joined [',', ' '] arguments, '>', by simp, rfl⟩
  | .union options, canonical, spelled => by
    rw [chars_union]
    apply trim_joined ?_ (trim_charsAll options canonical.2.2.2 spelled)
    rintro rfl
    have many := canonical.1
    simp at many

theorem trim_charsAll : ∀ nodes : List TypeNode, CanonicalAll nodes → SpelledAll kind nodes →
    ∀ t ∈ nodes, Trim (chars t)
  | [], _, _, _, member => by cases member
  | node :: nodes, canonical, spelled, t, member => by
    rcases mem_cons.mp member with here | later
    · rw [here]
      exact trim_chars node canonical.1 spelled.1
    · exact trim_charsAll nodes canonical.2 spelled.2 t later
end

/-! ## Cutting and reading -/

theorem splitLoop_joined (pad : List Char)
    (cuts : ∀ (rest part : List Char) (parts : List (List Char)),
      splitLoop separator (between ++ rest) 0 0 part parts =
        splitLoop separator rest 0 0 pad (pushPart parts part))
    (padded : ∀ c ∈ pad, isSpace c = true) (some_node : nodes ≠ [])
    (each : ∀ node ∈ nodes, Passes separator 0 (chars node) ∧ Trim (chars node)) :
    ∀ {before : List Char} {parts : List (List Char)}, (∀ c ∈ before, isSpace c = true) →
      splitLoop separator (joined between nodes) 0 0 before parts =
        some (parts ++ nodes.map chars) := by
  induction nodes with
  | nil => exact absurd rfl some_node
  | cons node nodes ih =>
    intro before parts spaces
    obtain ⟨passes, trim⟩ := each node mem_cons_self
    have pushed : pushPart parts (before ++ chars node) = parts ++ [chars node] := by
      obtain ⟨c, rest, starts, -⟩ := trim.1
      rw [pushPart, trim.strip_pad before spaces, if_neg (by simp [starts])]
    cases nodes with
    | nil =>
      have through := passes [] before parts
      rw [append_nil] at through
      rw [joined, through, splitLoop, if_pos rfl, pushed, map_singleton]
    | cons next nodes =>
      rw [joined_cons_cons, passes, cuts, pushed, ih (by simp) (fun x member =>
        each x (mem_cons_of_mem node member)) padded, append_assoc,
        singleton_append, ← map_cons]

theorem split_arguments {arguments : List TypeNode} (some_argument : arguments ≠ [])
    (canonical : CanonicalAll arguments) (spelled : SpelledAll kind arguments) :
    splitTopLevel (joined [',', ' '] arguments) [','] = some (arguments.map chars) := by
  refine splitLoop_joined [' '] ?_ (by simp [isSpace]) some_argument ?_ (by simp)
  · intro rest part parts
    simp [splitLoop]
  · intro node member
    exact ⟨hiddenAll arguments spelled node member _ _ (.inl rfl),
      trim_charsAll arguments canonical spelled node member⟩

theorem split_options (options : List TypeNode) (some_option : options ≠ [])
    (leaves : ∀ option ∈ options, option.isLeaf = true) (canonical : CanonicalAll options)
    (spelled : SpelledAll kind options) :
    splitTopLevel (joined unionSeparator options) unionSeparator = some (options.map chars) := by
  refine splitLoop_joined [] ?_ (by simp) some_option ?_ (by simp)
  · intro rest part parts
    simp [splitLoop, unionSeparator]
  · intro node member
    exact ⟨passes_leaf (leaves node member) ((spelledAll_iff options).mp spelled node member),
      trim_charsAll options canonical spelled node member⟩

theorem length_joined (between : List Char) {t : TypeNode} (member : t ∈ nodes) :
    (chars t).length + between.length * (nodes.length - 1) ≤ (joined between nodes).length := by
  induction nodes generalizing t with
  | nil => cases member
  | cons node nodes ih =>
    cases nodes with
    | nil =>
      rw [mem_singleton.mp member]
      simp [joined]
    | cons next nodes =>
      rw [joined_cons_cons]
      simp only [length_append, length_cons, Nat.add_sub_cancel, Nat.mul_succ] at ih ⊢
      rcases mem_cons.mp member with rfl | later
      · have rest := ih mem_cons_self
        omega
      · have rest := ih later
        omega

/-- The name of a generic type ends at the first bracket. -/
theorem Word.cut_bracket (word : Word name) (rest : List Char) :
    (name.toList ++ '<' :: rest).takeWhile (· ≠ '<') = name.toList ∧
      (name.toList ++ '<' :: rest).dropWhile (· ≠ '<') = '<' :: rest := by
  have others : ∀ c ∈ name.toList, decide (c ≠ '<') = true := by
    intro c member
    have plain := (word.plain c member).1
    simp only [isDelimiter, or_eq_false_iff, beq_eq_false_iff_ne] at plain
    exact decide_eq_true plain.1.1.1
  rw [List.takeWhile_append_of_pos others, dropWhile_append_of_pos others]
  simp

theorem unionType_options {options : List TypeNode} (canonical : Canonical (.union options)) :
    unionType options = .union options := by
  obtain ⟨many, leaves, sorted, -⟩ := canonical
  have same : listed options = options := by
    have : Std.Irrefl fun a b : TypeNode => a.render < b.render := ⟨fun a => lt_irrefl a.render⟩
    have : Std.Antisymm fun a b : TypeNode => a.render < b.render :=
      ⟨fun a b below above => absurd above (lt_asymm below)⟩
    exact (listed_pairwise options).eq_of_mem_iff sorted fun _ => mem_listed (apart_of_pairwise sorted)
  rw [unionType_eq_listed, collected_leaves leaves, same]
  match options, many with
  | first :: second :: rest, _ => rfl

mutual
theorem parseWithin_chars : ∀ t : TypeNode, Canonical t → Spelled (· ≠ "_") t →
    ∀ fuel : Nat, (chars t).length < fuel → parseWithin fuel (chars t) = some t
  | _, _, _, 0, bound => absurd bound (Nat.not_lt_zero _)
  | .unknown, _, _, fuel + 1, _ => by
    rw [parseWithin]
    simp [chars, render, strip, isSpace]
  | .variable _, _, spelled, _, _ => spelled.elim
  | .named name, canonical, spelled, fuel + 1, _ => by
    have trim := trim_chars (.named name) canonical spelled
    have cut : splitTopLevel (chars (.named name)) unionSeparator = some [chars (.named name)] :=
      split_options [.named name] (by simp) (by simp [isLeaf]) ⟨canonical, trivial⟩
        ⟨spelled, trivial⟩
    have known : ¬ (name.toList = [] ∨ name.toList = ['_']) := by
      rintro (none | placeholder)
      · exact spelled.1.nonempty (toList_inj.mp (by simpa using none))
      · exact spelled.2 (toList_inj.mp (by simpa using placeholder))
    have flat : '<' ∉ name.toList := by
      intro bracket
      have plain := (spelled.1.plain '<' bracket).1
      simp [isDelimiter] at plain
    have text : chars (.named name) = name.toList := rfl
    rw [text] at trim cut ⊢
    rw [parseWithin]
    simp only [trim.strip, if_neg known, cut]
    simp [flat]
  | .generic name arguments, canonical, spelled, fuel + 1, bound => by
    have trim := trim_chars (.generic name arguments) canonical spelled
    have cut : splitTopLevel (chars (.generic name arguments)) unionSeparator =
        some [chars (.generic name arguments)] :=
      split_options [.generic name arguments] (by simp) (by simp [isLeaf])
        ⟨canonical, trivial⟩ ⟨spelled, trivial⟩
    have inner := split_arguments spelled.2.1 canonical spelled.2.2
    have read := parseAllWithin_chars arguments canonical spelled.2.2 fuel fun t member => by
      have within := length_joined [',', ' '] member
      rw [chars_generic] at bound
      simp only [length_append, length_cons] at bound within
      omega
    have known : ¬ (chars (.generic name arguments) = [] ∨
        chars (.generic name arguments) = ['_']) := by
      rw [chars_generic]
      rintro (none | placeholder)
      · simp at none
      · have bracket : '<' ∈ ['_'] := by
          rw [← placeholder]
          simp
        simp at bracket
    have named : ¬ name.toList = [] := fun none =>
      spelled.1.nonempty (toList_inj.mp (by simpa using none))
    rw [parseWithin]
    simp only [trim.strip, if_neg known, cut]
    obtain ⟨before, behind⟩ := spelled.1.cut_bracket (joined [',', ' '] arguments ++ ['>'])
    have last : (name.toList ++ '<' :: (joined [',', ' '] arguments ++ ['>'])).getLast? =
        some '>' := by
      rw [← cons_append, ← append_assoc, getLast?_concat]
    rw [chars_generic]
    simp only [before, behind, last, spelled.1.trim.strip, if_neg named]
    simp [inner, read, spelled.2.1]
  | .union options, canonical, spelled, fuel + 1, bound => by
    have trim := trim_chars (.union options) canonical spelled
    have some_option : options ≠ [] := by
      rintro rfl
      have many := canonical.1
      simp at many
    have cut := split_options options some_option canonical.2.1 canonical.2.2.2 spelled
    have read := parseAllWithin_chars options canonical.2.2.2 spelled fuel fun t member => by
      have within := length_joined unionSeparator member
      have many := canonical.1
      rw [chars_union] at bound
      simp only [unionSeparator, length_cons, length_nil] at within
      omega
    have several : 1 < (options.map chars).length := by
      rw [length_map]
      exact canonical.1
    have known : ¬ (chars (.union options) = [] ∨ chars (.union options) = ['_']) := by
      obtain ⟨option, member⟩ := exists_mem_of_ne_nil options some_option
      have within := length_joined unionSeparator member
      have many := canonical.1
      rw [chars_union]
      simp only [unionSeparator, length_cons, length_nil] at within
      rintro (none | placeholder)
      · simp only [none, length_nil] at within
        omega
      · simp only [placeholder, length_cons, length_nil] at within
        omega
    rw [parseWithin]
    simp only [trim.strip, if_neg known]
    rw [chars_union, show splitTopLevel (joined [' ', 'o', 'r', ' '] options) unionSeparator = _
      from cut]
    simp only [Option.bind_eq_bind, bind_some, if_pos several, read]
    exact congrArg some (unionType_options canonical)

theorem parseAllWithin_chars : ∀ nodes : List TypeNode, CanonicalAll nodes →
    SpelledAll (· ≠ "_") nodes → ∀ fuel : Nat, (∀ t ∈ nodes, (chars t).length < fuel) →
    parseAllWithin fuel (nodes.map chars) = some nodes
  | [], _, _, _, _ => by rw [map_nil, parseAllWithin]
  | node :: nodes, canonical, spelled, fuel, bound => by
    have first := parseWithin_chars node canonical.1 spelled.1 fuel (bound node mem_cons_self)
    have rest := parseAllWithin_chars nodes canonical.2 spelled.2 fuel
      fun t member => bound t (mem_cons_of_mem node member)
    rw [map_cons, parseAllWithin, first, rest]
    rfl
end

theorem fuel_parseTypeText (t : TypeNode) : (chars t).length < 2 * t.render.length + 2 := by
  rw [chars, length_toList]
  omega

/-- `parse_type_text` reads the text of a canonical type without a named type spelled `_` as that
type. -/
theorem parseTypeText_render {t : TypeNode} (canonical : Canonical t)
    (spelled : Spelled (· ≠ "_") t) : parseTypeText t.render = some t :=
  parseWithin_chars t canonical spelled _ (fuel_parseTypeText t)

theorem parseTypeText_render_union :
    Canonical (.generic "Result" [.union [.named "Error", .named "Int"], .unknown]) ∧
    parseTypeText (TypeNode.generic "Result" [.union [.named "Error", .named "Int"], .unknown]).render =
      some (.generic "Result" [.union [.named "Error", .named "Int"], .unknown]) := by
  have canonical : Canonical (.generic "Result" [.union [.named "Error", .named "Int"], .unknown]) := by
    refine ⟨⟨by simp, by simp [isLeaf], ?_, trivial, trivial, trivial⟩, trivial, trivial⟩
    exact List.pairwise_pair.mpr (String.lt_iff_toList_lt.mpr (by decide))
  refine ⟨canonical, parseTypeText_render canonical ?_⟩
  have result : Word "Result" := ⟨by simp, by simp [isDelimiter, isSpace]⟩
  have error : Word "Error" := ⟨by simp, by simp [isDelimiter, isSpace]⟩
  have int : Word "Int" := ⟨by simp, by simp [isDelimiter, isSpace]⟩
  exact ⟨result, by simp, ⟨⟨error, by decide⟩, ⟨int, by decide⟩, trivial⟩, trivial, trivial⟩

/-- The text of the named type `_` is read as the unknown type. -/
theorem placeholder_not_read : Canonical (.named "_") ∧ Spelled (fun _ => True) (.named "_") ∧
    parseTypeText (TypeNode.named "_").render = some .unknown ∧
    parseTypeText (TypeNode.named "_").render ≠ some (.named "_") := by
  have read : parseTypeText (TypeNode.named "_").render = some .unknown := by
    simp [parseTypeText, parseWithin, render, strip, isSpace]
  refine ⟨trivial, ⟨⟨by simp, by simp [isDelimiter, isSpace]⟩, trivial⟩, read, ?_⟩
  rw [read]
  simp

end Koschei.TypeNode
