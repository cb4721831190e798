import Koschei.Core.Value

/-!
# Type texts

Equality of type nodes, and `parse_type_text`: how the texts kept in struct and
enum values, and the texts written in the source, are read as structural types.
A text is the list of its characters. Reading fails on unbalanced brackets, on
a generic type without a name and on one without arguments.
-/

namespace Koschei

/-! ## Equality of type nodes -/

namespace TypeNode

mutual
/-- Whether two type nodes are the same. -/
def same : TypeNode → TypeNode → Bool
  | .unknown, .unknown => true
  | .named a, .named b => a == b
  | .variable a, .variable b => a == b
  | .generic a xs, .generic b ys => a == b && sameAll xs ys
  | .union xs, .union ys => sameAll xs ys
  | _, _ => false

def sameAll : List TypeNode → List TypeNode → Bool
  | [], [] => true
  | x :: xs, y :: ys => same x y && sameAll xs ys
  | _, _ => false
end

mutual
theorem same_iff : ∀ a b : TypeNode, same a b = true ↔ a = b
  | .unknown, b => by cases b <;> simp [same]
  | .named _, b => by cases b <;> simp [same]
  | .variable _, b => by cases b <;> simp [same]
  | .generic _ xs, b => by cases b <;> simp [same, sameAll_iff xs]
  | .union xs, b => by cases b <;> simp [same, sameAll_iff xs]

theorem sameAll_iff : ∀ xs ys : List TypeNode, sameAll xs ys = true ↔ xs = ys
  | [], ys => by cases ys <;> simp [sameAll]
  | x :: xs, ys => by cases ys <;> simp [sameAll, same_iff x, sameAll_iff xs]
end

instance : DecidableEq TypeNode := fun a b => decidable_of_iff _ (same_iff a b)

end TypeNode

/-! ## White space -/

/-- `str.isspace` on one character. -/
def isSpace (c : Char) : Bool := let n := c.toNat
  (0x09 ≤ n && n ≤ 0x0d) || (0x1c ≤ n && n ≤ 0x20) || n == 0x85 || n == 0xa0 || n == 0x1680 ||
    (0x2000 ≤ n && n ≤ 0x200a) || n == 0x2028 || n == 0x2029 || n == 0x202f || n == 0x205f ||
    n == 0x3000

/-- `str.strip`. -/
def strip (text : List Char) : List Char :=
  ((text.dropWhile isSpace).reverse.dropWhile isSpace).reverse

/-! ## Splitting and parsing -/

/-- A part of a split, left out when nothing but white space is in it. -/
def pushPart (parts : List (List Char)) (part : List Char) : List (List Char) :=
  if strip part = [] then parts else parts ++ [strip part]

/-- The loop of `split_top_level`: the depth of brackets, the characters of a separator
still to be passed over, the part read so far and the parts before it. -/
def splitLoop (separator : List Char) : (text : List Char) → (depth skip : Nat) →
    (part : List Char) → (parts : List (List Char)) → Option (List (List Char))
  | [], depth, _, part, parts => if depth = 0 then some (pushPart parts part) else none
  | c :: text, depth, skip, part, parts =>
    if skip ≠ 0 then splitLoop separator text depth (skip - 1) part parts
    else if c = '<' then splitLoop separator text (depth + 1) 0 (part ++ [c]) parts
    else if c = '>' then
      if depth = 0 then none else splitLoop separator text (depth - 1) 0 (part ++ [c]) parts
    else if depth = 0 ∧ separator.isPrefixOf (c :: text) then
      splitLoop separator text depth (separator.length - 1) [] (pushPart parts part)
    else splitLoop separator text depth 0 (part ++ [c]) parts

/-- `split_top_level`. -/
def splitTopLevel (text separator : List Char) : Option (List (List Char)) :=
  splitLoop separator text 0 0 [] []

/-- The separators of unions and of type arguments. -/
def unionSeparator : List Char := [' ', 'o', 'r', ' ']

mutual
/-- `parse_type_text`, with a bound on the depth of the parser's own calls. -/
def parseWithin : (fuel : Nat) → List Char → Option TypeNode
  | 0, _ => none
  | fuel + 1, source =>
    let text := strip source
    if text = [] ∨ text = ['_'] then some .unknown
    else do
      let unionParts ← splitTopLevel text unionSeparator
      if 1 < unionParts.length then
        return TypeNode.unionType (← parseAllWithin fuel unionParts)
      else if ¬ text.contains '<' then return .named (ofList text)
      else if text.getLast? ≠ some '>' then none
      else
        let name := strip (text.takeWhile (· ≠ '<'))
        let inner := ((text.dropWhile (· ≠ '<')).drop 1).dropLast
        if name = [] then none
        else
          let arguments ← parseAllWithin fuel (← splitTopLevel inner [','])
          if arguments = [] then none else return .generic (ofList name) arguments

def parseAllWithin : (fuel : Nat) → List (List Char) → Option (List TypeNode)
  | _, [] => some []
  | fuel, part :: parts => do
    let node ← parseWithin fuel part
    return node :: (← parseAllWithin fuel parts)
end

/-- `parse_type_text`. Every call of the parser is on a text at most as long. -/
def parseTypeText (text : String) : Option TypeNode := parseWithin (2 * text.length + 2) text.toList

/-- A text that reads as a type, as the values of the runtime keep it. -/
structure TypeText where
  text : String
  node : TypeNode
  reads : parseTypeText text = some node

end Koschei
