/-! # Fragments written by hand

A fragment may refer to placeholders that its author binds. References are found by reading the
fragment as the database does: not inside of literals, and not in `::`.
-/

namespace TableMapper.Fragment

/-- Whether a character may stand in the name of a placeholder. -/
def isNameChar (c : Char) : Bool := c.isAlphanum || c == '_'

/-- The names of the placeholders that a fragment refers to, in order. `quote` is the quote of the
literal that the text starts in, if it does. -/
def scan (quote : Option Char) : List Char → List (List Char)
  | [] => []
  | c :: cs =>
    match quote with
    | some q =>
      if c = '\\' then scan (some q) (cs.drop 1)
      else if c = q then scan none cs
      else scan (some q) cs
    | none =>
      if c = '\'' ∨ c = '"' then scan (some c) cs
      else if c = ':' then
        if cs.head? = some ':' then scan none (cs.drop 1)
        else
          let name := cs.takeWhile isNameChar
          let rest := cs.dropWhile isNameChar
          match name with
          | [] => scan none rest
          | first :: _ => if first.isDigit then scan none rest else name :: scan none rest
      else scan none cs
termination_by cs => cs.length
decreasing_by
  all_goals simp only [List.length_cons, List.length_drop]
  all_goals first
    | omega
    | exact Nat.lt_succ_of_le (List.dropWhile_suffix _).length_le

/-- The names of the placeholders that a fragment refers to, in order. -/
def placeholders (fragment : String) : List String := (scan none fragment.toList).map String.ofList

end TableMapper.Fragment
