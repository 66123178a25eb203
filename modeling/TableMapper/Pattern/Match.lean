import TableMapper.Pattern.Basic

/-! # Matching patterns

A text of `n` characters has `n + 1` places. A set of places is a list of as many marks. Matching maps
the set of places where a match may start to the set of places where it may end, so its cost does not
depend on how ambiguous a pattern is.
-/

namespace TableMapper.Pattern

/-- A set of places of a text, as one mark for each place. -/
abbrev Places := List Bool

/-- The places in one of two sets. -/
def Places.union (s t : Places) : Places := List.zipWith (· || ·) s t

/-- The characters before and after each place of a text. -/
def neighbours (before : Option Char) : List Char → List (Option Char × Option Char)
  | [] => [(before, none)]
  | c :: cs => (before, some c) :: neighbours (some c) cs

/-- The places that can be reached in any number of steps, given as many steps as there are places. -/
def closure (step : Places → Places) : Nat → Places → Places
  | 0, s => s
  | n + 1, s =>
    let t := s.union (step s)
    if t = s then s else closure step n t

/-- The places reached in exactly `n` steps. -/
def iterate (step : Places → Places) : Nat → Places → Places
  | 0, s => s
  | n + 1, s => if s.any id then iterate step n (step s) else s

/-- The places reached in at most `n` steps. -/
def within (step : Places → Places) : Nat → Places → Places
  | 0, s => s
  | n + 1, s =>
    let t := s.union (step s)
    if t = s then s else within step n t

/-- The places where a match of a pattern may end that starts at one of the given places. -/
def reach (text : List Char) : Pattern → Places → Places
  | .empty, s => s
  | .char k, s => false :: List.zipWith (fun here c => here && k.holds c) s text
  | .place p, s =>
    List.zipWith (fun here (before, after) => here && p.holds before after) s (neighbours none text)
  | .seq p q, s => reach text q (reach text p s)
  | .alt p q, s => (reach text p s).union (reach text q s)
  | .times p least none, s =>
    closure (fun t => reach text p t) (text.length + 1) (iterate (fun t => reach text p t) least s)
  | .times p least (some most), s =>
    within (fun t => reach text p t) (most - least) (iterate (fun t => reach text p t) least s)

/-- Whether a pattern matches some part of a text. -/
def matchesIn (p : Pattern) (s : String) : Bool :=
  let text := s.toList
  (reach text p (List.replicate (text.length + 1) true)).any id

end TableMapper.Pattern
