import TableMapper.Text.Basic
import TableMapper.Text.Script

/-! # Patterns of text

A pattern describes the texts of a language: sets of characters, places between characters, sequences,
choices and repetitions. What a pattern captures plays no part, so groups leave no trace in it.
-/

namespace TableMapper

/-- A property that characters may have. -/
inductive CharProperty where
  /-- Letters, marks, decimal digits and connectors of any script. -/
  | word
  /-- Decimal digits of any script. -/
  | digit
  /-- White space of any script. -/
  | space
  /-- Letters of any script and what behaves like them. -/
  | alphabetic
  | lowercase
  | uppercase
  /-- One of the general categories in a list. -/
  | categories (list : List Text.Category)
  | script (name : String)
  deriving DecidableEq, Repr

def CharProperty.holds : CharProperty → Char → Bool
  | .word, c => Text.isWordChar c
  | .digit, c => Text.isDecimalDigit c
  | .space, c => Text.isBlank c
  | .alphabetic, c => Text.isAlphabetic c
  | .lowercase, c => Text.isLowercase c
  | .uppercase, c => Text.isUppercase c
  | .categories list, c => list.contains (Text.category c)
  | .script name, c => ((Text.scripts.lookup name).map (·.contains c)).getD false

inductive CharSet where
  | none
  | range (first last : Char)
  | property (p : CharProperty)
  | not (s : CharSet)
  | or (s t : CharSet)
  | and (s t : CharSet)
  /-- The set, closed under change of case. -/
  | anyCase (s : CharSet)
  deriving DecidableEq, Repr

namespace CharSet

def one (c : Char) : CharSet := .range c c

/-- The characters of the first set that are not in the second. -/
def minus (s t : CharSet) : CharSet := .and s (.not t)

/-- The characters that are in just one of two sets. -/
def differ (s t : CharSet) : CharSet := .or (minus s t) (minus t s)

/-- The characters that differ from one at most in case. -/
def caseVariants (c : Char) : List Char :=
  let base := Text.foldChar c
  let upper := Text.foldRuns.filterMap fun (first, last, step, offset) =>
    let n := ((base.toNat : Int) - offset).toNat
    if first ≤ n ∧ n ≤ last ∧ (n - first) % step = 0 ∧ Text.foldChar (Char.ofNat n) = base then
      some (Char.ofNat n)
    else Option.none
  c :: base :: upper

def holds : CharSet → Char → Bool
  | .none, _ => false
  | .range first last, c => first ≤ c && c ≤ last
  | .property p, c => p.holds c
  | .not s, c => !s.holds c
  | .or s t, c => s.holds c || t.holds c
  | .and s t, c => s.holds c && t.holds c
  | .anyCase s, c => (caseVariants c).any s.holds

end CharSet

/-- A condition on a place between two characters. -/
inductive Place where
  | textStart
  | textEnd
  | lineStart
  | lineEnd
  /-- Like `lineStart` and `lineEnd`, where carriage returns end lines as well. -/
  | crlfStart
  | crlfEnd
  | wordEdge (ascii : Bool)
  | noWordEdge (ascii : Bool)
  | wordStart (ascii : Bool)
  | wordEnd (ascii : Bool)
  /-- No word character before the place. -/
  | wordStartHalf (ascii : Bool)
  /-- No word character after the place. -/
  | wordEndHalf (ascii : Bool)
  deriving DecidableEq, Repr

/-- Whether a character is part of a word, by ASCII alone or by any script. -/
def isWordPart (ascii : Bool) (c : Option Char) : Bool :=
  match c with
  | none => false
  | some c => if ascii then c.isAlphanum || c == '_' else Text.isWordChar c

/-- Whether a place, given by the characters before and after it, meets a condition. -/
def Place.holds (before after : Option Char) : Place → Bool
  | .textStart => before.isNone
  | .textEnd => after.isNone
  | .lineStart => before.isNone || before == some '\n'
  | .lineEnd => after.isNone || after == some '\n'
  | .crlfStart =>
    before.isNone || before == some '\n' || (before == some '\r' && after != some '\n')
  | .crlfEnd =>
    after.isNone || after == some '\r' || (after == some '\n' && before != some '\r')
  | .wordEdge ascii => isWordPart ascii before != isWordPart ascii after
  | .noWordEdge ascii => isWordPart ascii before == isWordPart ascii after
  | .wordStart ascii => !isWordPart ascii before && isWordPart ascii after
  | .wordEnd ascii => isWordPart ascii before && !isWordPart ascii after
  | .wordStartHalf ascii => !isWordPart ascii before
  | .wordEndHalf ascii => !isWordPart ascii after

/-- A pattern of text. -/
inductive Pattern where
  | empty
  | char (s : CharSet)
  | place (p : Place)
  | seq (p q : Pattern)
  | alt (p q : Pattern)
  /-- At least `least` times, and at most `most` times if that is given. -/
  | times (p : Pattern) (least : Nat) (most : Option Nat)
  deriving DecidableEq, Repr

end TableMapper
