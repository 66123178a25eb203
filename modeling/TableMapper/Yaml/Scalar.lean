import TableMapper.Text.Hex

/-! # Scalars of YAML documents

A scalar is written plainly, between quotes, or as a block of lines. Line ends inside a scalar are folded: one
end of a line is a blank, and each blank line is an end of a line.
-/

namespace TableMapper.Yaml

/-- Whether a character is a blank inside a line. -/
def isBlank (c : Char) : Bool := c == ' ' || c == '\t'

/-- The text after blanks. -/
def skipBlanks (cs : List Char) : List Char := cs.dropWhile isBlank

/-- Whether a text starts with a blank, ends its line, or is empty. -/
def startsBlank : List Char → Bool
  | [] => true
  | c :: _ => isBlank c || c == '\n'

/-- Whether nothing but a comment follows in the line. Only after a blank, or at the start of a line, is it a
comment. -/
def endsLine : List Char → Bool
  | [] => true
  | c :: _ => c == '\n' || c == '#'

/-- Whether a character has a meaning in collections in brackets. -/
def isBracket (c : Char) : Bool := c == ',' || c == '[' || c == ']' || c == '\x7b' || c == '\x7d'

/-- Whether what follows a dash, a question mark or a colon makes it part of the structure. -/
def standsAlone (inBrackets : Bool) (rest : List Char) : Bool :=
  startsBlank rest || (inBrackets && rest.head?.any isBracket)

/-- Whether a plain scalar may start here. -/
def startsPlain (inBrackets : Bool) : List Char → Bool
  | [] => false
  | c :: rest =>
    if c = '-' ∨ c = '?' ∨ c = ':' then !standsAlone inBrackets rest
    else !(isBracket c || startsBlank [c] ||
      ['#', '&', '*', '!', '|', '>', '\'', '"', '%', '@', '\x60'].contains c)

/-- The part of a plain scalar in one line, and the rest. -/
def plainLine (inBrackets : Bool) : List Char → List Char × List Char
  | [] => ([], [])
  | c :: rest =>
    if c = '\n' ∨ (inBrackets && isBracket c) then ([], c :: rest)
    else if c = ':' ∧ standsAlone inBrackets rest then ([], c :: rest)
    else if isBlank c ∧ rest.head? = some '#' then ([], c :: rest)
    else
      let (taken, rest) := plainLine inBrackets rest
      (c :: taken, rest)

/-- A text without the blanks at its end. -/
def trimEnd (cs : List Char) : List Char := (cs.reverse.dropWhile isBlank).reverse

/-- What becomes of an end of a line with blank lines after it. -/
def folded (blankLines : Nat) : List Char :=
  if blankLines = 0 then [' '] else List.replicate blankLines '\n'

/-- The next line that is not blank: how many blank lines are before it, how far it is indented, and the text
from its first character on. -/
def nextLine : Nat → Nat → List Char → Nat × Nat × List Char
  | 0, blankLines, cs => (blankLines, 0, cs)
  | fuel + 1, blankLines, cs =>
    let text := skipBlanks cs
    match text with
    | '\n' :: rest => nextLine fuel (blankLines + 1) rest
    | _ => (blankLines, cs.length - text.length, text)

/-- Whether a document ends or starts at the start of a line. -/
def isMarker (cs : List Char) : Bool :=
  (cs.take 3 == ['-', '-', '-'] || cs.take 3 == ['.', '.', '.']) && startsBlank (cs.drop 3)

/-- Reads a plain scalar. Lines that go on with it are indented by at least the given number of blanks. -/
def readPlain (inBrackets : Bool) (least : Nat) : Nat → List Char → List Char × List Char
  | 0, cs => ([], cs)
  | fuel + 1, cs =>
    let (taken, rest) := plainLine inBrackets cs
    match rest with
    | '\n' :: after =>
      let (blankLines, indent, text) := nextLine (after.length + 1) 0 after
      let goesOn := match text with
        | [] => false
        | c :: _ => c != '#' && (inBrackets || (least ≤ indent && !(indent == 0 && isMarker text))) &&
            !(inBrackets && isBracket c)
      if goesOn then
        let (more, rest) := readPlain inBrackets least fuel text
        (trimEnd taken ++ folded blankLines ++ more, rest)
      else (trimEnd taken, rest)
    | _ => (trimEnd taken, rest)

/-- The text after an end of a line inside quotes, and what becomes of it. -/
def foldQuoted (cs : List Char) : List Char × List Char :=
  let (blankLines, _, text) := nextLine (cs.length + 1) 0 cs
  (folded blankLines, text)

/-- Reads a text up to its closing single quote; two quotes are one. The text before is kept backwards. -/
def readSingle : Nat → List Char → List Char → Option (List Char × List Char)
  | 0, _, _ => none
  | _ + 1, _, [] => none
  | fuel + 1, before, c :: cs =>
    if c = '\'' then
      match cs with
      | '\'' :: rest => readSingle fuel ('\'' :: before) rest
      | _ => some (before.reverse, cs)
    else if c = '\n' then
      let (fold, rest) := foldQuoted cs
      readSingle fuel (fold.reverse ++ before.dropWhile isBlank) rest
    else readSingle fuel (c :: before) cs

def readNumbered (count : Nat) (cs : List Char) : Option (Char × List Char) := do
  let ds := cs.take count
  if ds.length = count then
    let n ← Text.Hex.readNat? ds
    if n.isValidChar then pure (Char.ofNat n, cs.drop count) else none
  else none

/-- Reads what follows a backslash. -/
def readEscape : List Char → Option (Char × List Char)
  | [] => none
  | c :: cs =>
    match c with
    | '0' => some ('\x00', cs)
    | 'a' => some ('\x07', cs)
    | 'b' => some ('\x08', cs)
    | 't' => some ('\t', cs)
    | '\t' => some ('\t', cs)
    | 'n' => some ('\n', cs)
    | 'v' => some ('\x0b', cs)
    | 'f' => some ('\x0c', cs)
    | 'r' => some ('\r', cs)
    | 'e' => some ('\x1b', cs)
    | ' ' => some (' ', cs)
    | '"' => some ('"', cs)
    | '/' => some ('/', cs)
    | '\\' => some ('\\', cs)
    | 'N' => some (Char.ofNat 0x85, cs)
    | '_' => some (Char.ofNat 0xA0, cs)
    | 'L' => some (Char.ofNat 0x2028, cs)
    | 'P' => some (Char.ofNat 0x2029, cs)
    | 'x' => readNumbered 2 cs
    | 'u' => readNumbered 4 cs
    | 'U' => readNumbered 8 cs
    | _ => none

/-- Reads a text up to its closing double quote. The text before is kept backwards. -/
def readDouble : Nat → List Char → List Char → Option (List Char × List Char)
  | 0, _, _ => none
  | _ + 1, _, [] => none
  | fuel + 1, before, c :: cs =>
    if c = '"' then some (before.reverse, cs)
    else if c = '\n' then
      let (fold, rest) := foldQuoted cs
      readDouble fuel (fold.reverse ++ before.dropWhile isBlank) rest
    else if c = '\\' then
      match cs with
      | '\n' :: rest => readDouble fuel before (skipBlanks rest)
      | _ => do
        let (d, rest) ← readEscape cs
        readDouble fuel (d :: before) rest
    else readDouble fuel (c :: before) cs

/-- Reads a text between quotes, if there is one. -/
def readQuoted? : List Char → Option (Option (String × List Char))
  | '\'' :: cs => some ((readSingle (cs.length + 1) [] cs).map fun (s, rest) => (String.ofList s, rest))
  | '"' :: cs => some ((readDouble (cs.length + 1) [] cs).map fun (s, rest) => (String.ofList s, rest))
  | _ => none

/-- What becomes of the ends of lines at the end of a block. -/
inductive Chomp where
  | strip | clip | keep
  deriving DecidableEq

/-- Reads the marks behind the sign of a block: how far it is indented, and what becomes of its end. -/
def readMarks : List Char → Option Nat → Chomp → Option Nat × Chomp × List Char
  | [], indent, chomp => (indent, chomp, [])
  | c :: cs, indent, chomp =>
    if c = '-' then readMarks cs indent .strip
    else if c = '+' then readMarks cs indent .keep
    else if '1' ≤ c ∧ c ≤ '9' then readMarks cs (some (c.toNat - '0'.toNat)) chomp
    else (indent, chomp, c :: cs)

/-- The lines of a block, and those after it. Blank lines belong to it; others are indented far enough. -/
def blockLines (indent : Nat) : List (List Char) → List (List Char) × List (List Char)
  | [] => ([], [])
  | line :: rest =>
    let depth := (line.takeWhile (· == ' ')).length
    if depth = line.length ∨ indent ≤ depth then
      let (taken, rest) := blockLines indent rest
      (line.drop indent :: taken, rest)
    else ([], line :: rest)

/-- Whether a line of a block is not folded with others. -/
def isRaised (line : List Char) : Bool := line.head?.any isBlank

/-- The text of folded lines, after a line that was raised or not. -/
def foldLines (raised : Bool) : List (List Char) → List Char
  | [] => []
  | [line] => line
  | line :: rest =>
    let blankLines := rest.takeWhile (·.isEmpty)
    match rest.dropWhile (·.isEmpty) with
    | [] => line ++ List.replicate blankLines.length '\n'
    | next :: _ =>
      if line.isEmpty then '\n' :: foldLines raised rest
      else if isRaised line || isRaised next then line ++ '\n' :: foldLines (isRaised line) rest
      else if blankLines.isEmpty then line ++ ' ' :: foldLines false rest
      else line ++ foldLines false rest

/-- Reads a block of lines behind its sign. It is indented by at least the given number of blanks. -/
def readBlock (fold : Bool) (least : Nat) (cs : List Char) : Option (String × List Char) :=
  let (marked, chomp, rest) := readMarks cs none .clip
  match (skipBlanks rest).head? with
  | none => some ("", [])
  | some c =>
    if c = '\n' ∨ (c = '#' ∧ startsBlank rest) then
      let lines := ((skipBlanks rest).dropWhile (· != '\n')).drop 1 |>.splitOn '\n'
      let first := lines.find? fun line => line.any (· != ' ')
      let depth := (first.map fun line => (line.takeWhile (· == ' ')).length).getD 0
      let indent := match marked with
        | some n => least - 1 + n
        | none => max least depth
      let (taken, after) := blockLines indent lines
      let body := (taken.reverse.dropWhile (·.isEmpty)).reverse
      let ends := taken.length - body.length
      let text := if fold then foldLines false body else ['\n'].intercalate body
      let tail := match chomp with
        | .strip => []
        | .clip => if body.isEmpty then [] else ['\n']
        | .keep => List.replicate (if body.isEmpty then ends else ends + 1) '\n'
      some (String.ofList (text ++ tail), ['\n'].intercalate after)
    else none

end TableMapper.Yaml
