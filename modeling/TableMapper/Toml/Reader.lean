import TableMapper.Calendar.Basic
import TableMapper.Number.Binary
import TableMapper.Number.Integer
import TableMapper.Text.Hex
import TableMapper.Toml.Table

/-! # Reading TOML

A document is a sequence of lines with one statement each. Points in time have no counterpart in JSON, so the
caller says what becomes of them. A text that is no document is refused; why is not reported.
-/

namespace TableMapper.Toml

/-- Whether a character is a blank inside a line. -/
def isBlank (c : Char) : Bool := c == ' ' || c == '\t'

/-- The text after blanks. -/
def skipBlanks (cs : List Char) : List Char := cs.dropWhile isBlank

/-- Whether a character may stand in comments and texts. -/
def isPlain (c : Char) : Bool := c == '\t' || (0x20 ≤ c.toNat && c.toNat != 0x7F)

/-- The text after a comment, if there is one. -/
def skipComment : List Char → List Char
  | '#' :: cs => cs.dropWhile isPlain
  | cs => cs

/-- Passes over one end of a line. -/
def readNewline : List Char → Option (List Char)
  | '\n' :: cs => some cs
  | '\r' :: '\n' :: cs => some cs
  | _ => none

/-- Passes over blanks, comments and ends of lines. -/
def skipLines : Nat → List Char → List Char
  | 0, cs => cs
  | fuel + 1, cs =>
    let cs := skipComment (skipBlanks cs)
    match readNewline cs with
    | some rest => skipLines fuel rest
    | none => cs

/-- Whether a character may stand in a key without quotes. -/
def isBare (c : Char) : Bool := c.isAlphanum || c == '_' || c == '-'

/-- Reads the digits of a numbered character. -/
def readNumbered (count : Nat) (cs : List Char) : Option (Char × List Char) := do
  let ds := cs.take count
  if ds.length = count then
    let n ← Text.Hex.readNat? ds
    if n.isValidChar then pure (Char.ofNat n, cs.drop count) else none
  else none

/-- Reads what follows a backslash. -/
def readEscape : List Char → Option (Char × List Char)
  | 'b' :: cs => some ('\x08', cs)
  | 't' :: cs => some ('\t', cs)
  | 'n' :: cs => some ('\n', cs)
  | 'f' :: cs => some ('\x0c', cs)
  | 'r' :: cs => some ('\r', cs)
  | '"' :: cs => some ('"', cs)
  | '\\' :: cs => some ('\\', cs)
  | 'u' :: cs => readNumbered 4 cs
  | 'U' :: cs => readNumbered 8 cs
  | _ => none

/-- Reads a text up to its closing quote. -/
def readBasic : Nat → List Char → Option (List Char × List Char)
  | 0, _ => none
  | _ + 1, [] => none
  | fuel + 1, c :: cs =>
    if c = '"' then some ([], cs)
    else if c = '\\' then do
      let (d, cs) ← readEscape cs
      let (ds, cs) ← readBasic fuel cs
      pure (d :: ds, cs)
    else if isPlain c then do
      let (ds, cs) ← readBasic fuel cs
      pure (c :: ds, cs)
    else none

/-- Reads a text without escapes up to its closing quote. -/
def readLiteral (cs : List Char) : Option (List Char × List Char) :=
  match cs.dropWhile fun c => isPlain c && c != '\'' with
  | '\'' :: rest => some (cs.takeWhile fun c => isPlain c && c != '\'', rest)
  | _ => none

/-- The quotes at the end of a text of several lines: three close it, and up to two before them belong to
it. -/
def readClosing (quote : Char) (cs : List Char) : Option (List Char × List Char) :=
  let count := (cs.takeWhile (· == quote)).length
  if 3 ≤ count then
    let inner := min 2 (count - 3)
    some (List.replicate inner quote, cs.drop (inner + 3))
  else none

/-- The text after a backslash at the end of a line: the next line that is not blank. -/
def skipContinued (cs : List Char) : Option (List Char) :=
  match readNewline (skipBlanks cs) with
  | some rest => some (rest.dropWhile fun c => isBlank c || c == '\n' || c == '\r')
  | none => none

/-- Reads a text of several lines up to its closing quotes. -/
def readLongBasic : Nat → List Char → Option (List Char × List Char)
  | 0, _ => none
  | _ + 1, [] => none
  | fuel + 1, c :: cs =>
    match readClosing '"' (c :: cs) with
    | some found => some found
    | none =>
      if c = '\\' then
        match skipContinued cs with
        | some cs => readLongBasic fuel cs
        | none => do
          let (d, cs) ← readEscape cs
          let (ds, cs) ← readLongBasic fuel cs
          pure (d :: ds, cs)
      else
        match readNewline (c :: cs) with
        | some cs => do
          let (ds, cs) ← readLongBasic fuel cs
          pure ('\n' :: ds, cs)
        | none =>
          if isPlain c then do
            let (ds, cs) ← readLongBasic fuel cs
            pure (c :: ds, cs)
          else none

/-- Reads a text of several lines without escapes up to its closing quotes. -/
def readLongLiteral : Nat → List Char → Option (List Char × List Char)
  | 0, _ => none
  | _ + 1, [] => none
  | fuel + 1, c :: cs =>
    match readClosing '\'' (c :: cs) with
    | some found => some found
    | none =>
      match readNewline (c :: cs) with
      | some cs => do
        let (ds, cs) ← readLongLiteral fuel cs
        pure ('\n' :: ds, cs)
      | none =>
        if isPlain c then do
          let (ds, cs) ← readLongLiteral fuel cs
          pure (c :: ds, cs)
        else none

/-- The text after the end of a line at its start. -/
def dropNewline (cs : List Char) : List Char := (readNewline cs).getD cs

/-- Reads a text in quotes. -/
def readText : List Char → Option (String × List Char)
  | '"' :: '"' :: '"' :: cs =>
    (readLongBasic (cs.length + 1) (dropNewline cs)).map fun (ds, cs) => (String.ofList ds, cs)
  | '\'' :: '\'' :: '\'' :: cs =>
    (readLongLiteral (cs.length + 1) (dropNewline cs)).map fun (ds, cs) => (String.ofList ds, cs)
  | '"' :: cs => (readBasic (cs.length + 1) cs).map fun (ds, cs) => (String.ofList ds, cs)
  | '\'' :: cs => (readLiteral cs).map fun (ds, cs) => (String.ofList ds, cs)
  | _ => none

def readKeyPart : List Char → Option (String × List Char)
  | '"' :: cs => (readBasic (cs.length + 1) cs).map fun (ds, cs) => (String.ofList ds, cs)
  | '\'' :: cs => (readLiteral cs).map fun (ds, cs) => (String.ofList ds, cs)
  | cs =>
    match cs.takeWhile isBare with
    | [] => none
    | ds => some (String.ofList ds, cs.dropWhile isBare)

/-- Reads a key: parts with dots between them. -/
def readKey : Nat → List Char → Option (List String × List Char)
  | 0, _ => none
  | fuel + 1, cs => do
    let (part, cs) ← readKeyPart (skipBlanks cs)
    match skipBlanks cs with
    | '.' :: cs => do
      let (parts, cs) ← readKey fuel cs
      pure (part :: parts, cs)
    | cs => pure ([part], cs)

/-- The digits of a run in which single underscores may stand between digits. -/
def digitsOf? (isDigit : Char → Bool) : List Char → Option (List Char)
  | [] => none
  | [c] => if isDigit c then some [c] else none
  | c :: '_' :: d :: rest => if isDigit c then (digitsOf? isDigit (d :: rest)).map (c :: ·) else none
  | c :: d :: rest => if isDigit c then (digitsOf? isDigit (d :: rest)).map (c :: ·) else none

/-- The number that digits of a base stand for. -/
def ofBase? (base : Nat) (cs : List Char) : Option Int := do
  let isDigit := fun c => (Text.hexValue? c).any (· < base)
  let ds ← digitsOf? isDigit cs
  let values ← ds.mapM Text.hexValue?
  pure (values.foldl (fun n d => n * base + d) 0 : Nat)

/-- The sign of a number, and what follows it. -/
def splitSign : List Char → Bool × List Char
  | '-' :: cs => (true, cs)
  | '+' :: cs => (false, cs)
  | cs => (false, cs)

/-- Digits without a zero before others. -/
def wholeDigits? (cs : List Char) : Option (List Char) :=
  match digitsOf? Char.isDigit cs with
  | some ('0' :: _ :: _) => none
  | found => found

/-- Reads a whole number of 64 bits. -/
def integerOf? (cs : List Char) : Option Int := do
  let n ←
    match cs with
    | '0' :: 'x' :: ds => ofBase? 16 ds
    | '0' :: 'o' :: ds => ofBase? 8 ds
    | '0' :: 'b' :: ds => ofBase? 2 ds
    | _ =>
      let (negative, ds) := splitSign cs
      let n : Int := Number.ofDigits (← wholeDigits? ds)
      some (if negative then -n else n)
  (Integer.ofInt? .int64 n).map (·.val)

/-- The text of an exponent without underscores. -/
def exponentOf? (cs : List Char) : Option (List Char) :=
  let (negative, ds) := splitSign cs
  (digitsOf? Char.isDigit ds).map fun ds => 'e' :: (if negative then '-' :: ds else ds)

/-- The text of a fraction and an exponent without underscores; at least one of them is there. -/
def fractionOf? (cs : List Char) : Option (List Char) :=
  match cs with
  | '.' :: rest => do
    let fraction ← digitsOf? Char.isDigit (rest.takeWhile fun c => c.isDigit || c == '_')
    match rest.dropWhile fun c => c.isDigit || c == '_' with
    | [] => some ('.' :: fraction)
    | e :: rest => if e = 'e' ∨ e = 'E' then (exponentOf? rest).map fun ds => '.' :: fraction ++ ds else none
  | e :: rest => if e = 'e' ∨ e = 'E' then exponentOf? rest else none
  | [] => none

/-- Reads a floating-point number. -/
def realOf? (cs : List Char) : Option Number.Double :=
  let (negative, ds) := splitSign cs
  if ds = ['i', 'n', 'f'] then some (.infinity negative)
  else if ds = ['n', 'a', 'n'] then some (.nan negative)
  else do
    let whole ← wholeDigits? (ds.takeWhile fun c => c.isDigit || c == '_')
    let rest ← fractionOf? (ds.dropWhile fun c => c.isDigit || c == '_')
    Number.Binary.read? ((if negative then ['-'] else []) ++ whole ++ rest)

/-- Reads a number of exactly two digits. -/
def twoDigits : List Char → Option (Nat × List Char)
  | a :: b :: cs => if a.isDigit ∧ b.isDigit then some (Number.ofDigits [a, b], cs) else none
  | _ => none

/-- Reads a character. -/
def expect (c : Char) : List Char → Option (List Char)
  | d :: cs => if c = d then some cs else none
  | [] => none

/-- Reads a day and returns its text. -/
def readDay (cs : List Char) : Option (List Char × List Char) := do
  let (century, rest) ← twoDigits cs
  let (year, rest) ← twoDigits rest
  let rest ← expect '-' rest
  let (month, rest) ← twoDigits rest
  let rest ← expect '-' rest
  let (day, rest) ← twoDigits rest
  let _ ← Date.ofParts? (Int.ofNat (century * 100 + year)) month day
  pure (cs.take 10, rest)

/-- A fraction of a second as it is written back: nine digits at most and no zeros at the end. -/
def shortFraction (ds : List Char) : List Char :=
  match ((ds.take 9).reverse.dropWhile (· == '0')).reverse with
  | [] => []
  | kept => '.' :: kept

/-- Reads a time of day and returns its text. -/
def readClock (cs : List Char) : Option (List Char × List Char) := do
  let (hour, rest) ← twoDigits cs
  let rest ← expect ':' rest
  let (minute, rest) ← twoDigits rest
  let rest ← expect ':' rest
  let (second, rest) ← twoDigits rest
  if hour < 24 ∧ minute < 60 ∧ second ≤ 60 then
    match rest with
    | '.' :: more =>
      match more.takeWhile Char.isDigit with
      | [] => none
      | ds => some (cs.take 8 ++ shortFraction ds, more.dropWhile Char.isDigit)
    | _ => some (cs.take 8, rest)
  else none

/-- Reads how far a clock is from universal time and returns the text. -/
def readOffset : List Char → Option (List Char × List Char)
  | 'Z' :: cs => some (['Z'], cs)
  | 'z' :: cs => some (['Z'], cs)
  | c :: cs =>
    if c = '+' ∨ c = '-' then do
      let (hour, rest) ← twoDigits cs
      let rest ← expect ':' rest
      let (minute, rest) ← twoDigits rest
      if hour < 24 ∧ minute < 60 then pure (c :: cs.take 5, rest) else none
    else none
  | [] => none

/-- Reads a point in time, a day or a time of day, and returns its text. -/
def readMoment (cs : List Char) : Option (List Char × List Char) :=
  match readDay cs with
  | none => readClock cs
  | some (day, rest) =>
    match rest with
    | c :: more =>
      if c = 'T' ∨ c = 't' ∨ c = ' ' then
        match readClock more with
        | some (clock, rest) =>
          match readOffset rest with
          | some (offset, rest) => some (day ++ 'T' :: clock ++ offset, rest)
          | none => some (day ++ 'T' :: clock, rest)
        | none => if c = ' ' then some (day, rest) else none
      else some (day, rest)
    | [] => some (day, [])

/-- Whether a character may stand in a number or a word. -/
def isWord (c : Char) : Bool := c.isAlphanum || c == '_' || c == '+' || c == '-' || c == '.'

/-- The value that a word stands for. -/
def wordValue? (cs : List Char) : Option Json :=
  if cs = "true".toList then some (.bool true)
  else if cs = "false".toList then some (.bool false)
  else
    match integerOf? cs with
    | some n => some (.number (.whole n))
    | none => (realOf? cs).map fun x => .number (.real x)

mutual

def readValue (moment : String → Json) : Nat → List Char → Option (Json × List Char)
  | 0, _ => none
  | fuel + 1, cs =>
    match cs with
    | '[' :: rest => (readItems moment fuel (skipLines rest.length rest)).map fun (l, cs) => (.array l, cs)
    | '\x7b' :: rest =>
      match skipBlanks rest with
      | '\x7d' :: cs => some (.object [], cs)
      | cs => do
        let (members, cs) ← readMembers moment fuel [] cs
        pure (Json.ofMembers (documents members), cs)
    | _ =>
      match readText cs with
      | some (s, cs) => some (.text s, cs)
      | none =>
        match readMoment cs with
        | some (s, cs) => some (moment (String.ofList s), cs)
        | none => (wordValue? (cs.takeWhile isWord)).map (·, cs.dropWhile isWord)

/-- Reads the items of a list up to its end. -/
def readItems (moment : String → Json) : Nat → List Char → Option (List Json × List Char)
  | 0, _ => none
  | fuel + 1, cs =>
    match cs with
    | ']' :: rest => some ([], rest)
    | _ => do
      let (v, cs) ← readValue moment fuel cs
      match skipLines cs.length cs with
      | ',' :: cs => do
        let (vs, cs) ← readItems moment fuel (skipLines cs.length cs)
        pure (v :: vs, cs)
      | ']' :: cs => pure ([v], cs)
      | _ => none

/-- Reads the members of a table in braces up to its end. -/
def readMembers (moment : String → Json) : Nat → Members → List Char → Option (Members × List Char)
  | 0, _, _ => none
  | fuel + 1, members, cs => do
    let (key, cs) ← readKey (cs.length + 1) cs
    let cs ← expect '=' cs
    let (v, cs) ← readValue moment fuel (skipBlanks cs)
    let members ← addPair v key members
    match skipBlanks cs with
    | ',' :: cs => readMembers moment fuel members cs
    | '\x7d' :: cs => pure (members, cs)
    | _ => none

end

def readStatement (moment : String → Json) (cs : List Char) : Option (Statement × List Char) :=
  match cs with
  | '[' :: '[' :: rest => do
    let (key, cs) ← readKey (rest.length + 1) rest
    pure (.listHeader key, ← expect ']' (← expect ']' cs))
  | '[' :: rest => do
    let (key, cs) ← readKey (rest.length + 1) rest
    pure (.header key, ← expect ']' cs)
  | _ => do
    let (key, cs) ← readKey (cs.length + 1) cs
    let cs ← expect '=' cs
    let (v, cs) ← readValue moment (2 * cs.length + 2) (skipBlanks cs)
    pure (.pair key v, cs)

/-- Reads statements, each of which ends its line. -/
def readStatements (moment : String → Json) : Nat → List Char → Option (List Statement)
  | 0, _ => none
  | fuel + 1, cs =>
    match skipLines (cs.length + 1) cs with
    | [] => some []
    | cs => do
      let (s, cs) ← readStatement moment cs
      match skipComment (skipBlanks cs) with
      | [] => pure [s]
      | cs => do
        let cs ← readNewline cs
        pure (s :: (← readStatements moment fuel cs))

/-- Reads a document. -/
def parse? (moment : String → Json) (s : String) : Option Json := do
  ofStatements? (← readStatements moment (s.length + 1) s.toList)

end TableMapper.Toml
