import TableMapper.Text.Basic

/-! # Tokens of a script

A script of SQL statements is cut into words, names between backticks, numbers, texts between quotes and
signs. Blanks and comments separate tokens and are dropped; the content of a `/*! … */` comment counts as
part of the script.
-/

namespace TableMapper.Sql

/-- A piece of a script. -/
inductive Token where
  /-- A word without quotes: a keyword or a name. -/
  | word (text : String)
  /-- A name between backticks. -/
  | name (text : String)
  | number (text : String)
  /-- A text between single quotes. -/
  | text (content : String)
  /-- A text between double quotes. -/
  | quoted (content : String)
  /-- A text between quotes after a letter that says how it is written. -/
  | marked (mark : Char) (quote : Char) (content : String)
  | sign (text : String)
  deriving DecidableEq, Repr

namespace Token

/-- Whether a token is a word without quotes or a name between backticks. -/
def isName : Token → Bool
  | word _ | name _ => true
  | _ => false

/-- Whether a word can start with a character. Digits can start a word too, but are read as a number
first. -/
def startsWord (c : Char) : Bool :=
  Text.isAlphabetic c || c == '_' || c == '$' || c == '@' || (0x80 ≤ c.toNat && c.toNat ≤ 0xFFFF)

/-- Whether a word can go on with a character. -/
def continuesWord (c : Char) : Bool := startsWord c || c.isDigit

/-- What a character behind a backslash stands for. -/
def unescape : Char → List Char
  | '0' => ['\x00']
  | 'a' => ['\x07']
  | 'b' => ['\x08']
  | 'f' => ['\x0c']
  | 'n' => ['\n']
  | 'r' => ['\r']
  | 't' => ['\t']
  | 'Z' => ['\x1a']
  | '%' => ['\\', '%']
  | '_' => ['\\', '_']
  | c => [c]

/-- A text behind its opening quote, with what follows the closing one. A quote that belongs to the text
is doubled, or stands behind a backslash if those escape. -/
def untilQuote (escapes : Bool) (quote : Char) : List Char → Option (List Char × List Char)
  | [] => none
  | [c] => if c = quote then some ([], []) else none
  | c :: d :: cs =>
    if c = quote then
      if d = quote then (untilQuote escapes quote cs).map fun (content, rest) => (quote :: content, rest)
      else some ([], d :: cs)
    else if escapes && c == '\\' then
      (untilQuote escapes quote cs).map fun (content, rest) => (unescape d ++ content, rest)
    else (untilQuote escapes quote (d :: cs)).map fun (content, rest) => (c :: content, rest)

/-- A comment behind its opening mark, with what follows its end. -/
def untilCommentEnd : List Char → Option (List Char × List Char)
  | [] => none
  | '*' :: '/' :: rest => some ([], rest)
  | c :: cs => (untilCommentEnd cs).map fun (content, rest) => (c :: content, rest)

/-- What follows the line that the text starts with. -/
def nextLine (cs : List Char) : List Char := (cs.dropWhile (· != '\n')).drop 1

/-- An exponent at the start of a text. The second part says whether the text starts like one. -/
def exponent (cs : List Char) : List Char × Bool :=
  match cs with
  | e :: rest =>
    if e == 'e' || e == 'E' then
      let sign := match rest with
        | s :: _ => if s == '+' || s == '-' then [s] else []
        | [] => []
      let digits := (rest.drop sign.length).takeWhile Char.isDigit
      if digits.isEmpty then ([], true) else (e :: sign ++ digits, true)
    else ([], false)
  | [] => ([], false)

/-- A token that starts with a digit or a point: a number, a word that begins with digits, or the point
itself. -/
def numeric (previous : Option Token) (cs : List Char) : Option (Token × List Char) :=
  let afterName := previous.any isName
  match cs with
  | '.' :: '_' :: rest => if afterName then some (sign ".", '_' :: rest) else none
  | _ =>
    let whole := cs.takeWhile Char.isDigit
    let rest := cs.dropWhile Char.isDigit
    match whole, rest with
    | ['0'], 'x' :: rest =>
      let digits := rest.takeWhile fun c => c.isDigit || c.toLower ∈ ['a', 'b', 'c', 'd', 'e', 'f']
      some (marked 'X' '\'' (String.ofList digits), rest.drop digits.length)
    | _, _ =>
      let (point, rest) := match rest with
        | '.' :: rest => (['.'], rest)
        | _ => ([], rest)
      if whole.isEmpty && afterName then some (sign ".", rest)
      else
        let fraction := rest.takeWhile Char.isDigit
        let rest := rest.dropWhile Char.isDigit
        let plain := whole ++ point ++ fraction
        if plain == ['.'] then some (sign ".", rest)
        else
          let (power, like) := exponent rest
          let text := plain ++ power
          let rest := rest.drop power.length
          let letters := if like then [] else rest.takeWhile continuesWord
          if !letters.isEmpty then
            some (word (String.ofList (text ++ letters)), rest.drop letters.length)
          else if like && previous == some (sign ".") then some (word (String.ofList text), rest)
          else
            let rest := match rest with
              | 'L' :: rest => rest
              | _ => rest
            some (number (String.ofList text), rest)

/-- The signs of several characters; a longer one goes before its beginning. -/
def longSigns : List String :=
  ["->>", "->", "||", "=>", "==", "!=", "<=>", "<=", "<>", "<<", ">=", ">>", "::", ":=", "&&"]

/-- A sign at the start of a text. -/
def signAt (c : Char) (cs : List Char) : Token × List Char :=
  let long := longSigns.findSome? fun s => (Text.dropPrefixList? s.toList (c :: cs)).map fun rest => (s, rest)
  match long with
  | some (s, rest) => (sign s, rest)
  | none => (sign (String.singleton c), cs)

/-- A text behind its opening quote as a token. -/
def quotedWith (make : String → Token) (escapes : Bool) (quote : Char) (cs : List Char) :
    Option (Token × List Char) :=
  (untilQuote escapes quote cs).map fun (content, rest) => (make (String.ofList content), rest)

/-- The token that starts with a character which is neither blank nor opens a comment. -/
def first (previous : Option Token) (c : Char) (cs : List Char) : Option (Token × List Char) :=
  let plainWord :=
    some (word (String.ofList (c :: cs.takeWhile continuesWord)), cs.dropWhile continuesWord)
  let quote := cs.head?
  if (c == 'b' || c == 'B') && (quote == some '\'' || quote == some '"') then
    let q := quote.getD '\''
    quotedWith (marked 'B' q) false q (cs.drop 1)
  else if (c == 'n' || c == 'N') && quote == some '\'' then
    quotedWith (marked 'N' '\'') true '\'' (cs.drop 1)
  else if (c == 'x' || c == 'X') && quote == some '\'' then
    quotedWith (marked 'X' '\'') true '\'' (cs.drop 1)
  else if c == '\'' then quotedWith text true '\'' cs
  else if c == '"' then quotedWith quoted true '"' cs
  else if c == '\x60' then quotedWith name false '\x60' cs
  else if c.isDigit || c == '.' then numeric previous (c :: cs)
  else if c == '@' then
    if cs.head?.any startsWord then plainWord else some (sign "@", cs)
  else if startsWord c then plainWord
  else some (signAt c cs)

/-- The tokens of a text, given the token that ends where it begins. Each step takes at least one character, so as many
steps as the text has characters are enough. -/
def scanFrom : Nat → Option Token → List Char → Option (List Token)
  | _, _, [] => some []
  | 0, _, _ => none
  | steps + 1, previous, c :: cs =>
    if c.toNat < 128 && Text.isBlank c then scanFrom steps none cs
    else
      match c, cs with
      | '#', _ => scanFrom steps none (nextLine cs)
      | '-', '-' :: ' ' :: rest => scanFrom steps none (nextLine rest)
      | '/', '*' :: rest => do
        let (content, rest) ← untilCommentEnd rest
        match content with
        | '!' :: hint =>
          let inner ← scanFrom steps previous (hint.dropWhile Char.isDigit)
          let outer ← scanFrom steps (inner.getLast?.or previous) rest
          some (inner ++ outer)
        | _ => scanFrom steps none rest
      | _, _ => do
        let (token, rest) ← first previous c cs
        let others ← scanFrom steps (some token) rest
        some (token :: others)

/-- The tokens of a script, unless a text or a comment does not end. -/
def scan (s : String) : Option (List Token) :=
  let cs := s.toList
  scanFrom cs.length none cs

end Token

end TableMapper.Sql
