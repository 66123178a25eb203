import TableMapper.Sql.Token

/-! # Reading tokens

Readers take what they need from the front of a list of tokens, or refuse. Keywords are words without
quotes, in any case.
-/

namespace TableMapper.Sql

/-- Reads from the front of a list of tokens, or refuses. -/
abbrev Reader := StateT (List Token) Option

/-- Whether a token is a given keyword, which is written in capitals. -/
def Token.isKeyword (keyword : String) : Token → Bool
  | .word w => w.toUpper == keyword
  | _ => false

namespace Reader

/-- Reads nothing and refuses. -/
def refuse : Reader α := fun _ => none

/-- The next token, which stays. -/
def peek : Reader (Option Token) := fun ts => some (ts.head?, ts)

/-- Takes the next token. -/
def next : Reader Token
  | [] => none
  | t :: ts => some (t, ts)

/-- Takes what a reader takes, or nothing if it refuses. -/
def attempt (read : Reader α) : Reader (Option α) := fun ts =>
  match read ts with
  | some (a, rest) => some (some a, rest)
  | none => some (none, ts)

/-- Takes a sign if it is next. -/
def sign (s : String) : Reader Bool
  | .sign t :: ts => some (if t = s then (true, ts) else (false, .sign t :: ts))
  | ts => some (false, ts)

/-- Takes a keyword if it is next. -/
def keyword (k : String) : Reader Bool
  | t :: ts => some (if t.isKeyword k then (true, ts) else (false, t :: ts))
  | [] => some (false, [])

/-- The tokens behind a row of keywords. -/
def dropKeywords? : List String → List Token → Option (List Token)
  | [], ts => some ts
  | k :: ks, t :: ts => if t.isKeyword k then dropKeywords? ks ts else none
  | _ :: _, [] => none

/-- Takes keywords if all of them are next, one after the other. -/
def keywords (ks : List String) : Reader Bool := fun ts =>
  match dropKeywords? ks ts with
  | some rest => some (true, rest)
  | none => some (false, ts)

/-- Takes the first of some keywords that is next. -/
def oneOf : List String → Reader (Option String)
  | [] => pure none
  | k :: ks => do if ← keyword k then pure (some k) else oneOf ks

/-- Whether a keyword is next; it stays. -/
def nextIs (k : String) : Reader Bool := fun ts => some (ts.head?.any (·.isKeyword k), ts)

/-- Whether a sign is next; it stays. -/
def nextIsSign (s : String) : Reader Bool := fun ts => some (ts.head? == some (.sign s), ts)

/-- Refuses unless something was there to take. -/
def need (taken : Reader Bool) : Reader Unit := do
  unless ← taken do refuse

/-- Takes a name: a word, or a text between any quotes. -/
def identifier : Reader String := do
  match ← next with
  | .word text | .name text | .text text | .quoted text => pure text
  | _ => refuse

/-- Takes a name if one is next. -/
def identifier? : Reader (Option String) := attempt identifier

/-- Takes what a reader takes, and goes on behind every comma. -/
def separated (read : Reader α) : Nat → Reader (List α)
  | 0 => refuse
  | steps + 1 => do
    let a ← read
    if ← sign "," then pure (a :: (← separated read steps)) else pure [a]

/-- As many steps as there are tokens to take. -/
def room : Reader Nat := fun ts => some (ts.length + 1, ts)

/-- Takes one or more things with commas between them. -/
def commas (read : Reader α) : Reader (List α) := do separated read (← room)

/-- Takes what a reader takes, and what is written around it between parentheses. -/
def parenthesized (read : Reader α) : Reader α := do
  need (sign "(")
  let a ← read
  need (sign ")")
  pure a

/-- Takes as many things as there are. -/
def repeatedly (read : Reader (Option α)) : Nat → Reader (List α)
  | 0 => pure []
  | steps + 1 => do
    match ← read with
    | none => pure []
    | some a => pure (a :: (← repeatedly read steps))

/-- Takes as many things as there are. -/
def many (read : Reader (Option α)) : Reader (List α) := do repeatedly read (← room)

/-- Takes the parts of a name with points between them. -/
def path : Nat → Reader (List Token)
  | 0 => refuse
  | steps + 1 => do
    let part ← next
    match part with
    | .word _ | .name _ | .text _ | .quoted _ =>
      if ← sign "." then pure (part :: (← path steps)) else pure [part]
    | _ => refuse

/-- Takes a name that may have several parts. -/
def qualifiedName : Reader (List Token) := do path (← room)

end Reader

/-- A quote that a text must double when it is written between such quotes. Quotes that are doubled already
or stand behind a backslash are left as they are. -/
def doubleQuotes (quote : Char) (previous : Char) : List Char → List Char
  | [] => []
  | [c] => if c = quote ∧ previous ≠ '\\' then [c, c] else [c]
  | c :: d :: cs =>
    if c = quote then
      if previous = '\\' then c :: doubleQuotes quote previous (d :: cs)
      else if d = quote then c :: d :: doubleQuotes quote quote cs
      else c :: c :: doubleQuotes quote c (d :: cs)
    else c :: doubleQuotes quote c (d :: cs)

/-- A text between quotes. -/
def between (quote : Char) (s : String) : String :=
  String.ofList (quote :: doubleQuotes quote '\x00' s.toList ++ [quote])

/-- A token as it is written. -/
def Token.spelling : Token → String
  | .word w => w
  | .name s => between '\x60' s
  | .number s => s
  | .text content => between '\'' content
  | .quoted content => between '"' content
  | .marked mark quote content =>
    String.singleton mark ++ String.singleton quote ++ content ++ String.singleton quote
  | .sign s => s

/-- A name of several parts as it is written. -/
def pathText (parts : List Token) : String := ".".intercalate (parts.map Token.spelling)

/-- What the last part of a name says without quotes. -/
def lastName (parts : List Token) : String :=
  match parts.getLast? with
  | some (.word text) | some (.name text) | some (.text text) | some (.quoted text) => text
  | _ => ""

end TableMapper.Sql
