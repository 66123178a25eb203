import TableMapper.Sql.DataType

/-! # Expressions

Expressions of a script, as defaults, checks and keys use them. Only the text of an expression is kept: it
is the one way to write what was read, with keywords in capitals and single blanks around operators. How
tightly operators bind decides where an expression ends.
-/

namespace TableMapper.Sql

/-- An expression as it is written. -/
structure Expression where
  text : String
  /-- What the expression says without quotes, if it is nothing but a name. -/
  name : Option String := none
  deriving DecidableEq, Repr

namespace Expression

open Reader

/-- How tightly the operators bind that are signs. -/
def signStrengths : List (String × Nat) :=
  [("->", 16), ("->>", 16), ("=", 20), ("==", 20), ("!=", 20), ("<>", 20), ("<", 20), (">", 20),
   ("<=", 20), (">=", 20), ("<=>", 20), ("|", 21), ("^", 22), ("<<", 22), (">>", 22), ("&", 23),
   ("+", 30), ("-", 30), ("*", 40), ("/", 40), ("%", 40), ("||", 40), ("::", 50)]

/-- How tightly the operators bind that are words. -/
def wordStrengths : List (String × Nat) :=
  [("OR", 5), ("AND", 10), ("XOR", 24), ("IS", 17), ("LIKE", 19), ("REGEXP", 19), ("RLIKE", 19),
   ("IN", 20), ("BETWEEN", 20), ("DIV", 40)]

/-- The words that may follow `NOT` as an operator. -/
def negatable : List String := ["IN", "BETWEEN", "LIKE", "REGEXP", "RLIKE"]

/-- How tightly the operator binds that comes next; zero if none does. In the definition of a column,
`NOT NULL` and `COLLATE` belong to the column and not to the expression before them. -/
def nextStrength (inColumn : Bool) : List Token → Nat
  | .sign s :: _ => (signStrengths.lookup s).getD 0
  | .word w :: rest =>
    match w.toUpper with
    | "NOT" =>
      match rest with
      | .word v :: _ =>
        if v.toUpper ∈ negatable then (wordStrengths.lookup v.toUpper).getD 0
        else if v.toUpper = "NULL" ∧ !inColumn then 17
        else 0
      | _ => 0
    | "COLLATE" => if inColumn then 0 else 42
    | k => (wordStrengths.lookup k).getD 0
  | _ => 0

/-- An operator as it is written afterwards. -/
def operatorText : String → String
  | "!=" => "<>"
  | "==" => "="
  | s => s

/-- The functions whose names are written in capitals. -/
def capitalFunctions : List String := ["CEIL", "FLOOR", "SUBSTRING", "SUBSTR", "TRIM"]

/-- The functions that are called without parentheses too. -/
def clockFunctions : List String :=
  ["CURRENT_TIMESTAMP", "CURRENT_TIME", "CURRENT_DATE", "LOCALTIME", "LOCALTIMESTAMP"]

/-- Takes the texts that follow a text directly; they continue it. -/
def continued : Nat → Reader String
  | 0 => pure ""
  | steps + 1 => do
    match ← peek with
    | some (.text s) | some (.quoted s) =>
      let _ ← next
      pure (s ++ (← continued steps))
    | _ => pure ""

/-- Takes a constant. -/
def constant : Reader String := do
  match ← next with
  | .number s => pure s
  | .text s => do pure (between '\'' (s ++ (← continued (← room))))
  | .quoted s => do pure (between '"' (s ++ (← continued (← room))))
  | .marked mark quote content => pure (Token.marked mark quote content).spelling
  | .word w =>
    match w.toUpper with
    | "NULL" => pure "NULL"
    | "TRUE" => pure "true"
    | "FALSE" => pure "false"
    | _ => refuse
  | _ => refuse

/-- Takes a constant behind the name of its type. -/
def typedConstant : Reader String := do
  let type ← DataType.read
  if type.known && type.text != "INTERVAL" then pure (type.text ++ " " ++ (← constant)) else refuse

/-- Takes a text behind the name of its character set. -/
def introduced (characterSet : String) : Reader String := do
  if characterSet.startsWith "_" then
    match ← next with
    | .text s => pure (characterSet ++ " " ++ between '\'' s)
    | .quoted s => pure (characterSet ++ " " ++ between '"' s)
    | .marked 'X' quote s => pure (characterSet ++ " " ++ (Token.marked 'X' quote s).spelling)
    | _ => refuse
  else refuse

/-- Takes what may stand behind `IS`. -/
def isWhat : Reader String := do
  let negated ← keyword "NOT"
  match ← oneOf ["NULL", "TRUE", "FALSE", "UNKNOWN"] with
  | some k => pure ((if negated then "NOT " else "") ++ k)
  | none => refuse

mutual

/-- Takes an operand, in so many steps. -/
def operand (inColumn : Bool) : Nat → Reader Expression
  | 0 => refuse
  | steps + 1 => do
    match ← attempt typedConstant with
    | some text => pure { text }
    | none =>
      match ← attempt constant with
      | some text => pure { text }
      | none =>
        match ← next with
        | .sign "(" =>
          let first ← within false 0 steps
          let inner ← others false steps
          need (sign ")")
          pure { text := "(" ++ first.text ++ inner ++ ")" }
        | .sign s =>
          if s = "-" ∨ s = "+" then do pure { text := s ++ (← within inColumn 40 steps).text }
          else if s = "!" ∨ s = "~" then do pure { text := s ++ (← within inColumn 15 steps).text }
          else refuse
        | .word w =>
          match ← attempt (special inColumn w steps) with
          | some text => pure { text }
          | none => named inColumn (.word w) steps
        | .name s => named inColumn (.name s) steps
        | _ => refuse

/-- Takes what follows a word that begins an expression of its own kind. -/
def special (inColumn : Bool) (w : String) : Nat → Reader String
  | 0 => refuse
  | steps + 1 =>
    match w.toUpper with
    | "NOT" => do pure ("NOT " ++ (← within inColumn 15 steps).text)
    | "CASE" => do
      let subject ← if ← nextIs "WHEN" then pure "" else do pure (" " ++ (← within inColumn 0 steps).text)
      let branches ← cases inColumn steps
      let otherwise ← if ← keyword "ELSE" then do pure (" ELSE " ++ (← within inColumn 0 steps).text)
        else pure ""
      need (keyword "END")
      pure ("CASE" ++ subject ++ branches ++ otherwise ++ " END")
    | "CAST" => do
      need (sign "(")
      let inner ← within inColumn 0 steps
      need (keyword "AS")
      let type ← DataType.read
      need (sign ")")
      pure ("CAST(" ++ inner.text ++ " AS " ++ type.text ++ ")")
    | "INTERVAL" => do
      let amount ← within inColumn 0 steps
      match ← next with
      | .word unit => pure ("INTERVAL " ++ amount.text ++ " " ++ unit.toUpper)
      | _ => refuse
    | k =>
      if k ∈ clockFunctions then do
        if ← sign "(" then do pure (w ++ "(" ++ (← arguments inColumn steps) ++ ")") else pure w
      else if k ∈ capitalFunctions then do
        need (sign "(")
        pure (k ++ "(" ++ (← arguments inColumn steps) ++ ")")
      else introduced w

/-- Takes the branches of a case distinction. -/
def cases (inColumn : Bool) : Nat → Reader String
  | 0 => refuse
  | steps + 1 => do
    need (keyword "WHEN")
    let condition ← within inColumn 0 steps
    need (keyword "THEN")
    let result ← within inColumn 0 steps
    let branch := " WHEN " ++ condition.text ++ " THEN " ++ result.text
    if ← nextIs "WHEN" then do pure (branch ++ (← cases inColumn steps)) else pure branch

/-- Takes the rest of a name, and the arguments of a call if there are any. -/
def named (inColumn : Bool) (first : Token) : Nat → Reader Expression
  | 0 => refuse
  | steps + 1 => do
    let more ← if ← sign "." then qualifiedName else pure []
    let parts := first :: more
    if ← sign "(" then
      pure { text := pathText parts ++ "(" ++ (← arguments inColumn steps) ++ ")" }
    else pure { text := pathText parts, name := if more.isEmpty then some (lastName parts) else none }

/-- Takes the arguments of a call and the parenthesis that ends them. -/
def arguments (inColumn : Bool) : Nat → Reader String
  | 0 => refuse
  | steps + 1 => do
    if ← sign ")" then pure ""
    else if ← sign "*" then
      need (sign ")")
      pure "*"
    else
      let distinct ← keyword "DISTINCT"
      let first ← within inColumn 0 steps
      let more ← others inColumn steps
      need (sign ")")
      pure ((if distinct then "DISTINCT " else "") ++ first.text ++ more)

/-- Takes the expressions that follow with commas before them. -/
def others (inColumn : Bool) : Nat → Reader String
  | 0 => refuse
  | steps + 1 => do
    if ← sign "," then
      let e ← within inColumn 0 steps
      pure (", " ++ e.text ++ (← others inColumn steps))
    else pure ""

/-- Takes an expression whose operators bind more tightly than a given strength. -/
def within (inColumn : Bool) (strength : Nat) : Nat → Reader Expression
  | 0 => refuse
  | steps + 1 => do
    let first ← operand inColumn steps
    continuing inColumn strength first steps

/-- Takes the operators that follow an expression, with what they apply to. -/
def continuing (inColumn : Bool) (strength : Nat) (left : Expression) : Nat → Reader Expression
  | 0 => refuse
  | steps + 1 => fun ts =>
    let next := nextStrength inColumn ts
    if next ≤ strength then some (left, ts)
    else (do
      let right ← operation inColumn next steps
      continuing inColumn strength { text := left.text ++ right } steps : Reader Expression) ts

/-- Takes an operator and what stands behind it. -/
def operation (inColumn : Bool) (strength : Nat) : Nat → Reader String
  | 0 => refuse
  | steps + 1 => do
    match ← next with
    | .sign "::" => do pure ("::" ++ (← DataType.read).text)
    | .sign s => do pure (" " ++ operatorText s ++ " " ++ (← within inColumn strength steps).text)
    | .word w =>
      let (negation, k) ← if w.toUpper = "NOT" then
          match ← next with
          | .word v => pure ("NOT ", v.toUpper)
          | _ => refuse
        else pure ("", w.toUpper)
      match k with
      | "NULL" => pure " IS NOT NULL"
      | "IS" => do
        if ← keywords ["DISTINCT", "FROM"] then
          pure (" IS DISTINCT FROM " ++ (← within inColumn 0 steps).text)
        else if ← keywords ["NOT", "DISTINCT", "FROM"] then
          pure (" IS NOT DISTINCT FROM " ++ (← within inColumn 0 steps).text)
        else pure (" IS " ++ (← isWhat))
      | "IN" => do
        need (sign "(")
        pure (" " ++ negation ++ "IN (" ++ (← arguments inColumn steps) ++ ")")
      | "BETWEEN" => do
        let low ← within inColumn 20 steps
        need (keyword "AND")
        let high ← within inColumn 20 steps
        pure (" " ++ negation ++ "BETWEEN " ++ low.text ++ " AND " ++ high.text)
      | "LIKE" => do
        let pattern ← within inColumn 19 steps
        let escape ← if ← keyword "ESCAPE" then do pure (" ESCAPE " ++ (← constant)) else pure ""
        pure (" " ++ negation ++ "LIKE " ++ pattern.text ++ escape)
      | "COLLATE" => do pure (" COLLATE " ++ pathText (← qualifiedName))
      | k => do pure (" " ++ negation ++ k ++ " " ++ (← within inColumn strength steps).text)
    | _ => refuse

end

/-- How many steps are enough for an expression: each token is taken within a bounded number of nested
steps. -/
def stepsFor : Reader Nat := fun ts => some (8 * ts.length + 8, ts)

/-- Takes an expression. -/
def read : Reader Expression := do within false 0 (← stepsFor)

/-- Takes an expression in the definition of a column, where operators cannot follow a closing
parenthesis. -/
def readInColumn : Reader Expression := do
  if ← nextIsSign "(" then operand false (← stepsFor) else within true 0 (← stepsFor)

end Expression

end TableMapper.Sql
