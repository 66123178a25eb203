import TableMapper.Yaml.Node
import TableMapper.Yaml.Scalar

/-! # Reading YAML

A document is built of mappings, sequences and scalars. What belongs together is shown by indentation, or by
brackets. Keys are scalars of one line. A text that is no document is refused; why is not reported.
-/

namespace TableMapper.Yaml

/-- A place in a text: how far it is from the start of its line, and the text from there on. -/
structure Cursor where
  column : Nat
  rest : List Char

namespace Cursor

/-- The place after blanks, ends of lines and comments. -/
def skip : Nat → Cursor → Cursor
  | 0, c => c
  | fuel + 1, c =>
    match c.rest with
    | ' ' :: rest => skip fuel ⟨c.column + 1, rest⟩
    | '\t' :: rest => skip fuel ⟨c.column + 1, rest⟩
    | '\n' :: rest => skip fuel ⟨0, rest⟩
    | '#' :: rest => skip fuel ⟨c.column, rest.dropWhile (· != '\n')⟩
    | _ => c

/-- The next place that is not blank. -/
def next (c : Cursor) : Cursor := c.skip (c.rest.length + 1)

/-- The place after blanks in the line. -/
def afterBlanks (c : Cursor) : Cursor :=
  let rest := skipBlanks c.rest
  ⟨c.column + (c.rest.length - rest.length), rest⟩

/-- Whether the document ends here. -/
def atEnd (c : Cursor) : Bool := c.rest.isEmpty || (c.column == 0 && isMarker c.rest)

/-- Whether an item of a sequence starts here. -/
def atDash (c : Cursor) : Bool := c.rest.head? == some '-' && startsBlank (c.rest.drop 1)

/-- The next place after a value that ends its line, unless something else follows in the line. -/
def afterLine (c : Cursor) : Option Cursor :=
  let rest := skipBlanks c.rest
  if rest.head? = some '#' ∧ !startsBlank c.rest then none
  else if endsLine rest then some (next ⟨c.column, rest⟩)
  else none

end Cursor

/-- Whether a character may stand in the name of an anchor, or in a tag. -/
def isNameChar (c : Char) : Bool := !(startsBlank [c] || isBracket c)

/-- The tag of a given spelling, without its first mark. -/
def tagOf : List Char → Tag
  | '!' :: name => .core (String.ofList name)
  | _ => .other

/-- Reads an anchor or a tag, and passes over the blanks behind it. -/
def readProperty? (p : Properties) (mark : Char) (cs : List Char) : Option (Properties × List Char) :=
  let written := cs.takeWhile isNameChar
  let rest := skipBlanks (cs.dropWhile isNameChar)
  if mark = '&' then
    if written.isEmpty || p.anchor.isSome then none
    else some ({ p with anchor := some (String.ofList written) }, rest)
  else if p.tag.isSome then none
  else some ({ p with tag := some (tagOf written) }, rest)

/-- Reads what may stand in front of a node: an anchor and a tag, in any order. -/
def readProperties? (cs : List Char) : Option (Properties × List Char) :=
  let more := fun (p : Properties) (cs : List Char) =>
    match cs with
    | c :: rest => if c = '&' ∨ c = '!' then readProperty? p c rest else some (p, cs)
    | [] => some (p, [])
  (more {} cs).bind fun (p, rest) => more p rest

/-- A node with what stands in front of it, if something does. -/
def Properties.around (p : Properties) (node : Node) : Node := if p = {} then node else .with p node

/-- Reads the name that a reference gives behind its mark. -/
def readReference? (cs : List Char) : Option (Node × List Char) :=
  let name := cs.takeWhile isNameChar
  if name.isEmpty then none else some (.reference (String.ofList name), cs.dropWhile isNameChar)

/-- Reads what stands in front of a node at a place. -/
def Cursor.properties? (c : Cursor) : Option (Properties × Cursor) :=
  (readProperties? c.rest).map fun (p, rest) => (p, ⟨c.column + (c.rest.length - rest.length), rest⟩)

/-- Reads a key and its colon, if a key starts here. -/
def readKey? (start : List Char) : Option (String × List Char) := do
  let (_, cs) ← readProperties? start
  let afterColon := fun (key : String) (rest : List Char) =>
    match skipBlanks rest with
    | ':' :: after => if startsBlank after then some (key, after) else none
    | _ => none
  match readQuoted? cs with
  | some none => none
  | some (some (key, rest)) =>
    if (cs.take (cs.length - rest.length)).contains '\n' then none else afterColon key rest
  | none =>
    if startsPlain false cs then
      let (written, rest) := plainLine false cs
      (keyOf? (trimEnd written)).bind fun key => afterColon key rest
    else none

/-- Adds a member under a key that is new. -/
def addMember (key : String) (v : Node) (members : List (String × Node)) : Option (List (String × Node)) :=
  if (members.lookup key).isSome then none else some (members ++ [(key, v)])

/-- The text after blanks, ends of lines and comments. -/
def skipAll (cs : List Char) : List Char := (Cursor.next ⟨0, cs⟩).rest

mutual

/-- Reads a node among brackets, with what stands in front of it. -/
def readFlow : Nat → List Char → Option (Node × List Char)
  | 0, _ => none
  | fuel + 1, cs => do
    let (p, cs) ← readProperties? cs
    let (node, rest) ←
      if p = {} then readFlowContent fuel cs
      else
        match skipAll cs with
        | ',' :: rest => some (.empty, ',' :: rest)
        | ']' :: rest => some (.empty, ']' :: rest)
        | '\x7d' :: rest => some (.empty, '\x7d' :: rest)
        | cs => readFlowContent fuel cs
    pure (p.around node, rest)

/-- Reads a collection in brackets, or a scalar among such. -/
def readFlowContent : Nat → List Char → Option (Node × List Char)
  | 0, _ => none
  | fuel + 1, cs =>
    match cs with
    | '[' :: rest => (readFlowItems fuel (skipAll rest)).map fun (items, cs) => (.sequence items, cs)
    | '\x7b' :: rest =>
      (readFlowMembers fuel [] (skipAll rest)).map fun (members, cs) => (.mapping members, cs)
    | '*' :: rest => readReference? rest
    | _ =>
      match readQuoted? cs with
      | some found => found.map fun (s, cs) => (.text s, cs)
      | none =>
        if startsPlain true cs then
          let (written, rest) := readPlain true 0 (cs.length + 1) cs
          some (.plain (String.ofList written), rest)
        else none

/-- Reads an item of a sequence in brackets: a node, or a mapping of one member. -/
def readFlowItem : Nat → List Char → Option (Node × List Char)
  | 0, _ => none
  | fuel + 1, cs =>
    match readFlowKey cs with
    | some (key, rest) =>
      match skipAll rest with
      | ':' :: after => (readFlowValue fuel after).map fun (v, cs) => (.mapping [(key, v)], cs)
      | _ => readFlow fuel cs
    | none => readFlow fuel cs

/-- Reads the items of a sequence in brackets up to its end. -/
def readFlowItems : Nat → List Char → Option (List Node × List Char)
  | 0, _ => none
  | fuel + 1, cs =>
    match cs with
    | ']' :: rest => some ([], rest)
    | _ => do
      let (v, cs) ← readFlowItem fuel cs
      match skipAll cs with
      | ',' :: cs => do
        let (vs, cs) ← readFlowItems fuel (skipAll cs)
        pure (v :: vs, cs)
      | ']' :: cs => pure ([v], cs)
      | _ => none

/-- Reads the value of a member in braces, behind the colon. There may be none. -/
def readFlowValue : Nat → List Char → Option (Node × List Char)
  | 0, _ => none
  | fuel + 1, cs =>
    match skipAll cs with
    | ',' :: rest => some (.empty, ',' :: rest)
    | ']' :: rest => some (.empty, ']' :: rest)
    | '\x7d' :: rest => some (.empty, '\x7d' :: rest)
    | cs => readFlow fuel cs

/-- Reads the members of a mapping in braces up to its end. A key alone has no value. -/
def readFlowMembers : Nat → List (String × Node) → List Char → Option (List (String × Node) × List Char)
  | 0, _, _ => none
  | fuel + 1, members, cs =>
    match cs with
    | '\x7d' :: rest => some (members, rest)
    | _ => do
      let (key, cs) ← readFlowKey cs
      let (v, cs) ←
        match skipAll cs with
        | ':' :: cs => readFlowValue fuel cs
        | cs => some (.empty, cs)
      let members ← addMember key v members
      match skipAll cs with
      | ',' :: cs => readFlowMembers fuel members (skipAll cs)
      | '\x7d' :: cs => pure (members, cs)
      | _ => none

/-- Reads a key among brackets. -/
def readFlowKey (start : List Char) : Option (String × List Char) := do
  let (_, cs) ← readProperties? start
  match readQuoted? cs with
  | some found => found
  | none =>
    if startsPlain true cs then
      let (written, rest) := readPlain true 0 (cs.length + 1) cs
      (keyOf? written).map (·, rest)
    else none

end

/-- Reads a node that is no mapping or sequence of its own lines. Lines that go on with it are indented by at
least the given number of blanks. -/
def readInline (least : Nat) (c : Cursor) : Option (Node × Cursor) :=
  match c.rest with
  | '|' :: rest => (readBlock false least rest).map fun (s, rest) => (.text s, Cursor.next ⟨0, rest⟩)
  | '>' :: rest => (readBlock true least rest).map fun (s, rest) => (.text s, Cursor.next ⟨0, rest⟩)
  | cs =>
    let found : Option (Node × List Char) :=
      match readQuoted? cs with
      | some found => found.map fun (s, rest) => (.text s, rest)
      | none =>
        if cs.head? = some '[' ∨ cs.head? = some '\x7b' then readFlow (4 * cs.length + 4) cs
        else if cs.head? = some '*' then readReference? (cs.drop 1)
        else if startsPlain false cs then
          let (written, rest) := readPlain false least (cs.length + 1) cs
          some (.plain (String.ofList written), rest)
        else none
    found.bind fun (node, rest) => (Cursor.afterLine ⟨c.column, rest⟩).map (node, ·)

mutual

/-- Reads a node at the start of a line, or behind the dash of an item. What stands in front of it may have a
line of its own. -/
def readNode : Nat → Nat → Cursor → Option (Node × Cursor)
  | 0, _, _ => none
  | fuel + 1, least, c =>
    if c.atDash then (readSequence fuel c.column c).map fun (items, c) => (.sequence items, c)
    else if (readKey? c.rest).isSome then
      (readMapping fuel c.column [] c).map fun (members, c) => (.mapping members, c)
    else do
      let (p, inner) ← c.properties?
      let (node, after) ←
        if p = {} || !endsLine inner.rest then readInline least inner
        else if inner.next.atEnd || inner.next.column < least then some (.empty, inner.next)
        else readNode fuel least inner.next
      pure (p.around node, after)

/-- Reads what is below a key or a dash at a column: something indented further, or nothing. -/
def readBelow : Nat → Nat → Bool → Cursor → Option (Node × Cursor)
  | 0, _, _, _ => none
  | fuel + 1, column, underKey, c =>
    if c.atEnd then some (.empty, c)
    else if column < c.column then readNode fuel (column + 1) c
    else if underKey && c.column == column && c.atDash then
      (readSequence fuel column c).map fun (items, c) => (.sequence items, c)
    else some (.empty, c)

/-- Reads the items of a sequence whose dashes stand at a column. -/
def readSequence : Nat → Nat → Cursor → Option (List Node × Cursor)
  | 0, _, _ => none
  | fuel + 1, column, c =>
    if c.atEnd || c.column < column || (c.column == column && !c.atDash) then some ([], c)
    else if column < c.column then none
    else do
      let inner := (Cursor.mk (c.column + 1) (c.rest.drop 1)).afterBlanks
      let (v, c) ←
        if endsLine inner.rest then readBelow fuel column false inner.next
        else readNode fuel (column + 1) inner
      let (vs, c) ← readSequence fuel column c
      pure (v :: vs, c)

/-- Reads the members of a mapping whose keys stand at a column. -/
def readMapping : Nat → Nat → List (String × Node) → Cursor → Option (List (String × Node) × Cursor)
  | 0, _, _, _ => none
  | fuel + 1, column, members, c =>
    if c.atEnd || c.column < column then some (members, c)
    else if column < c.column then none
    else do
      let (key, rest) ← readKey? c.rest
      let behind := (Cursor.mk (c.column + (c.rest.length - rest.length)) rest).afterBlanks
      let (p, inner) ← behind.properties?
      let (node, c) ←
        if endsLine inner.rest then readBelow fuel column true inner.next
        else readInline (column + 1) inner
      readMapping fuel column (← addMember key (p.around node) members) c

end

/-- The text with one kind of end of line. -/
def unifyLines : List Char → List Char
  | '\r' :: '\n' :: cs => '\n' :: unifyLines cs
  | '\r' :: cs => '\n' :: unifyLines cs
  | c :: cs => c :: unifyLines cs
  | [] => []

/-- The place after directives and the marker behind them. -/
def skipDirectives : Nat → Cursor → Option (Bool × Cursor)
  | 0, _ => none
  | fuel + 1, c =>
    if c.column = 0 ∧ c.rest.head? = some '%' then
      skipDirectives fuel (Cursor.next ⟨0, c.rest.dropWhile (· != '\n')⟩)
    else if c.column = 0 ∧ isMarker c.rest ∧ c.rest.head? = some '-' then
      some (true, Cursor.next ⟨3, c.rest.drop 3⟩)
    else some (false, c)

/-- Whether nothing follows a document but markers of its end. -/
def endsStream : Nat → Cursor → Bool
  | 0, _ => false
  | fuel + 1, c =>
    c.rest.isEmpty ||
      (c.column == 0 && isMarker c.rest && c.rest.head? == some '.' &&
        endsStream fuel (Cursor.next ⟨3, c.rest.drop 3⟩))

/-- Reads a document. A text without one is read as an empty mapping. -/
def parse? (s : String) : Option Json := do
  let cs := unifyLines s.toList
  let fuel := 5 * cs.length + 8
  let (marked, c) ← skipDirectives fuel (Cursor.next ⟨0, cs⟩)
  if c.atEnd then
    if endsStream fuel c then pure (if marked then .null else .object []) else none
  else
    let (node, c) ← readNode fuel 0 c
    if endsStream fuel c then (node.value? []).map (·.1) else none

end TableMapper.Yaml
