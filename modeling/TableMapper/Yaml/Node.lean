import TableMapper.Json.Basic
import TableMapper.Number.Integer
import TableMapper.Text.Hex

/-! # Nodes of YAML documents

A document is a tree of scalars, sequences and mappings. A node may be named by an anchor, and a reference
stands for the node of that name that came last before it. What a plain scalar looks like decides whether it
is a number, a truth value or nothing at all, unless a tag says what it is.
-/

namespace TableMapper.Yaml

/-- What a tag says about a scalar. -/
inductive Tag where
  /-- One of the kinds that the language knows, by its name. -/
  | core (name : String)
  | other
  deriving DecidableEq, Repr

/-- What may stand in front of a node. -/
structure Properties where
  anchor : Option String := none
  tag : Option Tag := none
  deriving DecidableEq, Repr

/-- A node of a document. -/
inductive Node where
  /-- A scalar that is written plainly. -/
  | plain (written : String)
  /-- A scalar between quotes, or a block of lines. -/
  | text (s : String)
  | sequence (items : List Node)
  /-- A mapping; no key comes twice. -/
  | mapping (members : List (String × Node))
  | reference (name : String)
  /-- A node with properties in front of it. -/
  | with (properties : Properties) (node : Node)

/-- The node where nothing is written. -/
def Node.empty : Node := .plain "~"

/-- Reads a whole number of 64 bits in one of the bases. -/
def integerOf? (cs : List Char) : Option Int :=
  let small := fun (n : Int) => (Integer.ofInt? .int64 n).map (·.val)
  let ofBase := fun (base : Nat) (ds : List Char) =>
    if ds.isEmpty then none
    else
      match ds.mapM Text.hexValue? with
      | some values =>
        if values.all (· < base) then small (values.foldl (fun n d => n * base + d) 0 : Nat) else none
      | none => none
  let marked := match cs with
    | '0' :: 'x' :: ds => ofBase 16 ds
    | '0' :: 'o' :: ds => ofBase 8 ds
    | _ => none
  marked.or ((Integer.read? .int64 cs).map (·.val))

/-- The words for infinities and for what is no number. -/
def realWords : List String :=
  [".inf", ".Inf", ".INF", "+.inf", "+.Inf", "+.INF", "-.inf", "-.Inf", "-.INF", ".nan", ".NaN", ".NAN"]

/-- A floating-point number written with digits. -/
def digitsValue? (cs : List Char) : Option Number.Double :=
  if cs.any Char.isDigit then Number.Binary.read? cs else none

/-- Whether a plain scalar is a floating-point number: digits, or one of the words. -/
def isReal (cs : List Char) : Bool :=
  realWords.contains (String.ofList cs) || (digitsValue? cs).isSome

/-- A floating-point number. The words for infinities and for what is no number have no value. -/
def realValue? (cs : List Char) : Option Json := (digitsValue? cs).map fun x => .number (.real x)

/-- Whether a plain scalar says that there is nothing. -/
def isNothing (cs : List Char) : Bool := cs.isEmpty || cs == ['~'] || cs == "null".toList

/-- The value of a plain scalar. -/
def plainValue? (cs : List Char) : Option Json :=
  if isNothing cs then some .null
  else if cs = "true".toList then some (.bool true)
  else if cs = "false".toList then some (.bool false)
  else
    match integerOf? cs with
    | some n => some (.number (.whole n))
    | none => if isReal cs then realValue? cs else some (.text (String.ofList cs))

/-- The value of a plain scalar behind a tag. It is nothing if the scalar is not what the tag says. -/
def taggedValue? (cs : List Char) : Tag → Option Json
  | .core "bool" =>
    some (if cs = "true".toList then .bool true else if cs = "false".toList then .bool false else .null)
  | .core "int" =>
    some (match Integer.read? .int64 cs with
      | some n => .number (.whole n.val)
      | none => .null)
  | .core "float" => if isReal cs then realValue? cs else some .null
  | .core "null" => some .null
  | _ => some (.text (String.ofList cs))

/-- The key that a plain scalar stands for. -/
def keyOf? (written : List Char) : Option String :=
  if isNothing written then none
  else
    match integerOf? written with
    | some n => some (toString n)
    | none => some (String.ofList written)

/-- The values of the nodes with anchors, the last one first. -/
abbrev Anchors := List (String × Json)

mutual

/-- The value of a node, given the anchors before it, and the anchors after it. Inside a node, a reference to
the node itself stands for nothing. -/
def Node.value? (anchors : Anchors) : Node → Option (Json × Anchors)
  | .plain written => (plainValue? written.toList).map (·, anchors)
  | .text s => some (.text s, anchors)
  | .sequence items => (itemValues? anchors items).map fun (vs, anchors) => (.array vs, anchors)
  | .mapping members => (memberValues? anchors members).map fun (vs, anchors) => (Json.ofMembers vs, anchors)
  | .reference name => (anchors.lookup name).map (·, anchors)
  | .with properties node => do
    let opened := match properties.anchor with
      | some name => (name, .null) :: anchors
      | none => anchors
    let (v, anchors) ← match properties.tag, node with
      | some tag, .plain written => (taggedValue? written.toList tag).map (·, opened)
      | _, node => node.value? opened
    match properties.anchor with
    | some name => pure (v, (name, v) :: anchors)
    | none => pure (v, anchors)

/-- The values of the items of a sequence. -/
def itemValues? (anchors : Anchors) : List Node → Option (List Json × Anchors)
  | [] => some ([], anchors)
  | node :: rest => do
    let (v, anchors) ← node.value? anchors
    let (vs, anchors) ← itemValues? anchors rest
    pure (v :: vs, anchors)

/-- The values of the members of a mapping. -/
def memberValues? (anchors : Anchors) : List (String × Node) → Option (List (String × Json) × Anchors)
  | [] => some ([], anchors)
  | (key, node) :: rest => do
    let (v, anchors) ← node.value? anchors
    let (vs, anchors) ← memberValues? anchors rest
    pure ((key, v) :: vs, anchors)

end

end TableMapper.Yaml
