import TableMapper.Json.Basic

/-! # Tables of TOML documents

A document is a list of statements, each of which adds to a table: a pair of a key and a value, the header of
a table, or the header of one more item of a list of tables. Nothing is defined twice: a table has one header
at most, and neither headers nor pairs go on with a table that was written in the other way.
-/

namespace TableMapper.Toml

/-- How a table came to be. -/
inductive Origin where
  /-- By its header. -/
  | written
  /-- By the header of a table inside it. -/
  | implied
  /-- By a key with dots. -/
  | dotted
  deriving DecidableEq, Repr

/-- What stands under a key. -/
inductive Item where
  | value (v : Json)
  | table (origin : Origin) (members : List (String × Item))
  /-- A list of tables, the last of them apart, the others from the last to the first. -/
  | tables (last : List (String × Item)) (earlier : List (List (String × Item)))

/-- The members of a table. -/
abbrev Members := List (String × Item)

/-- A statement of a document. Keys are lists of their parts. -/
inductive Statement where
  | pair (key : List String) (v : Json)
  | header (key : List String)
  | listHeader (key : List String)

/-- Puts an item under a key; one that stands there already is replaced. -/
def put (key : String) (item : Item) : Members → Members
  | [] => [(key, item)]
  | (other, old) :: rest => if key = other then (key, item) :: rest else (other, old) :: put key item rest

/-- Changes the table that a header's key leads to. Tables on the way that are not there yet are implied; in a
list of tables the last is meant. -/
def underHeader (change : Origin → Members → Option Item) :
    List String → Origin → Members → Option Item
  | [], origin, members => change origin members
  | key :: rest, origin, members => do
    let item ←
      match members.lookup key with
      | none => underHeader change rest .implied []
      | some (.table inner innerMembers) => underHeader change rest inner innerMembers
      | some (.tables last earlier) =>
        match ← underHeader change rest .written last with
        | .table _ last => some (.tables last earlier)
        | _ => none
      | some (.value _) => none
    pure (.table origin (put key item members))

/-- Adds a pair under a key with dots. Tables on the way are there by such keys, or not at all. -/
def addPair (v : Json) : List String → Members → Option Members
  | [], _ => none
  | [key], members => if (members.lookup key).isSome then none else some (put key (.value v) members)
  | key :: rest, members => do
    let inner ←
      match members.lookup key with
      | none => some []
      | some (.table .dotted inner) => some inner
      | some _ => none
    pure (put key (.table .dotted (← addPair v rest inner)) members)

/-- Adds the table of a header. It may be implied already, but not written. -/
def addHeader (key : String) (origin : Origin) (members : Members) : Option Item :=
  match members.lookup key with
  | none => some (.table origin (put key (.table .written []) members))
  | some (.table .implied inner) => some (.table origin (put key (.table .written inner) members))
  | some _ => none

/-- Adds one more table to a list of tables. -/
def addListHeader (key : String) (origin : Origin) (members : Members) : Option Item :=
  match members.lookup key with
  | none => some (.table origin (put key (.tables [] []) members))
  | some (.tables last earlier) => some (.table origin (put key (.tables [] (last :: earlier)) members))
  | some _ => none

/-- The members of an item that is a table. -/
def Item.members? : Item → Option Members
  | .table _ members => some members
  | _ => none

/-- Carries out a statement inside the table of the last header. -/
def perform (current : List String) (root : Members) : Statement → Option (List String × Members)
  | .pair key v => do
    let change := fun origin members => (addPair v key members).map (Item.table origin)
    let item ← underHeader change current .written root
    pure (current, ← item.members?)
  | .header key => do
    let item ← underHeader (addHeader (← key.getLast?)) key.dropLast .written root
    pure (key, ← item.members?)
  | .listHeader key => do
    let item ← underHeader (addListHeader (← key.getLast?)) key.dropLast .written root
    pure (key, ← item.members?)

/-- Carries out statements in order. -/
def performAll : List String → Members → List Statement → Option Members
  | _, root, [] => some root
  | current, root, s :: rest => do
    let (current, root) ← perform current root s
    performAll current root rest

mutual

def Item.document : Item → Json
  | .value v => v
  | .table _ members => Json.ofMembers (documents members)
  | .tables last earlier => .array (documentList earlier [Json.ofMembers (documents last)])

/-- The documents of members. -/
def documents : List (String × Item) → List (String × Json)
  | [] => []
  | (key, item) :: rest => (key, item.document) :: documents rest

/-- The documents of tables from the last to the first, before those of later ones. -/
def documentList : List (List (String × Item)) → List Json → List Json
  | [], later => later
  | members :: rest, later => documentList rest (Json.ofMembers (documents members) :: later)

end

/-- The document of statements, if they go together. -/
def ofStatements? (statements : List Statement) : Option Json :=
  (performAll [] [] statements).map fun root => Json.ofMembers (documents root)

end TableMapper.Toml
