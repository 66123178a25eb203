import TableMapper.Column.Kind
import TableMapper.Text.Quoted

/-! # Types of columns

A column type is written as a descriptor, such as `int(10) unsigned` or `enum('a','b')`: a base name,
arguments between parentheses, and attributes. `ColumnType.read?` reads one.
-/

namespace TableMapper

/-- Why a descriptor is refused. -/
inductive TypeFault where
  /-- A base name that the database does not have. -/
  | unknown (base : String)
  /-- A text that is no descriptor. -/
  | invalid (descriptor : String)
  deriving DecidableEq, Repr

/-- The type of a column: its kind, and what the descriptor says beyond that. -/
structure ColumnType where
  kind : ColumnKind
  /-- The display width or length; zero when there is none. -/
  width : Nat := 0
  scale : Nat := 0
  unsigned : Bool := false
  /-- The attributes other than the sign. -/
  other : Option String := none
  /-- The members of an enumeration or a set. -/
  members : List String := []
  deriving DecidableEq, Repr

namespace ColumnType

/-- The type of the values of a column. -/
def scalar (t : ColumnType) : ScalarType := t.kind.scalar t.unsigned

def fieldType (t : ColumnType) (nullable : Bool) : FieldType := ⟨t.scalar, nullable⟩

end ColumnType

/-- A descriptor cut into its parts. -/
structure Descriptor where
  base : List Char
  /-- What stands between the parentheses, if there are any. -/
  arguments : Option (List Char)
  attributes : List Char
  deriving DecidableEq, Repr

namespace Descriptor

/-- What may stand in a base name after its first letter. -/
def isBaseChar (c : Char) : Bool := c.isAlphanum || c == '_'

/-- Whether a text stands on one line. -/
def onOneLine (cs : List Char) : Bool := !cs.contains '\n'

/-- Every way to cut a text at a closing parenthesis, into what is before and after it. -/
def closings : List Char → List (List Char × List Char)
  | [] => []
  | c :: cs =>
    let later := (closings cs).map fun (before, after) => (c :: before, after)
    if c = ')' then ([], cs) :: later else later

/-- The arguments after an opening parenthesis and the attributes behind them. The last closing
parenthesis that leaves both on one line ends the arguments. -/
def cutArguments (cs : List Char) : Option (List Char × List Char) :=
  (closings cs).reverse.findSome? fun (before, after) =>
    let attributes := Text.trimList Text.isBlank after
    if onOneLine before && onOneLine attributes then some (before, attributes) else none

/-- The arguments and attributes that follow a base name. -/
def cutRest (cs : List Char) : Option (Option (List Char) × List Char) :=
  let plain :=
    let attributes := Text.trimList Text.isBlank cs
    if onOneLine attributes then some (none, attributes) else none
  match cs.dropWhile Text.isBlank with
  | '(' :: inner =>
    match cutArguments inner with
    | some (arguments, attributes) => some (some arguments, attributes)
    | none => plain
  | _ => plain

/-- Cuts a descriptor into its parts. -/
def read? (s : String) : Option Descriptor :=
  match s.toList.dropWhile Text.isBlank with
  | [] => none
  | c :: cs =>
    if c.isAlpha then
      (cutRest (cs.dropWhile isBaseChar)).map fun (arguments, attributes) =>
        ⟨c :: cs.takeWhile isBaseChar, arguments, attributes⟩
    else none

/-- A member of an enumeration after its opening quote, with the text behind the closing one. A quote
that belongs to the member is doubled. -/
def member (quote : Char) : List Char → Option (List Char × List Char)
  | [] => none
  | [c] => if c = quote then some ([], []) else none
  | c :: d :: cs =>
    if c = quote then
      if d = quote then (member quote cs).map fun (m, rest) => (quote :: m, rest)
      else some ([], d :: cs)
    else (member quote (d :: cs)).map fun (m, rest) => (c :: m, rest)

theorem member_shorter {quote : Char} {cs m rest : List Char}
    (h : member quote cs = some (m, rest)) : rest.length < cs.length := by
  fun_induction member quote cs generalizing m rest with
  | case1 => simp at h
  | case2 => simp at h; simp [h]
  | case3 => simp at h
  | case4 cs ih =>
    obtain ⟨⟨m', rest'⟩, hm, he⟩ := Option.map_eq_some_iff.1 h
    have := ih hm
    simp only [Prod.mk.injEq] at he
    simp only [List.length_cons, ← he.2]
    omega
  | case5 d cs hc =>
    simp only [Option.some.injEq, Prod.mk.injEq] at h
    simp [← h.2]
  | case6 c d cs hc ih =>
    obtain ⟨⟨m', rest'⟩, hm, he⟩ := Option.map_eq_some_iff.1 h
    have := ih hm
    simp only [Prod.mk.injEq] at he
    simp only [List.length_cons, ← he.2] at this ⊢
    omega

/-- The members of an enumeration: quoted texts with commas between them. -/
def members (cs : List Char) : Option (List (List Char)) :=
  match _hs : cs.dropWhile Text.isBlank with
  | [] => none
  | quote :: inner =>
    if quote = '\'' ∨ quote = '"' then
      match _hm : member quote inner with
      | none => none
      | some (m, rest) =>
        match _hr : rest.dropWhile Text.isBlank with
        | [] => some [m]
        | ',' :: more => (members more).map (m :: ·)
        | _ => none
    else none
termination_by cs.length
decreasing_by
  have h1 : (cs.dropWhile Text.isBlank).length ≤ cs.length := (List.dropWhile_suffix _).length_le
  have h2 : (rest.dropWhile Text.isBlank).length ≤ rest.length := (List.dropWhile_suffix _).length_le
  have h3 := member_shorter _hm
  simp only [_hs, _hr, List.length_cons] at h1 h2
  omega

/-- A width, or a width and a scale. -/
def widthAndScale (cs : List Char) : Option (Nat × Nat) :=
  let read := fun cs => (Integer.read? .uint32 (Text.trimList Text.isBlank cs)).map (·.val.toNat)
  match Text.splitFirst ',' cs with
  | some (width, scale) => do pure (← read width, ← read scale)
  | none => do pure (← read cs, 0)

/-- What the arguments say of a column type: its members if they are quoted, else its width. -/
def applyArguments (t : ColumnType) (cs : List Char) : Option ColumnType :=
  match Text.trimList Text.isBlank cs with
  | [] => some t
  | c :: rest =>
    if c = '\'' ∨ c = '"' then
      (members (c :: rest)).map fun ms => { t with members := ms.map String.ofList }
    else
      (widthAndScale (c :: rest)).map fun (width, scale) => { t with width, scale }

/-- Whether an attribute asks for numbers without a sign. -/
def isUnsigned (word : List Char) : Bool :=
  word.map Char.toLower == "unsigned".toList

/-- What the attributes say of a column type. -/
def applyAttributes (t : ColumnType) (cs : List Char) : ColumnType :=
  let words := Text.splitBlanksList cs
  let others := words.filter fun word => !isUnsigned word
  { t with
    unsigned := words.any isUnsigned
    other := if others.isEmpty then none else some (String.ofList ([' '].intercalate others)) }

/-- A small integer of width one is a truth value. -/
def normalize (t : ColumnType) : ColumnType :=
  if t.kind = .tinyInt ∧ t.width = 1 then
    { kind := .boolean, width := 1, unsigned := t.unsigned, other := t.other }
  else t

end Descriptor

/-- Reads a descriptor. The base name may be in any case. -/
def ColumnType.read (s : String) : Except TypeFault ColumnType :=
  match Descriptor.read? s with
  | none => .error (.invalid s)
  | some d =>
    let base := String.ofList (d.base.map Char.toLower)
    match ColumnKind.ofBaseName? base with
    | none => .error (.unknown base)
    | some kind =>
      let t : ColumnType := { kind }
      match d.arguments with
      | none => .ok (Descriptor.normalize (Descriptor.applyAttributes t d.attributes))
      | some arguments =>
        match Descriptor.applyArguments t arguments with
        | none => .error (.invalid s)
        | some t => .ok (Descriptor.normalize (Descriptor.applyAttributes t d.attributes))

end TableMapper
