import TableMapper.FieldType

/-! # Rows

A fetched row: columns with their values, in the order in which the database returned them. A column
may stand in a row more than once; looking it up finds the first.
-/

namespace TableMapper

/-- A row of a result. -/
structure Row where
  cells : List (String × Value)
  deriving DecidableEq

namespace Row

/-- The row without columns. -/
def empty : Row := ⟨[]⟩

/-- The row with one more column at its end. -/
def push (r : Row) (column : String) (v : Value) : Row := ⟨r.cells ++ [(column, v)]⟩

/-- The row of a list of columns with their values. -/
def ofList (cells : List (String × Value)) : Row :=
  cells.foldl (fun r (column, v) => r.push column v) empty

/-- The columns of a row with their values. -/
def toList (r : Row) : List (String × Value) := r.cells

/-- How many columns a row has. -/
def size (r : Row) : Nat := r.cells.length

/-- The value of a column, if the row has it. -/
def find? (r : Row) (column : String) : Option Value := r.cells.lookup column

def value (r : Row) (column : String) : Except Error Value :=
  match r.find? column with
  | some v => .ok v
  | none => .error (.columnNotFound column)

/-- The value of a column, taken to a type. -/
def get (r : Row) (column : String) (t : FieldType) : Except Error Value := do
  t.convert (← r.value column)

/-- Whether a column is absent or NULL. -/
def isNull (r : Row) (column : String) : Bool :=
  match r.find? column with
  | some v => v.isNull
  | none => true

/-- The columns whose names have a given start, under the rest of their names. The columns of a joined
table are selected under such names. -/
def under (r : Row) (start : String) : Row :=
  ⟨r.cells.filterMap fun (column, v) => (Text.dropPrefix? start column).map (·, v)⟩

/-- Whether every column of a row is NULL. -/
def allNull (r : Row) : Bool := r.cells.all fun (_, v) => v.isNull

end Row

end TableMapper
