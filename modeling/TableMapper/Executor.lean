import TableMapper.Query.Builder
import TableMapper.Row

/-! # Running statements

What a mapper needs of a database: to run a statement that writes, and to fetch the rows of one that reads.
The state is whatever the database keeps between statements.
-/

namespace TableMapper

/-- Work that uses a database in a state, and may fail. -/
abbrev Access (σ : Type) := ExceptT Error (StateM σ)

/-- What a statement that writes has done. -/
structure ExecuteResult where
  rowsAffected : Nat
  /-- The number that the database gave a new row. -/
  lastInsertId : Option Nat
  deriving DecidableEq, Repr

/-- What runs statements. -/
structure Executor (σ : Type) where
  execute : Statement → Access σ ExecuteResult
  fetchAll : Statement → Access σ (List Row)

/-- What was computed without the database, as work that uses it. -/
def Access.ofExcept : Except Error α → Access σ α
  | .ok a => pure a
  | .error e => throw e

namespace Executor

/-- The first row of a statement, if it has any. -/
def fetchFirst (x : Executor σ) (s : Statement) : Access σ (Option Row) := do
  pure (← x.fetchAll s).head?

/-- The statement that reads how many rows the last one would have had without its limit. -/
def foundRowsStatement : Statement := .ofText "SELECT FOUND_ROWS() AS \x60found_rows\x60"

def countOf (row : Row) (column : String) : Except Error Nat := do
  match ← row.get column ⟨.integer .uint64, false⟩ with
  | .integer n => .ok n.val.toNat
  | _ => .ok 0

/-- The rows of a statement, and how many it would have had without its limit. -/
def fetchWithFoundRows (x : Executor σ) (s : Statement) : Access σ (List Row × Nat) := do
  let rows ← x.fetchAll s
  match ← x.fetchFirst foundRowsStatement with
  | none => pure (rows, 0)
  | some row => do pure (rows, ← Access.ofExcept (countOf row "found_rows"))

end Executor

end TableMapper
