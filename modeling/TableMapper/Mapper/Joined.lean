import TableMapper.Entity.Basic
import TableMapper.Executor
import TableMapper.Mapper.Select

/-! # Joined entities

Rows of a joined select carry two sides: the columns of an entity, and the columns of the joined table under
names that start with the alias of the join. They are read as pairs, or grouped by the key of the entity.
-/

namespace TableMapper

open Decodable (ofRow columns)

/-- A join from an entity to the type `β`, under an alias for the columns of the joined side. -/
structure EntityJoin where
  label : String
  /-- The name that a column of the joined side is selected under. -/
  naming : String → String
  join : Join

namespace EntityJoin

/-- How the names of joined columns start where they are read. -/
def start (label : String) : String := label ++ "__"

/-- A join that selects the columns of the joined side under the names that they are read by. -/
def plain (label : String) (join : Join) : EntityJoin := ⟨label, (start label ++ ·), join⟩

/-- Adds a join to a query, and selects the columns of the joined side. -/
def addTo (j : EntityJoin) (β : Type) [Decodable β] (q : Query) : Query :=
  (columns β).foldl
    (fun q c => q.addField { name := c, table := some j.join.remoteAlias, label := some (j.naming c) })
    (q.addJoin j.join)

end EntityJoin

/-- An entity with the joined sides of its rows. -/
structure Group (α β : Type) where
  /-- The text of the key; an entity without a key stands alone. -/
  key : Option String
  entity : α
  joined : List β

namespace Joined

variable {α β : Type} [Entity α] [Decodable β]

/-- The joined side of a row. One that is NULL throughout is a row without a match. -/
def side (β : Type) [Decodable β] (label : String) (r : Row) : Except Error (Option β) :=
  let side := r.under (EntityJoin.start label)
  if side.allNull then .ok none else (ofRow side).map some

/-- Reads each row as an entity with its joined side. -/
def split (α β : Type) [Entity α] [Decodable β] (label : String) :
    List Row → Except Error (List (α × Option β))
  | [] => .ok []
  | r :: rs => do
    let e ← ofRow r
    let j ← side β label r
    let rest ← split α β label rs
    .ok ((e, j) :: rest)

/-- Adds the joined side of a row to the group of its key, or opens a group for it. -/
def addToGroup (key : String) (e : α) (j : Option β) : List (Group α β) → List (Group α β)
  | [] => [⟨some key, e, j.toList⟩]
  | g :: gs =>
    if g.key = some key then { g with joined := g.joined ++ j.toList } :: gs
    else g :: addToGroup key e j gs

def addRow (e : α) (j : Option β) (groups : List (Group α β)) : List (Group α β) :=
  if (Entity.primaryKey α).isEmpty then groups ++ [⟨none, e, j.toList⟩]
  else addToGroup (Entity.keyText e) e j groups

/-- Reads rows into groups, after the groups of earlier rows. -/
def groupAfter (label : String) (groups : List (Group α β)) : List Row → Except Error (List (Group α β))
  | [] => .ok groups
  | r :: rs => do
    let e ← ofRow r
    let j ← side β label r
    groupAfter label (addRow e j groups) rs

/-- Reads rows as entities, each once and with the joined sides of all its rows. The first row of an entity
says where it stands. -/
def group (α β : Type) [Entity α] [Decodable β] (label : String) (rows : List Row) :
    Except Error (List (α × List β)) := do
  .ok ((← groupAfter label ([] : List (Group α β)) rows).map fun g => (g.entity, g.joined))

variable {σ : Type}

/-- Selects entities with at most one joined side each. -/
def selectOne (α β : Type) [Entity α] [Decodable β] (x : Executor σ) (j : EntityJoin) (q : Query) :
    Access σ (List (α × Option β)) := do
  Access.ofExcept (split α β j.label (← Select.fetchRows x (j.addTo β q)))

/-- Selects entities with all their joined sides. -/
def selectMany (α β : Type) [Entity α] [Decodable β] (x : Executor σ) (j : EntityJoin) (q : Query) :
    Access σ (List (α × List β)) := do
  Access.ofExcept (group α β j.label (← Select.fetchRows x (j.addTo β q)))

end Joined

end TableMapper
