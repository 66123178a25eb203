import TableMapper.Code.Table

/-! # Repository sources

The source of the repository of a table: the contract that its mapper fulfils.
-/

namespace TableMapper.Code

/-- The parameters of a look-up by key. -/
def keyParameters (primary : List CodeField) : List String :=
  primary.map fun f => s!"{f.name}: {f.fieldType.parameter}"

/-- The methods of a repository, without their bodies. -/
def repositoryMethods (t : CodeTable) : List Method :=
  let name := t.className
  let keyed := !t.primaryFields.isEmpty
  let findByKey : Method :=
    { kind := "async fn", name := "find_by_pk", parameters := "&self" :: keyParameters t.primaryFields
      result := some s!"mapgen::Result<Option<{name}>>" }
  let findAll : Method :=
    { kind := "async fn", name := "find_all", parameters := ["&self"]
      result := some s!"mapgen::Result<Vec<{name}>>" }
  let insert : Method :=
    { kind := "async fn", name := "insert", parameters := ["&self", s!"entity: &mut {name}"]
      result := some "mapgen::Result<mapgen::ExecuteResult>" }
  let write := fun (method : String) =>
    { kind := "async fn", name := method, parameters := ["&self", s!"entity: &{name}"]
      result := some "mapgen::Result<u64>" : Method }
  (if keyed then [findByKey] else []) ++ [findAll, insert] ++
    (if keyed then [write "update", write "delete"] else [])

def repositorySource (t : CodeTable) : String :=
  let head :=
    ["/// Storage operations on " ++ ticked t.model.table ++ " rows.",
     "#[mapgen::async_trait]"]
  let contract := block s!"pub trait {t.model.repositoryName}: Send + Sync"
    (spaced ((repositoryMethods t).map Method.declaration))
  text (t.header "Repository" ++
    spaced [[s!"use {t.model.entity.module}::{t.className};"], head ++ contract])

end TableMapper.Code
