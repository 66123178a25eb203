import TableMapper.Code.Error
import TableMapper.Config.Model
import TableMapper.Files.Path

/-! # Resolved configurations

All configurations of a tables file are checked together and their joins are linked to the models of the
joined tables. A model that a join leads to has no joins of its own, so that links end after one step.
-/

namespace TableMapper

/-- What becomes of a join to a configuration that there is none of. -/
inductive DanglingPolicy where
  /-- The join is dropped. -/
  | ignore
  /-- The join is dropped with a warning. -/
  | warn
  /-- Nothing is resolved. -/
  | fail
  deriving DecidableEq, Repr

namespace DanglingPolicy

/-- Every policy. -/
def all : List DanglingPolicy := [ignore, warn, fail]

def name : DanglingPolicy → String
  | ignore => "ignore"
  | warn => "warn"
  | fail => "fail"

/-- The policy of a given name, in any case and with blanks around it. -/
def ofName? (s : String) : Option DanglingPolicy :=
  all.find? fun p => p.name == (Text.trim s).toLower

/-- The policy of a name as it is written in settings: in lower case, without blanks. -/
def ofExactName? (s : String) : Option DanglingPolicy := all.find? fun p => p.name == s

/-- The complaint about a name that is none of a policy. -/
def unknownMessage (s : String) : String :=
  "unknown dangling join policy " ++ Text.Quoted.encode (Text.trim s).toLower ++
    " (expected ignore, warn or fail)"

end DanglingPolicy

/-- A join with the model of the joined table. -/
structure LinkedJoin extends DeclaredJoin where
  /-- The model of the joined table: one of its own entry alone, which has no linked joins to follow. -/
  model : TableModel

/-- A model with its joins linked. -/
structure LinkedModel extends TableModel where
  joins : List LinkedJoin

/-- The configurations of a run. -/
structure Resolution where
  /-- The models to generate code for. -/
  models : KeyMap LinkedModel
  /-- The models that joins may lead to. -/
  base : KeyMap TableModel
  /-- The directory that relative paths start from, if it is not the current one. -/
  root : Option String

namespace Resolution

/-- The directory for generated files of a kind. -/
def artifactDirectory (r : Resolution) (m : TableModel) (a : Artifact) : Option String :=
  (m.place a).map fun place =>
    match r.root with
    | some root => Path.join root place.directory
    | none => place.directory

/-- The resolution with one model only. -/
def narrow (r : Resolution) (name : String) : Resolution :=
  { r with models := r.models.filterKeys (· == name) }

/-- The resolution with one model only, if one is asked for. -/
def keepOnly (r : Resolution) : Option String → Resolution
  | some name => r.narrow name
  | none => r

end Resolution

/-- What is worth telling about a resolution that succeeds all the same. -/
inductive Warning where
  /-- A configuration that fails, and that nothing needs. -/
  | skipped (config : String) (fault : ConfigFault)
  | dropped (label config target : String)
  deriving DecidableEq, Repr

/-- A warning in words. -/
def Warning.message : Warning → String
  | .skipped config fault => s!"Skipping config {config}: " ++ fault.message
  | .dropped label config target =>
    s!"Dropping join {label} of {config}: no configuration named {target}"

/-- A result with the warnings on the way to it. -/
structure Warned (α : Type u) where
  warnings : List Warning
  result : Except GenerationError α

namespace Warned

/-- Goes on with a result. -/
def bind (w : Warned α) (next : α → Warned β) : Warned β :=
  match w.result with
  | .ok a =>
    let after := next a
    ⟨w.warnings ++ after.warnings, after.result⟩
  | .error e => ⟨w.warnings, .error e⟩

instance : Monad Warned where
  pure a := ⟨[], .ok a⟩
  bind := bind

end Warned

namespace Resolution

/-- The configurations that have to be in order if only one is asked for: that one and the targets that its
joins name. -/
def needed (entries : KeyMap ConfigEntry) (name : String) : List String :=
  match entries.get? name with
  | some entry => name :: entry.joins.values.filterMap (·.config)
  | none => [name]

/-- Checks configurations in order. A configuration that fails is passed over with a warning if it is not
among the needed ones. -/
def buildAll [PatternEngine] (needed : Option (List String)) :
    List (String × ConfigEntry) → Warned (List (String × TableModel))
  | [] => pure []
  | (name, entry) :: rest =>
    match TableModel.build name entry with
    | .ok model => do
      let models ← buildAll needed rest
      pure ((name, model) :: models)
    | .error fault =>
      if needed.all fun names => names.contains name then ⟨[], .error (.config fault)⟩
      else do
        ⟨[.skipped name fault], .ok ()⟩
        buildAll needed rest

/-- What becomes of a join without a target. -/
def dangling (policy : DanglingPolicy) (config : String) (join : DeclaredJoin) : Warned Unit :=
  match policy with
  | .ignore => pure ()
  | .warn => ⟨[.dropped join.label config join.target], .ok ()⟩
  | .fail => ⟨[], .error (.danglingJoin config join.label join.target)⟩

def linkJoins (policy : DanglingPolicy) (base : KeyMap TableModel) (config : String) :
    List DeclaredJoin → Warned (List LinkedJoin)
  | [] => pure []
  | join :: rest =>
    match base.get? join.target with
    | some model => do
      let joins ← linkJoins policy base config rest
      pure ({ toDeclaredJoin := join, model } :: joins)
    | none => do
      dangling policy config join
      linkJoins policy base config rest

/-- Links the joins of all models in order. If only one is asked for, the others stay without joins. -/
def linkAll (policy : DanglingPolicy) (base : KeyMap TableModel) (filter : Option String) :
    List (String × TableModel) → Warned (List (String × LinkedModel))
  | [] => pure []
  | (name, model) :: rest => do
    let joins ←
      if filter.all (· == name) then linkJoins policy base model.name model.declaredJoins
      else pure []
    let models ← linkAll policy base filter rest
    pure ((name, { toTableModel := model, joins }) :: models)

/-- Resolves the configurations of a tables file, before all but the one asked for are left out. -/
def resolveWide [PatternEngine] (policy : DanglingPolicy) (root filter : Option String) (entries : KeyMap ConfigEntry) :
    Warned Resolution :=
  match filter with
  | some name =>
    if entries.contains name then resolve (some (needed entries name))
    else ⟨[], .error (.unknownTable name)⟩
  | none => resolve none
where
  resolve (needed : Option (List String)) : Warned Resolution := do
    let base ← buildAll needed entries.toList
    let models ← linkAll policy (.ofList base) filter base
    pure { models := .ofList models, base := .ofList base, root }

/-- Resolves the configurations of a tables file. If one is asked for, only that one is kept, and only it
and the targets of its joins have to be in order. -/
def resolve [PatternEngine] (policy : DanglingPolicy) (root filter : Option String) (entries : KeyMap ConfigEntry) :
    Warned Resolution := do
  pure ((← resolveWide policy root filter entries).keepOnly filter)

end Resolution

end TableMapper
