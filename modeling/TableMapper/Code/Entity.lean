import TableMapper.Code.Table

/-! # Entity sources

The source of the entity type of a table: its fields, the values they start with, getters and setters, and
how an entity is read from a row and taken apart again.
-/

namespace TableMapper.Code

open Text.Quoted (encode)

/-- One call in the expression that builds the options of a rule. -/
inductive OptionCall where
  | least (n : Int)
  | greatest (n : Int)
  | preset (p : Preset)
  | pattern (s : String)
  | hostname
  | allowNull
  deriving DecidableEq, Repr

def OptionCall.spelling : OptionCall → String
  | .least n => s!".min({n}i128)"
  | .greatest n => s!".max({n}i128)"
  | .preset p => s!".preset(mapgen::IntegerPreset::{p.label})"
  | .pattern s => s!".pattern({encode s})"
  | .hostname => ".hostname(true)"
  | .allowNull => ".allow_null(true)"

/-- The calls that build given options. -/
def optionCalls (o : RuleOptions) : List OptionCall :=
  o.least.toList.map .least ++ o.greatest.toList.map .greatest ++ o.preset.toList.map .preset ++
    o.pattern.toList.map .pattern ++ (if o.hostname then [.hostname] else []) ++
    (if o.allowNull then [.allowNull] else [])

/-- The expression that builds the options of a rule. -/
def optionsExpression (o : RuleOptions) : String :=
  "mapgen::ValidationOptions::new()" ++ String.join ((optionCalls o).map OptionCall.spelling)

/-- The entity type itself. -/
def entityType (t : CodeTable) : Lines :=
  ("/// Row of table " ++ ticked t.model.table ++ ".") ::
    "#[derive(Debug, Clone, PartialEq)]" ::
    block s!"pub struct {t.className}" (t.fields.map fun f => s!"{f.name}: {f.fieldType.spelling},")

/-- The values that the fields start with. -/
def defaultImpl (t : CodeTable) : Lines :=
  let fields := t.fields.map fun f => s!"{f.name}: {f.fieldType.emptyExpression},"
  block s!"impl Default for {t.className}" (block "fn default() -> Self" (block "Self" fields))

/-- The method that gives a field. -/
def getter (f : CodeField) : Method :=
  let (result, expression) := f.fieldType.getter f.name
  { doc := ["Column " ++ ticked f.column], name := f.name, parameters := ["&self"], result := some result,
    body := [expression] }

/-- The method that changes a field; a field with a rule is checked first. -/
def setter (f : CodeField) : Method :=
  let name := "set_" ++ f.plainName
  let parameters := ["&mut self", s!"value: {f.fieldType.spelling}"]
  match f.rule with
  | none =>
    { name, parameters, result := some "&mut Self", body := [s!"self.{f.name} = value;", "self"] }
  | some rule =>
    { doc := ["Sets " ++ ticked f.column ++ " after checking it with the " ++ ticked rule.kind.name ++
        " validator."]
      name, parameters, result := some "mapgen::Result<&mut Self>"
      body :=
        [s!"let options = {optionsExpression rule.options};",
         "let checked = mapgen::validate(",
         s!"    mapgen::ValidatorKind::{rule.kind.label},",
         "    &mapgen::ToValue::to_value(&value),",
         "    &options,",
         ")?;",
         "self." ++ f.name ++ " = " ++ f.fieldType.castExpression "checked" ++ ";",
         "Ok(self)"] }

/-- The method that makes an entity. -/
def newMethod : Method :=
  { name := "new", parameters := [], result := some "Self", body := ["Self::default()"] }

/-- The methods of the entity type. -/
def entityMethods (t : CodeTable) : List Method :=
  newMethod :: t.fields.flatMap fun f => [getter f, setter f]

/-- The methods of the entity type in their block. -/
def accessors (t : CodeTable) : Lines :=
  block s!"impl {t.className}" (spaced ((entityMethods t).map Method.lines))

/-- How an entity is read from a row. -/
def fromRowImpl (t : CodeTable) : Lines :=
  let fields := t.fields.map fun f =>
    f.name ++ ": " ++ f.fieldType.castExpression s!"row.get_value({encode f.column})?" ++ ","
  let fromRow : Method :=
    { kind := "fn", name := "from_row", parameters := ["row: &mapgen::Row"]
      result := some "mapgen::Result<Self>"
      body := "Ok(Self \x7b" :: indent fields ++ ["\x7d)"] }
  let columnNames : Method :=
    { kind := "fn", name := "column_names", parameters := [], result := some "&'static [&'static str]"
      body := [s!"&[{commas (t.fields.map fun f => encode f.column)}]"] }
  block s!"impl mapgen::FromRow for {t.className}" (spaced [fromRow.lines, columnNames.lines])

/-- The method that takes over the number that the database gave a row. A number that does not fit leaves
the field as it is, or empties it where it may be empty. -/
def autoIncrementMethod (f : CodeField) : Method :=
  let inner := f.fieldType.scalar.path
  { kind := "fn", name := "set_auto_increment_id", parameters := ["&mut self", "id: u64"], result := none
    body :=
      if f.nullable then [s!"self.{f.name} = {inner}::try_from(id).ok();"]
      else block s!"if let Ok(id) = {inner}::try_from(id)" [s!"self.{f.name} = id;"] }

/-- The table, keys and values of an entity. -/
def entityImpl (t : CodeTable) : Lines :=
  let keys := t.primaryFields.map fun f => encode f.column
  let auto :=
    match t.autoIncrementField with
    | some f => s!"Some({encode f.column})"
    | none => "None"
  let constants :=
    [s!"const TABLE: &'static str = {encode t.model.table};",
     s!"const PRIMARY_KEYS: &'static [&'static str] = &[{commas keys}];",
     s!"const AUTO_INCREMENT: Option<&'static str> = {auto};"]
  let values : Method :=
    { kind := "fn", name := "values", parameters := ["&self"]
      result := some "Vec<(&'static str, mapgen::Value)>"
      body :=
        "vec![" ::
          indent (t.fields.map fun f =>
            s!"({encode f.column}, mapgen::ToValue::to_value(&self.{f.name})),") ++ ["]"] }
  let methods := values :: (t.autoIncrementField.map autoIncrementMethod).toList
  block s!"impl mapgen::Entity for {t.className}" (spaced (constants :: methods.map Method.lines))

/-- The source of an entity type. -/
def entitySource (t : CodeTable) : String :=
  text (t.header "Entity" ++
    spaced [entityType t, defaultImpl t, accessors t, fromRowImpl t, entityImpl t])

end TableMapper.Code
