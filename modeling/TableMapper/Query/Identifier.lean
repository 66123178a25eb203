import TableMapper.Text.Basic

/-! # Names in statements

Names of tables and columns stand between backticks, one pair for each part of a dotted name. The names
of placeholders are made from those of fields.
-/

namespace TableMapper.Identifier

/-- The quote around names. -/
def quote : Char := '\x60'

/-- One part of a name between backticks; backticks at its ends are dropped, those inside are doubled.
The star that stands for all columns stays bare. -/
def escapePart (part : List Char) : List Char :=
  if part = ['*'] then part
  else
    quote :: (Text.trimList (· == quote) part).flatMap (fun c => if c = quote then [c, c] else [c]) ++
      [quote]

/-- A name between backticks, one pair for each part between dots. -/
def escape (name : String) : String :=
  String.ofList (['.'].intercalate ((name.toList.splitOn '.').map escapePart))

/-- A field, qualified with a table name or alias if there is one. -/
def qualify (table : Option String) (field : String) : String :=
  match table with
  | some t => if t.isEmpty then field else t ++ "." ++ field
  | none => field

/-- A character of a field's name in a placeholder's. -/
def placeholderChar (c : Char) : Char := if c.isAlphanum then c else '_'

/-- The name of a field's first placeholder: letters, digits and underscores, no digit at the start. -/
def placeholderBase (field : String) : String :=
  let cs := field.toList.map placeholderChar
  match cs with
  | [] => "p"
  | c :: _ => if c.isDigit then String.ofList ('p' :: cs) else String.ofList cs

end TableMapper.Identifier
