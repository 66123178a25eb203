import TableMapper.Rule.Basic

/-! # Boolean rules

Booleans, zero and one, and the usual words for yes and no.
-/

namespace TableMapper.Rule

def yesWords : List String := ["true", "1", "yes", "on"]

/-- Words for no; the empty word is one. -/
def noWords : List String := ["false", "0", "no", "off", ""]

/-- The boolean that a text stands for, in any case and with blanks around it. -/
def wordValue? (s : String) : Option Bool :=
  let word := (Text.trim s).toLower
  if yesWords.contains word then some true
  else if noWords.contains word then some false
  else none

def checkBoolean (v : Value) : Except Refusal Value :=
  match v with
  | .bool b => .ok (.bool b)
  | _ =>
    match v.int? with
    | some n =>
      if n = 0 then .ok (.bool false)
      else if n = 1 then .ok (.bool true)
      else .error (.notBoolean (toString n))
    | none =>
      match v.text? with
      | some s =>
        match wordValue? s with
        | some b => .ok (.bool b)
        | none => .error (.notBoolean (Text.Quoted.encode s))
      | none => .error (.wrongType "a boolean" v.typeName)

end TableMapper.Rule
