import TableMapper.Pattern.Engine
import TableMapper.Rule.Basic

/-! # Pattern rules

The text of a value must match a pattern somewhere. The value itself stays as it is.
-/

namespace TableMapper.Rule

/-- The text of a value that patterns are matched with: texts themselves, the key text of all others.
Bytes and documents have none. -/
def matchText? : Value → Option String
  | .bytes _ | .json _ => none
  | v => some v.keyText

/-- Accepts a value whose text matches the pattern. -/
def checkRegexp [PatternEngine] (o : RuleOptions) (v : Value) : Except Refusal Value :=
  match o.pattern with
  | none => .error .noPattern
  | some source =>
    match PatternEngine.compile source with
    | .error complaint => .error (.badPattern source complaint)
    | .ok found =>
      match matchText? v with
      | none => .error (.unmatchable v.typeName)
      | some s => if found s then .ok v else .error (.noMatch s source)

end TableMapper.Rule
