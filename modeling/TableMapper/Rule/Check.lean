import TableMapper.Rule.Boolean
import TableMapper.Rule.Email
import TableMapper.Rule.Integer
import TableMapper.Rule.Regexp

/-! # Checking values

`check` applies the rule of one kind to a value that is not NULL; `validate` also decides about NULL.
Both return the value in the form that the rule gives it.
-/

namespace TableMapper.Rule

/-- Applies a rule, without regard to NULL. -/
def check [PatternEngine] (kind : RuleKind) (o : RuleOptions) (v : Value) : Except Rejection Value :=
  let result :=
    match kind with
    | .boolean => checkBoolean v
    | .integer => checkInteger o v
    | .domain => checkDomain o v
    | .email => checkEmail v
    | .regexp => checkRegexp o v
  result.mapError (⟨kind, ·⟩)

/-- Applies a rule. NULL passes where the options allow it. -/
def validate [PatternEngine] (kind : RuleKind) (o : RuleOptions) (v : Value) : Except Rejection Value :=
  if v.isNull then
    if o.allowNull then .ok .null else .error ⟨kind, .required⟩
  else check kind o v

end TableMapper.Rule
