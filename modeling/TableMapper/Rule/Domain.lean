import TableMapper.Rule.Basic

/-! # Domain rules

Labels between dots, at most one dot after the last. The rule for hostnames restricts labels to ASCII
letters, digits and hyphens, with no hyphen at either end.
-/

namespace TableMapper.Rule

/-- Whether a character may stand in the label of a hostname. -/
def isHostChar (c : Char) : Bool := c.isAlphanum || c == '-'

/-- What is wrong with a label of a domain, if anything is. -/
def labelFault (domain : String) (hostname : Bool) (label : String) : Option Refusal :=
  if label.isEmpty then some (.emptyLabel domain)
  else if maxLabelLength < Text.byteLength label then some (.longLabel label)
  else if hostname = true ∧ label.toList.all isHostChar = false then some (.labelCharacters label)
  else if hostname = true ∧ (label.toList.head? = some '-' ∨ label.toList.getLast? = some '-') then
    some (.labelHyphen label)
  else none

/-- What is wrong with a domain, if anything is. -/
def domainFault (domain : String) (hostname : Bool) : Option Refusal :=
  let bare := (Text.dropSuffix? "." domain).getD domain
  if bare.isEmpty then some .emptyDomain
  else if maxDomainLength < Text.byteLength bare then some .longDomain
  else (Text.splitChar '.' bare).findSome? (labelFault domain hostname)

def checkDomain (o : RuleOptions) (v : Value) : Except Refusal Value :=
  match v.text? with
  | none => .error (.wrongType "a domain" v.typeName)
  | some domain =>
    match domainFault domain o.hostname with
    | some why => .error why
    | none => .ok (.text domain)

end TableMapper.Rule
