import TableMapper.Value

/-! # Rules for field values

A rule says which values a field accepts: its kind, and options of which each kind reads those it
needs. A value that a rule refuses is reported with the code of the kind and a reason.
-/

namespace TableMapper

inductive RuleKind where
  | boolean | integer | domain | email | regexp
  deriving DecidableEq, Repr

namespace RuleKind

/-- Every kind. -/
def all : List RuleKind := [boolean, integer, domain, email, regexp]

/-- The number under which refusals by rules of this kind are reported. -/
def code : RuleKind → Nat
  | boolean => 1001
  | integer => 1002
  | domain => 1003
  | email => 1004
  | regexp => 1005

/-- The name of a kind in configurations and messages. -/
def name : RuleKind → String
  | boolean => "boolean"
  | integer => "integer"
  | domain => "domain"
  | email => "email"
  | regexp => "regexp"

/-- The name of a kind in generated code. -/
def label : RuleKind → String
  | boolean => "Boolean"
  | integer => "Integer"
  | domain => "Domain"
  | email => "Email"
  | regexp => "Regexp"

/-- The kind of a given name, in any case and with blanks around it. -/
def ofName? (s : String) : Option RuleKind :=
  all.find? fun k => k.name == (Text.trim s).toLower

/-- The complaint about a name that is none of a kind. -/
def unknownMessage (s : String) : String := "unknown validator \x60" ++ s ++ "\x60"

end RuleKind

/-- Ranges of storage types that an integer rule can name in place of bounds. -/
inductive Preset where
  | tinyInt | tinyIntUnsigned | smallInt | smallIntUnsigned | mediumInt | mediumIntUnsigned
  | int | intUnsigned | bigInt | bigIntUnsigned
  deriving DecidableEq, Repr

namespace Preset

/-- Every preset. -/
def all : List Preset :=
  [tinyInt, tinyIntUnsigned, smallInt, smallIntUnsigned, mediumInt, mediumIntUnsigned,
   int, intUnsigned, bigInt, bigIntUnsigned]

/-- How many bits a number of the storage type takes. -/
def width : Preset → Nat
  | tinyInt | tinyIntUnsigned => 8
  | smallInt | smallIntUnsigned => 16
  | mediumInt | mediumIntUnsigned => 24
  | int | intUnsigned => 32
  | bigInt | bigIntUnsigned => 64

/-- Whether the storage type holds negative numbers. -/
def signed : Preset → Bool
  | tinyInt | smallInt | mediumInt | int | bigInt => true
  | _ => false

/-- The least number of the storage type. -/
def least (p : Preset) : Int := if p.signed then -(Nat.pow 2 (p.width - 1) : Nat) else 0

/-- The greatest number of the storage type. -/
def greatest (p : Preset) : Int := (Nat.pow 2 (if p.signed then p.width - 1 else p.width) : Nat) - 1

/-- The name of a preset in configurations. -/
def name : Preset → String
  | tinyInt => "tinyint"
  | tinyIntUnsigned => "tinyint_unsigned"
  | smallInt => "smallint"
  | smallIntUnsigned => "smallint_unsigned"
  | mediumInt => "mediumint"
  | mediumIntUnsigned => "mediumint_unsigned"
  | int => "int"
  | intUnsigned => "int_unsigned"
  | bigInt => "bigint"
  | bigIntUnsigned => "bigint_unsigned"

/-- The name of a preset in generated code. -/
def label : Preset → String
  | tinyInt => "TinyInt"
  | tinyIntUnsigned => "TinyIntUnsigned"
  | smallInt => "SmallInt"
  | smallIntUnsigned => "SmallIntUnsigned"
  | mediumInt => "MediumInt"
  | mediumIntUnsigned => "MediumIntUnsigned"
  | int => "Int"
  | intUnsigned => "IntUnsigned"
  | bigInt => "BigInt"
  | bigIntUnsigned => "BigIntUnsigned"

/-- The preset of a given name, in any case; blanks may stand for underscores, and `integer` for
`int`. -/
def ofName? (s : String) : Option Preset :=
  let plain := Text.replaceChar ' ' "_" (Text.trim s).toLower
  let known :=
    if plain = "integer" then "int"
    else if plain = "integer_unsigned" then "int_unsigned"
    else plain
  all.find? fun p => p.name == known

/-- The complaint about a name that is none of a preset. -/
def unknownMessage (s : String) : String := "unknown integer preset \x60" ++ s ++ "\x60"

end Preset

structure RuleOptions where
  least : Option Int := none
  greatest : Option Int := none
  preset : Option Preset := none
  pattern : Option String := none
  hostname : Bool := false
  allowNull : Bool := false
  deriving DecidableEq, Repr

/-- Why a rule refuses a value. -/
inductive Refusal where
  /-- NULL, where it is not allowed. -/
  | required
  /-- A value of a type that the rule does not know; `expected` says what it looks for. -/
  | wrongType (expected actual : String)
  | notBoolean (shown : String)
  | notInteger (text : String)
  | tooWide (n : Int)
  | tooLow (n least : Int)
  | tooHigh (n greatest : Int)
  | emptyDomain
  | longDomain
  | emptyLabel (domain : String)
  | longLabel (label : String)
  | labelCharacters (label : String)
  | labelHyphen (label : String)
  | noAt (email : String)
  | localLength (email : String)
  | localPart (email : String)
  /-- The part of an address after its last `@` is refused for a reason of its own. -/
  | emailDomain (email : String) (why : Refusal)
  | noPattern
  /-- A pattern that the engine complains about. -/
  | badPattern (pattern complaint : String)
  | unmatchable (typeName : String)
  | noMatch (text pattern : String)
  deriving DecidableEq, Repr

/-- Domains may be no longer than this, in bytes. -/
def maxDomainLength : Nat := 253

/-- Labels of domains may be no longer than this, in bytes. -/
def maxLabelLength : Nat := 63

/-- Local parts of addresses may be no longer than this, in bytes. -/
def maxLocalLength : Nat := 64

open Text.Quoted in
/-- A refusal in words. -/
def Refusal.message (kind : RuleKind) : Refusal → String
  | .required => s!"{kind.name} value is required"
  | .wrongType expected actual => s!"expected {expected}, got {actual}"
  | .notBoolean shown => s!"{shown} is not a boolean"
  | .notInteger text => s!"{encode text} is not an integer"
  | .tooWide n => s!"{n} does not fit in 64 bits"
  | .tooLow n least => s!"{n} is lower than the minimum {least}"
  | .tooHigh n greatest => s!"{n} is greater than the maximum {greatest}"
  | .emptyDomain => "domain is empty"
  | .longDomain => s!"domain is longer than {maxDomainLength} characters"
  | .emptyLabel domain => s!"{encode domain} has an empty label"
  | .longLabel label => s!"label {encode label} is longer than {maxLabelLength} characters"
  | .labelCharacters label => s!"label {encode label} has invalid characters"
  | .labelHyphen label => s!"label {encode label} starts or ends with a hyphen"
  | .noAt email => s!"{encode email} has no @"
  | .localLength email => s!"{encode email} has an invalid local part length"
  | .localPart email => s!"{encode email} has an invalid local part"
  | .emailDomain email why => encode email ++ ": " ++ why.message kind
  | .noPattern => "no pattern was configured"
  | .badPattern pattern complaint => s!"invalid pattern {encode pattern}: {complaint}"
  | .unmatchable typeName => s!"cannot match a {typeName} value"
  | .noMatch text pattern => s!"{encode text} does not match {encode pattern}"

/-- A value refused by a rule. -/
structure Rejection where
  kind : RuleKind
  refusal : Refusal
  deriving DecidableEq, Repr

/-- The number under which a rejection is reported. -/
def Rejection.code (r : Rejection) : Nat := r.kind.code

/-- A rejection in words. -/
def Rejection.message (r : Rejection) : String :=
  s!"Validation failed ({r.code}): " ++ r.refusal.message r.kind

end TableMapper
