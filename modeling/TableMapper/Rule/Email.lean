import TableMapper.Rule.Domain

/-! # E-mail rules

An address is a local part and a hostname around its last `@`. A local part is atoms with dots between
them.
-/

namespace TableMapper.Rule

/-- The characters of atoms beside ASCII letters and digits. -/
def atomMarks : List Char := "!#$%&'*+/=?^_\x60\x7b|\x7d~-".toList

/-- Whether a character may stand in an atom. -/
def isAtomChar (c : Char) : Bool := c.isAlphanum || atomMarks.contains c

/-- Whether a text is atoms with single dots between them. -/
def isLocalPart (cs : List Char) : Bool :=
  (cs.splitOn '.').all fun atom => !atom.isEmpty && atom.all isAtomChar

/-- What a value is as an address. -/
def checkEmail (v : Value) : Except Refusal Value :=
  match v.text? with
  | none => .error (.wrongType "an email" v.typeName)
  | some email =>
    match Text.splitLast '@' email.toList with
    | none => .error (.noAt email)
    | some (before, after) =>
      let localPart := String.ofList before
      if localPart.isEmpty ∨ maxLocalLength < Text.byteLength localPart then
        .error (.localLength email)
      else if !isLocalPart before then .error (.localPart email)
      else
        match domainFault (String.ofList after) true with
        | some why => .error (.emailDomain email why)
        | none => .ok (.text email)

end TableMapper.Rule
