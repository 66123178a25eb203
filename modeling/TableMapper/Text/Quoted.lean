import TableMapper.Text.Basic

/-! # Quoted text

A text as it is shown in messages and written into generated code: between double quotes, with a
backslash before what would end it and with the number of every character that cannot be shown.
-/

namespace TableMapper.Text.Quoted

/-- The digits of a number in base 16, lower case. -/
def hexDigits (n : Nat) : List Char := Nat.toDigits 16 n

/-- A character as it stands between the quotes. -/
def escapeChar (c : Char) : List Char :=
  match c with
  | '\\' => ['\\', '\\']
  | '"' => ['\\', '"']
  | '\t' => ['\\', 't']
  | '\n' => ['\\', 'n']
  | '\r' => ['\\', 'r']
  | '\x00' => ['\\', '0']
  | _ =>
    if isGraphemeExtend c || !isPrintable c then
      ['\\', 'u', '\x7b'] ++ hexDigits c.toNat ++ ['\x7d']
    else [c]

/-- What stands between the quotes of a text. -/
def escapeList (cs : List Char) : List Char := cs.flatMap escapeChar

/-- A text between double quotes, on one line and without characters that cannot be shown. -/
def encode (s : String) : String := String.ofList ('"' :: escapeList s.toList ++ ['"'])

end TableMapper.Text.Quoted
