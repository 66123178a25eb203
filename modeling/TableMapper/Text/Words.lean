import TableMapper.Text.Basic

/-! # Words of a name

A name in any spelling (`UserRole`, `user-role`, `HTTPServer`) is cut into its words: at every
character that is no letter and no number, between a lower case letter and an upper case one, and
before the last of several upper case letters that a lower case one follows.
-/

namespace TableMapper.Text.Words

/-- The case of the letters before a place in a word. Numbers leave it as it was. -/
inductive Mode where
  /-- At the start of a word. -/
  | boundary
  /-- After a lower case letter. -/
  | lowercase
  /-- After an upper case letter. -/
  | uppercase
  deriving DecidableEq, Repr

/-- The mode after a character. -/
def Mode.next (mode : Mode) (c : Char) : Mode :=
  if isLowercase c then .lowercase else if isUppercase c then .uppercase else mode

/-- Cuts a run of letters and numbers where the case changes. `word` is the word read so far. -/
def cutAtCase (mode : Mode) (word : List Char) : List Char → List (List Char)
  | [] => if word.isEmpty then [] else [word]
  | [c] => [word ++ [c]]
  | c :: d :: rest =>
    let next := mode.next c
    if next = .lowercase ∧ isUppercase d = true then
      (word ++ [c]) :: cutAtCase .boundary [] (d :: rest)
    else if mode = .uppercase ∧ isUppercase c = true ∧ isLowercase d = true then
      word :: cutAtCase .boundary [c] (d :: rest)
    else cutAtCase next (word ++ [c]) (d :: rest)

/-- The words of a name. -/
def cut (cs : List Char) : List (List Char) :=
  (cs.splitOnP fun c => !isAlphanumeric c).flatMap (cutAtCase .boundary [])

/-- A word in lower case; a capital sigma at its end takes the final form. -/
def lowerWord : List Char → List Char
  | [] => []
  | [c] => if c.toNat == 0x3A3 then [Char.ofNat 0x3C2] else lowerChar c
  | c :: cs => lowerChar c ++ lowerWord cs

/-- A name as lower case words with underscores between them. -/
def snake (s : String) : String :=
  String.ofList (['_'].intercalate ((cut s.toList).map lowerWord))

end TableMapper.Text.Words
