import TableMapper.Text.Character

/-! # Cutting and comparing text

Operations on text that the rest of the library shares: trimming at the ends, splitting at a character
or at blanks, prefixes, and case.
-/

namespace TableMapper.Text

/-- The text without the characters of one kind at its start. -/
def trimStartList (p : Char → Bool) (cs : List Char) : List Char := cs.dropWhile p

/-- The text without the characters of one kind at its end. -/
def trimEndList (p : Char → Bool) (cs : List Char) : List Char := (cs.reverse.dropWhile p).reverse

/-- The text without the characters of one kind at either end. -/
def trimList (p : Char → Bool) (cs : List Char) : List Char := trimEndList p (trimStartList p cs)

/-- The text without the blanks at either end. -/
def trim (s : String) : String := String.ofList (trimList isBlank s.toList)

/-- The pieces between the occurrences of a character, the empty ones included. -/
def splitChar (c : Char) (s : String) : List String := (s.toList.splitOn c).map String.ofList

/-- The words between blanks; there are no empty ones. -/
def splitBlanksList : List Char → List (List Char)
  | [] => []
  | c :: cs =>
    if isBlank c then splitBlanksList cs
    else
      match splitBlanksList cs with
      | [] => [[c]]
      | word :: words =>
        match cs with
        | d :: _ => if isBlank d then [c] :: word :: words else (c :: word) :: words
        | [] => [[c]]

/-- The rest of a list after a given start, if it has that start. -/
def dropPrefixList? [DecidableEq α] : List α → List α → Option (List α)
  | [], rest => some rest
  | _ :: _, [] => none
  | p :: ps, c :: cs => if p = c then dropPrefixList? ps cs else none

/-- The rest of a text after a given start, if it has that start. -/
def dropPrefix? (start s : String) : Option String :=
  (dropPrefixList? start.toList s.toList).map String.ofList

theorem dropPrefixList?_eq_some_iff [DecidableEq α] {start s rest : List α} :
    dropPrefixList? start s = some rest ↔ s = start ++ rest := by
  induction start generalizing s with
  | nil => simp [dropPrefixList?]
  | cons p ps ih =>
    cases s with
    | nil => simp [dropPrefixList?]
    | cons c cs =>
      by_cases same : p = c
      · simp [dropPrefixList?, same, ih]
      · simp [dropPrefixList?, same, Ne.symm same]

/-- A text has a given start exactly when it is the start with a rest behind it. -/
theorem dropPrefix?_eq_some_iff {start s rest : String} :
    dropPrefix? start s = some rest ↔ s = start ++ rest := by
  rw [dropPrefix?, Option.map_eq_some_iff]
  constructor
  · rintro ⟨cs, drops, rfl⟩
    apply String.toList_injective
    rw [dropPrefixList?_eq_some_iff.mp drops, String.toList_append, String.toList_ofList]
  · rintro rfl
    exact ⟨rest.toList, dropPrefixList?_eq_some_iff.mpr String.toList_append, String.ofList_toList⟩

/-- A start in two parts is dropped one part after the other. -/
theorem dropPrefix?_append (first second s : String) :
    dropPrefix? (first ++ second) s = (dropPrefix? first s).bind (dropPrefix? second) := by
  ext rest
  simp only [Option.bind_eq_some_iff, dropPrefix?_eq_some_iff]
  constructor
  · rintro rfl
    exact ⟨second ++ rest, String.append_assoc .., rfl⟩
  · rintro ⟨_, rfl, rfl⟩
    exact (String.append_assoc ..).symm

/-- The text before a given end, if it has that end. -/
def dropSuffix? (ending s : String) : Option String :=
  (dropPrefixList? ending.toList.reverse s.toList.reverse).map fun rest => String.ofList rest.reverse

/-- A text has a given end exactly when it is a text with the end behind it. -/
theorem dropSuffix?_eq_some_iff {ending s rest : String} :
    dropSuffix? ending s = some rest ↔ s = rest ++ ending := by
  rw [dropSuffix?, Option.map_eq_some_iff]
  constructor
  · rintro ⟨cs, drops, rfl⟩
    apply String.toList_injective
    rw [← List.reverse_inj, dropPrefixList?_eq_some_iff.mp drops]
    simp
  · rintro rfl
    exact ⟨rest.toList.reverse, dropPrefixList?_eq_some_iff.mpr (by simp), by simp⟩

/-- Whether a text occurs in another. -/
def containsList (part : List Char) : List Char → Bool
  | [] => part.isEmpty
  | c :: cs => (dropPrefixList? part (c :: cs)).isSome || containsList part cs

/-- Whether a text occurs in another. -/
def occursIn (part s : String) : Bool := containsList part.toList s.toList

/-- The text before the first occurrence of a character and the text after it. -/
def splitFirst (c : Char) : List Char → Option (List Char × List Char)
  | [] => none
  | d :: ds => if d = c then some ([], ds) else (splitFirst c ds).map fun (before, after) => (d :: before, after)

/-- The text before the last occurrence of a character and the text after it. -/
def splitLast (c : Char) (cs : List Char) : Option (List Char × List Char) :=
  (splitFirst c cs.reverse).map fun (after, before) => (before.reverse, after.reverse)

/-- Every occurrence of one character replaced by a text. -/
def replaceChar (c : Char) (by' : String) (s : String) : String :=
  String.ofList (s.toList.flatMap fun d => if d = c then by'.toList else [d])

/-- Whether the next character that case rules do not look through has a case. -/
def nextIsCased : List Char → Bool
  | [] => false
  | c :: cs => if isCaseIgnorable c then nextIsCased cs else isCased c

/-- The lower case of a text, given the characters before it, the nearest first. A capital sigma at
the end of a word takes its final form. -/
def lowerAfter (before : List Char) : List Char → List Char
  | [] => []
  | c :: cs =>
    let low :=
      if c.toNat == 0x3A3 then
        [if nextIsCased before && !nextIsCased cs then Char.ofNat 0x3C2 else Char.ofNat 0x3C3]
      else lowerChar c
    low ++ lowerAfter (c :: before) cs

/-- The lower case of a text of any script. -/
def lower (s : String) : String := String.ofList (lowerAfter [] s.toList)

def repeatText (n : Nat) (s : String) : String := String.join (List.replicate n s)

/-- How many bytes the text takes in UTF-8. -/
def byteLength (s : String) : Nat := s.utf8ByteSize

end TableMapper.Text
