import TableMapper.Proofs.Code.Identifiers
import TableMapper.Proofs.Number.Digits
import TableMapper.Proofs.Text.Quoted
import TableMapper.Rule.Integer

/-! # Calls in generated code

The options of a rule are built in generated code by calls, one behind the other. They are read here as a compiler
reads them: the text is cut into lexemes, and the lexemes are put together to arguments and calls. Calls that are
written are read back, whatever stands behind them. Main statements: `Call.lex_spelling`, `Call.read_lexemes`.
-/

namespace TableMapper.Code

/-! ## Reading part by part -/

/-- Reads one part after the other. Each part takes something of what is read. -/
structure Reader (α β : Type) where
  next? : List α → Option (β × List α)
  shorter : ∀ {l rest : List α} {b : β}, next? l = some (b, rest) → rest.length < l.length

namespace Reader

variable {α β : Type} {r : Reader α β}

/-- Every part to the end. -/
def all (r : Reader α β) : List α → Option (List β)
  | [] => some []
  | a :: l =>
    match _taken : r.next? (a :: l) with
    | none => none
    | some (b, rest) => (r.all rest).map (b :: ·)
termination_by l => l.length
decreasing_by exact r.shorter _taken

theorem all_of_next? {l rest : List α} {b : β} (first : r.next? l = some (b, rest)) :
    r.all l = (r.all rest).map (b :: ·) := by
  cases l with
  | nil => exact absurd (r.shorter first) (Nat.not_lt_zero _)
  | cons a l =>
      rw [all]
      split
      · next none => rw [first] at none; cases none
      · next found =>
        rw [first] at found
        cases found
        rfl

/-- Parts that are read back one by one are read back when they stand in a row. -/
theorem all_flatMap {write : β → List α} {parts : List β}
    (each : ∀ b ∈ parts, ∀ rest, r.next? (write b ++ rest) = some (b, rest)) :
    r.all (parts.flatMap write) = some parts := by
  induction parts with
  | nil => rw [List.flatMap_nil, all]
  | cons b parts ih =>
      obtain ⟨first, others⟩ := List.forall_mem_cons.mp each
      rw [List.flatMap_cons, all_of_next? (first _), ih others]
      rfl

end Reader

/-! ## Lexemes of expressions -/

inductive Lexeme where
  | word (s : String)
  /-- A number in base ten, with the name of its type behind it. -/
  | number (n : Nat) (suffix : String)
  | text (s : String)
  | colons
  | sign (c : Char)
  deriving DecidableEq, Repr

namespace Lexeme

/-- The signs that expressions of options are made of. -/
def signs : List Char := ['.', '(', ')', '-']

/-- The number that a run of word characters starts with. -/
def numeral (cs : List Char) : Lexeme :=
  .number (Number.ofDigits (cs.takeWhile Char.isDigit)) (String.ofList (cs.dropWhile Char.isDigit))

/-- The first lexeme of an expression, with what stands behind. -/
def next? : List Char → Option (Lexeme × List Char)
  | [] => none
  | c :: cs =>
    if isWordStart c || c == '_' then
      some (.word (String.ofList (c :: cs.takeWhile isWordPart)), cs.dropWhile isWordPart)
    else if c.isDigit then some (numeral (c :: cs.takeWhile isWordPart), cs.dropWhile isWordPart)
    else if c = '"' then (Text.Quoted.read cs).map fun inside => (.text (String.ofList inside.1), inside.2)
    else if signs.contains c then some (.sign c, cs)
    else if c = ':' ∧ cs.head? = some ':' then some (.colons, cs.tail)
    else none

theorem next?_shorter {cs rest : List Char} {l : Lexeme} (h : next? cs = some (l, rest)) :
    rest.length < cs.length := by
  cases cs with
  | nil => cases h
  | cons c cs =>
      have shorter := (List.dropWhile_suffix (l := cs) isWordPart).length_le
      rw [next?] at h
      split at h
      · cases h
        exact Nat.lt_succ_of_le shorter
      split at h
      · cases h
        exact Nat.lt_succ_of_le shorter
      split at h
      · obtain ⟨⟨inside, behind⟩, taken, same⟩ := Option.map_eq_some_iff.mp h
        cases same
        exact Nat.lt_succ_of_lt (Text.Quoted.read_shorter taken)
      split at h
      · cases h
        simp
      split at h <;> cases h
      simp only [List.length_tail, List.length_cons]
      omega

end Lexeme

/-- The lexemes of an expression. -/
def lex : List Char → Option (List Lexeme) := Reader.all ⟨Lexeme.next?, Lexeme.next?_shorter⟩

theorem lex_of_next? {cs rest : List Char} {l : Lexeme} (first : Lexeme.next? cs = some (l, rest)) :
    lex cs = (lex rest).map (l :: ·) := Reader.all_of_next? first

/-! ### One lexeme in front -/

section Front

variable {c : Char} {rest : List Char}

/-- A run of characters of one kind ends where one of another kind follows. -/
theorem span_append {p : Char → Bool} {cs : List Char} (all : ∀ d ∈ cs, p d = true) (ends : p c = false)
    (rest : List Char) :
    (cs ++ c :: rest).takeWhile p = cs ∧ (cs ++ c :: rest).dropWhile p = c :: rest := by
  rw [List.takeWhile_append_of_pos all, List.dropWhile_append_of_pos all]
  simp [ends]

theorem lex_sign (known : c ∈ Lexeme.signs) : lex (c :: rest) = (lex rest).map (.sign c :: ·) := by
  refine lex_of_next? ?_
  simp only [Lexeme.signs, List.mem_cons, List.not_mem_nil, or_false] at known
  obtain rfl | rfl | rfl | rfl := known <;> rfl

theorem lex_colons : lex (':' :: ':' :: rest) = (lex rest).map (.colons :: ·) := lex_of_next? rfl

theorem lex_text (s : String) : lex ((Text.Quoted.encode s).toList ++ rest) = (lex rest).map (.text s :: ·) := by
  refine lex_of_next? ?_
  rw [Text.Quoted.encode, String.toList_ofList, List.cons_append, List.cons_append, List.append_assoc,
    List.singleton_append, Lexeme.next?, if_neg (by decide), if_neg (by decide), if_pos rfl,
    Text.Quoted.read_escapeList]
  simp

theorem lex_word {w : String} (word : isWord w = true) (ends : isWordPart c = false) :
    lex (w.toList ++ c :: rest) = (lex (c :: rest)).map (.word w :: ·) := by
  refine lex_of_next? ?_
  unfold isWord at word
  cases chars : w.toList with
  | nil => simp [chars] at word
  | cons d ds =>
      simp only [chars, Bool.and_eq_true, List.all_eq_true] at word
      obtain ⟨start, parts⟩ := word
      obtain ⟨inside, behind⟩ := span_append parts ends rest
      rw [List.cons_append, Lexeme.next?, if_pos start, inside, behind, ← chars, String.ofList_toList]

/-- Words have no digit at the start, but may have some behind it. -/
theorem isWordPart_of_isDigit {d : Char} (digit : d.isDigit = true) :
    (isWordStart d || d == '_') = false ∧ isWordPart d = true :=
  Text.Words.forall_isPlain
    (p := fun d => d.isDigit = true → (isWordStart d || d == '_') = false ∧ isWordPart d = true)
    (by decide +kernel) (.inl (by simp [Char.isAlphanum, digit])) digit

/-- A number ends where the name of its type starts, as no digit is first there. -/
theorem lex_number (n : Nat) (e : Char) (suffix : List Char) (letter : e.isDigit = false)
    (parts : (e :: suffix).all isWordPart = true) (ends : isWordPart c = false) :
    lex (Number.digits n ++ (e :: suffix ++ c :: rest)) =
      (lex (c :: rest)).map (.number n (String.ofList (e :: suffix)) :: ·) := by
  refine lex_of_next? ?_
  obtain ⟨inside, behind⟩ := span_append (fun d => Number.isDigit_of_mem_digits (n := n)) letter suffix
  have numeral : Lexeme.numeral (Number.digits n ++ e :: suffix) = .number n (String.ofList (e :: suffix)) := by
    rw [Lexeme.numeral, inside, behind, Number.ofDigits_digits]
  obtain ⟨d, ds, digits⟩ := List.exists_cons_of_ne_nil (Number.digits_ne_nil n)
  have held (d' : Char) (member : d' ∈ d :: ds) : d'.isDigit = true :=
    Number.isDigit_of_mem_digits (n := n) (digits ▸ member)
  have run : ∀ d' ∈ ds ++ e :: suffix, isWordPart d' = true := by
    intro d' member
    obtain digit | part := List.mem_append.mp member
    · exact (isWordPart_of_isDigit (held d' (List.mem_cons_of_mem d digit))).2
    · exact List.all_eq_true.mp parts d' part
  obtain ⟨inside, behind⟩ := span_append run ends rest
  rw [digits, List.cons_append] at numeral
  have first := held d (List.mem_cons_self ..)
  rw [digits, List.cons_append, ← List.append_assoc, Lexeme.next?, if_neg (by simp [isWordPart_of_isDigit first]),
    if_pos first, inside, behind, numeral]

end Front

/-! ## Arguments and calls -/

/-- What methods of the builder are given. -/
inductive Argument where
  | number (n : Int)
  | preset (p : Preset)
  | text (s : String)
  | truth (b : Bool)
  deriving DecidableEq, Repr

namespace Argument

/-- A number is one of its type. -/
def Fits : Argument → Prop
  | .number n => Rule.fits128 n = true
  | _ => True

/-- A number that its type has. -/
def number? (n : Int) : Option Argument := if Rule.fits128 n then some (.number n) else none

/-- Reads an argument, with what stands behind. -/
def read : List Lexeme → Option (Argument × List Lexeme)
  | .number n "i128" :: ls => (number? n).map (·, ls)
  | .sign '-' :: .number n "i128" :: ls => (number? (-n)).map (·, ls)
  | .word "mapgen" :: .colons :: .word "IntegerPreset" :: .colons :: .word label :: ls =>
    (Preset.all.find? (·.label == label)).map (.preset ·, ls)
  | .text s :: ls => some (.text s, ls)
  | .word "true" :: ls => some (.truth true, ls)
  | .word "false" :: ls => some (.truth false, ls)
  | _ => none

/-- An argument as it is written. -/
def spelling : Argument → String
  | .number n => toString n ++ "i128"
  | .preset p => "mapgen::IntegerPreset::" ++ p.label
  | .text s => Text.Quoted.encode s
  | .truth b => toString b

/-- The lexemes that an argument is written with. -/
def lexemes : Argument → List Lexeme
  | .number n => if 0 ≤ n then [.number n.toNat "i128"] else [.sign '-', .number (-n).toNat "i128"]
  | .preset p => [.word "mapgen", .colons, .word "IntegerPreset", .colons, .word p.label]
  | .text s => [.text s]
  | .truth b => [.word (toString b)]

theorem lex_spelling (a : Argument) (rest : List Char) :
    lex (a.spelling.toList ++ ')' :: rest) = (lex (')' :: rest)).map (a.lexemes ++ ·) := by
  cases a with
  | number n =>
      have chars : (number n).spelling.toList = (toString n).toList ++ ['i', '1', '2', '8'] := String.toList_append
      have digits (m : Nat) : lex (Number.digits m ++ (['i', '1', '2', '8'] ++ ')' :: rest)) =
          (lex (')' :: rest)).map (.number m "i128" :: ·) :=
        lex_number m 'i' ['1', '2', '8'] (by decide) (by decide) (by decide)
      rw [chars, Number.toList_toString, lexemes, List.append_assoc]
      split
      · exact digits n.toNat
      · rw [List.cons_append, lex_sign (by decide), digits, Option.map_map]
        rfl
  | preset p =>
      have chars : (preset p).spelling.toList =
          "mapgen".toList ++ ':' :: ':' :: ("IntegerPreset".toList ++ ':' :: ':' :: p.label.toList) := by
        cases p <;> rfl
      have label : isWord p.label = true := by cases p <;> decide
      rw [chars, lexemes]
      simp only [List.append_assoc, List.cons_append]
      rw [lex_word (by decide) (by decide), lex_colons, lex_word (by decide) (by decide), lex_colons,
        lex_word label (by decide)]
      simp only [Option.map_map]
      rfl
  | text s => exact lex_text s
  | truth b => cases b <;> exact lex_word (by decide) (by decide)

theorem find?_label (p : Preset) : Preset.all.find? (·.label == p.label) = some p := by
  cases p <;> decide

theorem read_lexemes {a : Argument} (fits : a.Fits) (ls : List Lexeme) : read (a.lexemes ++ ls) = some (a, ls) := by
  cases a with
  | number n =>
      have known : number? n = some (.number n) := if_pos fits
      rw [lexemes]
      split
      · next positive =>
        have value : (n.toNat : Int) = n := Int.toNat_of_nonneg positive
        rw [List.singleton_append, read, value, known, Option.map_some]
      · next negative =>
        have value : -((-n).toNat : Int) = n := by omega
        rw [List.cons_append, List.singleton_append, read, value, known, Option.map_some]
  | preset p => simp [lexemes, read, find?_label]
  | text s => rfl
  | truth b => cases b <;> rfl

theorem read_shorter {ls rest : List Lexeme} {a : Argument} (h : read ls = some (a, rest)) :
    rest.length < ls.length := by
  unfold read at h
  split at h
  case h_1 | h_2 | h_3 =>
    obtain ⟨a, -, same⟩ := Option.map_eq_some_iff.mp h
    cases same
    simp only [List.length_cons]
    omega
  all_goals cases h <;> simp

end Argument

/-- A call of a method. -/
structure Call where
  method : String
  argument : Argument
  deriving DecidableEq, Repr

namespace Call

def spelling (c : Call) : String := "." ++ c.method ++ "(" ++ c.argument.spelling ++ ")"

def lexemes (c : Call) : List Lexeme :=
  .sign '.' :: .word c.method :: .sign '(' :: (c.argument.lexemes ++ [.sign ')'])

/-- Reads a call, with what stands behind. -/
def read : List Lexeme → Option (Call × List Lexeme)
  | .sign '.' :: .word method :: .sign '(' :: ls =>
    (Argument.read ls).bind fun (argument, behind) =>
      match behind with
      | .sign ')' :: rest => some (⟨method, argument⟩, rest)
      | _ => none
  | _ => none

theorem read_shorter {ls rest : List Lexeme} {c : Call} (h : read ls = some (c, rest)) :
    rest.length < ls.length := by
  unfold read at h
  split at h
  · obtain ⟨⟨argument, behind⟩, taken, h⟩ := Option.bind_eq_some_iff.mp h
    have shorter := Argument.read_shorter taken
    dsimp only at h
    split at h <;> cases h
    simp only [List.length_cons] at shorter ⊢
    omega
  · cases h

theorem lex_spelling {c : Call} (word : isWord c.method = true) (rest : List Char) :
    lex (c.spelling.toList ++ rest) = (lex rest).map (c.lexemes ++ ·) := by
  have chars : c.spelling.toList ++ rest =
      '.' :: (c.method.toList ++ '(' :: (c.argument.spelling.toList ++ ')' :: rest)) := by
    simp [spelling]
  rw [chars, lex_sign (by decide), lex_word word (by decide), lex_sign (by decide), Argument.lex_spelling,
    lex_sign (by decide)]
  simp only [Option.map_map]
  refine congrArg (fun f => (lex rest).map f) (funext fun ls => ?_)
  simp [lexemes]

theorem read_lexemes {c : Call} (fits : c.argument.Fits) (ls : List Lexeme) :
    read (c.lexemes ++ ls) = some (c, ls) := by
  rw [lexemes]
  simp only [List.cons_append, List.append_assoc, List.nil_append]
  rw [read, Argument.read_lexemes fits]
  rfl

/-- What a call makes of options, if there is such a method and it takes such an argument. -/
def run (o : RuleOptions) : Call → Option RuleOptions
  | ⟨"min", .number n⟩ => some { o with least := some n }
  | ⟨"max", .number n⟩ => some { o with greatest := some n }
  | ⟨"preset", .preset p⟩ => some { o with preset := some p }
  | ⟨"pattern", .text s⟩ => some { o with pattern := some s }
  | ⟨"hostname", .truth b⟩ => some { o with hostname := b }
  | ⟨"allow_null", .truth b⟩ => some { o with allowNull := b }
  | _ => none

end Call

/-- Reads calls to the end. -/
def readCalls : List Lexeme → Option (List Call) := Reader.all ⟨Call.read, Call.read_shorter⟩

theorem readCalls_lexemes {calls : List Call} (fits : ∀ c ∈ calls, c.argument.Fits) :
    readCalls (calls.flatMap Call.lexemes) = some calls :=
  Reader.all_flatMap fun c member => Call.read_lexemes (fits c member)

end TableMapper.Code
