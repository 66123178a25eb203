import TableMapper.Proofs.Query.Identifier
import TableMapper.Proofs.Text.Blanks

/-! # Fragments in pieces

An author writes a fragment as plain text, double colons, literals and references to placeholders, one behind the
other. The scan takes one piece after the other: behind each it is where it is at the start, outside of literals,
and has found the name of the piece, if that is a reference. Only a name does not show where it ends; name
characters directly behind it are read as part of it. Letters and digits in names are those of ASCII, as in all
names that placeholders get. Main statement: `placeholders_eq_references_iff`.
-/

namespace TableMapper.Fragment

open Identifier (IsName)

/-- The quotes that literals stand in. -/
inductive Quote where
  | single
  | double
  deriving DecidableEq

def Quote.char : Quote → Char
  | single => '\''
  | double => '"'

/-- What may stand between the quotes of a literal. -/
inductive LiteralPart (quote : Quote) where
  | char (c : Char) (other : c ≠ quote.char ∧ c ≠ '\\')
  /-- A backslash with the character that it takes along, which may be the quote. -/
  | escaped (c : Char)
  /-- The quote, written twice. -/
  | doubled

def LiteralPart.chars {quote : Quote} : LiteralPart quote → List Char
  | char c _ => [c]
  | escaped c => ['\\', c]
  | doubled => [quote.char, quote.char]

/-- A piece of a fragment. -/
inductive Piece where
  | plain (cs : List Char) (bare : ∀ c ∈ cs, (c ≠ '\'' ∧ c ≠ '"') ∧ c ≠ ':')
  | colons
  | literal (quote : Quote) (parts : List (LiteralPart quote))
  | reference (name : List Char) (named : IsName name)

namespace Piece

def chars : Piece → List Char
  | plain cs _ => cs
  | colons => [':', ':']
  | literal quote parts => quote.char :: (parts.flatMap LiteralPart.chars ++ [quote.char])
  | reference name _ => ':' :: name

/-- The name that a piece refers to, if it is a reference. -/
def names : Piece → List (List Char)
  | reference name _ => [name]
  | plain .. | colons | literal .. => []

/-- The piece ends where a text starts: no name goes on into the text. -/
def EndsBefore (rest : List Char) : Piece → Prop
  | reference .. => ∀ c ∈ rest.head?, isNameChar c = false
  | plain .. | colons | literal .. => True

end Piece

/-- The fragment that pieces make up. -/
def text (ps : List Piece) : String := String.ofList (ps.flatMap Piece.chars)

/-- The names that pieces refer to, in order. -/
def references (ps : List Piece) : List String := (ps.flatMap Piece.names).map String.ofList

/-- No reference is directly followed by a name character. -/
def Separated : List Piece → Prop
  | [] => True
  | p :: ps => p.EndsBefore (ps.flatMap Piece.chars) ∧ Separated ps

/-! ## One piece -/

theorem scan_plain {cs : List Char} (bare : ∀ c ∈ cs, (c ≠ '\'' ∧ c ≠ '"') ∧ c ≠ ':') (rest : List Char) :
    scan none (cs ++ rest) = scan none rest := by
  induction cs with
  | nil => rfl
  | cons c cs ih =>
      obtain ⟨unquoted, noColon⟩ := bare c (List.mem_cons_self ..)
      have outside : ¬ (c = '\'' ∨ c = '"') := not_or.mpr unquoted
      rw [List.cons_append, scan]
      simp only [if_neg outside, if_neg noColon]
      exact ih fun d member => bare d (List.mem_cons_of_mem _ member)

theorem scan_colons (rest : List Char) : scan none (':' :: ':' :: rest) = scan none rest := by
  rw [scan]
  rfl

/-- A quote opens a literal. -/
theorem scan_open (quote : Quote) (rest : List Char) :
    scan none (quote.char :: rest) = scan (some quote.char) rest := by
  have opens : quote.char = '\'' ∨ quote.char = '"' := by cases quote <;> decide
  rw [scan]
  simp only [if_pos opens]

/-- The quote of a literal closes it. -/
theorem scan_close (quote : Quote) (rest : List Char) :
    scan (some quote.char) (quote.char :: rest) = scan none rest := by
  have other : quote.char ≠ '\\' := by cases quote <;> decide
  rw [scan]
  simp only [if_neg other, if_true]

/-- Behind a part of a literal the scan is still in the literal; two quotes leave it and enter it again. -/
theorem scan_literalPart {quote : Quote} (part : LiteralPart quote) (rest : List Char) :
    scan (some quote.char) (part.chars ++ rest) = scan (some quote.char) rest := by
  cases part with
  | char c other =>
      rw [LiteralPart.chars, List.singleton_append, scan]
      simp only [if_neg other.2, if_neg other.1]
  | escaped c =>
      rw [LiteralPart.chars, List.cons_append, List.singleton_append, scan]
      rfl
  | doubled => exact (scan_close quote _).trans (scan_open quote rest)

theorem scan_literal {quote : Quote} (parts : List (LiteralPart quote)) (rest : List Char) :
    scan (some quote.char) (parts.flatMap LiteralPart.chars ++ quote.char :: rest) = scan none rest := by
  induction parts with
  | nil => exact scan_close quote rest
  | cons part parts ih => rw [List.flatMap_cons, List.append_assoc, scan_literalPart, ih]

/-- Name characters directly behind a reference are taken into its name. -/
theorem scan_reference {name : List Char} (named : IsName name) (rest : List Char) :
    scan none (':' :: (name ++ rest)) =
      (name ++ rest.takeWhile isNameChar) :: scan none (rest.dropWhile isNameChar) := by
  have all : ∀ c ∈ name, isNameChar c = true := List.all_eq_true.mp named.all
  have taken : (name ++ rest).takeWhile isNameChar = name ++ rest.takeWhile isNameChar :=
    List.takeWhile_append_of_pos all
  have left : (name ++ rest).dropWhile isNameChar = rest.dropWhile isNameChar :=
    List.dropWhile_append_of_pos all
  obtain ⟨first, others, rfl⟩ := List.exists_cons_of_ne_nil named.ne_nil
  have single : (first :: others ++ rest).head? ≠ some ':' := by
    intro colon
    obtain rfl : first = ':' := Option.some.inj colon
    exact named.not_mem (by decide) (List.mem_cons_self ..)
  have unquoted : ¬ ((':' : Char) = '\'' ∨ (':' : Char) = '"') := by decide
  have letter : ¬ first.isDigit = true := Bool.eq_false_iff.mp named.1
  rw [scan]
  simp only [if_neg unquoted, if_true, if_neg single, taken, left]
  simp only [List.cons_append, if_neg letter]

/-- The scan of a piece finds its name and is then where it is at the start. -/
theorem scan_piece {p : Piece} {rest : List Char} (ends : p.EndsBefore rest) :
    scan none (p.chars ++ rest) = p.names ++ scan none rest := by
  cases p with
  | plain cs bare => exact scan_plain bare rest
  | colons => exact scan_colons rest
  | literal quote parts =>
      rw [Piece.chars, List.cons_append, List.append_assoc, scan_open]
      exact scan_literal parts rest
  | reference name named =>
      rw [Piece.chars, List.cons_append, scan_reference named, Text.takeWhile_eq_nil_iff_of_head.mpr ends,
        Text.dropWhile_of_head ends, List.append_nil]
      rfl

/-- A name that goes on into the text behind its piece is not found. -/
theorem endsBefore_of_scan {p : Piece} {rest : List Char} {names : List (List Char)}
    (found : scan none (p.chars ++ rest) = p.names ++ names) : p.EndsBefore rest := by
  cases p with
  | plain | colons | literal => exact trivial
  | reference name named =>
      rw [Piece.chars, List.cons_append, scan_reference named] at found
      have same : name ++ rest.takeWhile isNameChar = name := List.head_eq_of_cons_eq found
      exact Text.takeWhile_eq_nil_iff_of_head.mp (List.append_right_eq_self.mp same)

/-! ## All pieces -/

theorem scan_pieces_iff (ps : List Piece) :
    scan none (ps.flatMap Piece.chars) = ps.flatMap Piece.names ↔ Separated ps := by
  induction ps with
  | nil => exact iff_of_true (by rw [List.flatMap_nil, scan]; rfl) trivial
  | cons p ps ih =>
      rw [List.flatMap_cons, List.flatMap_cons]
      constructor
      · intro found
        have ends := endsBefore_of_scan found
        rw [scan_piece ends, List.append_cancel_left_eq] at found
        exact ⟨ends, ih.mp found⟩
      · rintro ⟨ends, separated⟩
        rw [scan_piece ends, ih.mpr separated]

/-- The scan of a fragment in pieces finds exactly the names that the pieces refer to, in order, just when no
reference is directly followed by a name character. That it ends is part of what it is: each of its steps leaves a
shorter text. -/
theorem placeholders_eq_references_iff (ps : List Piece) :
    placeholders (text ps) = references ps ↔ Separated ps := by
  rw [placeholders, text, references, String.toList_ofList,
    (List.map_injective_iff.mpr fun _ _ => String.ofList_inj.mp).eq_iff]
  exact scan_pieces_iff ps

-- a quote that is doubled or behind a backslash does not end its literal
example : placeholders "note = 'it''s \\':x' AND a::int = :a_1" = ["a_1"] := by decide +kernel

end TableMapper.Fragment
