import TableMapper.Proofs.Query.Lexemes
import TableMapper.Proofs.Text.Blanks
import TableMapper.Proofs.Text.Cutting

/-! # Names that stay between their backticks

An escaped name is read back part by part: of each part between dots a lexer of quoted names sees one name,
or the bare star, and nothing else. That holds of every text, so whatever stands in a name of a table, column
or label, none of it is read as a part of the statement.
-/

namespace TableMapper.Identifier

open Lexing

/-- What is read of a part of a dotted name: the star that stands for all columns, or else one name, which is
the part without the backticks at its ends. -/
inductive ReadAs : List Char → Lexeme String → Prop where
  | star : ReadAs ['*'] (.char '*')
  | name {front content back : List Char} (before : ∀ c ∈ front, c = quote) (behind : ∀ c ∈ back, c = quote)
      (tight : Text.Tight (· == quote) content) (unstarred : front ++ content ++ back ≠ ['*']) :
      ReadAs (front ++ content ++ back) (.name (String.ofList content))

theorem readAs_writtenPart (part : List Char) : ReadAs part (writtenPart part) := by
  unfold writtenPart
  split
  · next star =>
    rw [star]
    exact .star
  · next unstarred =>
    obtain ⟨front, back, whole, before, behind⟩ := Text.exists_append_trimList (· == quote) part
    generalize content : Text.trimList (· == quote) part = cs at whole
    have tight : Text.Tight (· == quote) cs := content ▸ Text.tight_trimList _ part
    rw [whole] at unstarred ⊢
    exact .name (fun c member => eq_of_beq (before c member)) (fun c member => eq_of_beq (behind c member))
      tight unstarred

/-- An escaped name is read as a sequence of tokens with dots between them, one for each part of the name
between dots. Nothing but a backtick directly behind it could go on with it. -/
theorem lex_escape_tokens (name : String) :
    ∃ tokens : List (Lexeme String), List.Forall₂ ReadAs (name.toList.splitOn '.') tokens ∧
      lexemes (escape name) = [.char '.'].intercalate (tokens.map fun token => [token]) ∧
      ∀ rest : List Char, rest.head? ≠ some quote →
        lex .plain ((escape name).toList ++ rest) = lexemes (escape name) ++ lex .plain rest := by
  have whole : lexemes (escape name) = written name := (spells_escape name).lexemes_eq
  refine ⟨(name.toList.splitOn '.').map writtenPart, ?_, ?_, ?_⟩
  · simp only [List.forall₂_map_right_iff, List.forall₂_same]
    exact fun part _ => readAs_writtenPart part
  · rw [whole, written, List.map_map]
    rfl
  · intro rest behind
    rw [whole]
    exact lex_escape name behind

/-! ## Where a name ends -/

/-- A character that is read by itself and is of no name. -/
structure EndsName (c : Char) : Prop where
  alone : begin c = ([.char c], .plain)
  dot : c ≠ '.'
  star : c ≠ '*'

theorem mem_written {name : String} {l : Lexeme String} (member : l ∈ written name) :
    (∃ s, l = .name s) ∨ l = .char '.' ∨ l = .char '*' := by
  rcases Text.mem_of_mem_intercalate member with dot | ⟨token, held, inside⟩
  · exact .inr (.inl dot)
  · obtain ⟨part, -, rfl⟩ := List.mem_map.mp held
    rw [List.mem_singleton.mp inside, writtenPart]
    split
    · exact .inr (.inr rfl)
    · exact .inl ⟨_, rfl⟩

/-- No escaped name goes on as another does and then with a character that ends names. -/
theorem eq_nil_of_escape_eq_append {a b : String} {more : List Char} (ends : ∀ c ∈ more.head?, EndsName c)
    (longer : (escape b).toList = (escape a).toList ++ more) : more = [] := by
  cases more with
  | nil => rfl
  | cons c more =>
      have ended := ends c rfl
      have behind : (c :: more).head? ≠ some quote := by
        rintro ⟨⟩
        exact absurd (congrArg Prod.fst ended.alone) (by decide)
      have tokens : written b = written a ++ lex .plain (c :: more) := by
        rw [← (spells_escape b).lexemes_eq, lexemes, longer, lex_escape a behind]
      have member : (.char c : Lexeme String) ∈ written b := by
        rw [tokens, lex, step_plain, ended.alone]
        simp
      rcases mem_written member with ⟨s, name⟩ | dot | star
      · cases name
      · exact absurd (Lexeme.char.inj dot) ended.dot
      · exact absurd (Lexeme.char.inj star) ended.star

/-- Escaped names that are followed by what ends names are the same if the texts are. -/
theorem escape_append_inj {a b rest rest' : String} (ends : ∀ c ∈ rest.toList.head?, EndsName c)
    (ends' : ∀ c ∈ rest'.toList.head?, EndsName c) (same : escape a ++ rest = escape b ++ rest') :
    escape a = escape b ∧ rest = rest' := by
  -- of the two names one is as long as the other or goes on with the front of what follows
  have head_of_append {more others : List Char} (all : ∀ c ∈ (more ++ others).head?, EndsName c) :
      ∀ c ∈ more.head?, EndsName c := by
    cases more with
    | nil => simp
    | cons d more => exact all
  rw [← String.toList_inj, String.toList_append, String.toList_append] at same
  simp only [← String.toList_inj]
  rcases List.append_eq_append_iff.mp same with ⟨more, whole, behind⟩ | ⟨more, whole, behind⟩
  · obtain rfl := eq_nil_of_escape_eq_append (head_of_append (behind ▸ ends)) whole
    exact ⟨by simpa using whole.symm, behind⟩
  · obtain rfl := eq_nil_of_escape_eq_append (head_of_append (behind ▸ ends')) whole
    exact ⟨by simpa using whole, behind.symm⟩

/-! ## A hostile name -/

/-- A column that would end the statement, were it not for the backticks that are doubled. -/
def hostile : String := "\x60we\x60ird.*.\x60\x60.a\x60; DROP TABLE user; -- "

theorem lex_escape_hostile :
    " = 1".toList.head? ≠ some quote ∧
      (∃ tokens : List (Lexeme String), List.Forall₂ ReadAs (hostile.toList.splitOn '.') tokens ∧
        lexemes (escape hostile) = [.char '.'].intercalate (tokens.map fun token => [token])) ∧
      lex .plain ((escape hostile).toList ++ " = 1".toList) =
        [.name "we\x60ird", .char '.', .char '*', .char '.', .name "", .char '.',
          .name "a\x60; DROP TABLE user; -- ", .char ' ', .char '=', .char ' ', .char '1'] := by
  have behind : " = 1".toList.head? ≠ some quote := by decide
  obtain ⟨tokens, each, alone, further⟩ := lex_escape_tokens hostile
  refine ⟨behind, ⟨tokens, each, alone⟩, ?_⟩
  rw [further _ behind]
  decide +kernel

end TableMapper.Identifier
