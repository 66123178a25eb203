import Mathlib.Data.List.Forall2
import Mathlib.Data.List.TakeWhile
import TableMapper.Proofs.Query.Identifier
import TableMapper.Query.Builder

/-! # Lexemes of statements

What a statement says is read off its text: names between backticks, in which a doubled backtick is one,
placeholders, and the characters between them. As elsewhere colons in literals make no placeholders, and two
colons are a cast. Texts are put together from pieces that each read as they do alone, as long as what comes
behind a name or placeholder does not go on with it.
-/

namespace TableMapper

open Fragment (isNameChar)

/-- A part of a text, with something in the place of each placeholder. -/
inductive Lexeme (β : Type) where
  | char (c : Char)
  /-- A name between backticks. -/
  | name (s : String)
  | hole (b : β)
  deriving DecidableEq

namespace Lexeme

variable {β γ : Type}

def map (f : β → γ) : Lexeme β → Lexeme γ
  | char c => char c
  | name s => name s
  | hole b => hole (f b)

/-- The characters of a text as they are. -/
def chars (text : String) : List (Lexeme β) := text.toList.map char

@[simp] theorem map_chars (f : β → γ) (text : String) : (chars text).map (map f) = chars text := by
  simp [chars, map]

end Lexeme

namespace Lexing

/-- What the characters before a place belong to. -/
inductive Place where
  | plain
  | colon
  | placeholder (read : List Char)
  /-- Behind a backtick that opened a name. -/
  | name (read : List Char)
  /-- Behind a backtick in a name, which it closes unless a second one follows. -/
  | closing (read : List Char)
  | literal (quote : Char)
  /-- Behind a backslash in a literal. -/
  | escaped (quote : Char)

/-- What a character makes where nothing is open. -/
def begin (c : Char) : List (Lexeme String) × Place :=
  if c = Identifier.quote then ([], .name [])
  else if c = ':' then ([], .colon)
  else if c = '\'' ∨ c = '"' then ([.char c], .literal c)
  else ([.char c], .plain)

/-- What is complete if nothing more belongs to it. -/
def Place.pending : Place → List (Lexeme String)
  | plain | literal _ | escaped _ => []
  | colon => [.char ':']
  | placeholder read => [.hole (String.ofList read)]
  | name read => .char Identifier.quote :: read.map .char
  | closing read => [.name (String.ofList read)]

/-- What a character makes that does not belong to what is open. -/
def Place.close (p : Place) (c : Char) : List (Lexeme String) × Place := (p.pending ++ (begin c).1, (begin c).2)

def Place.step (p : Place) (c : Char) : List (Lexeme String) × Place :=
  match p with
  | plain => begin c
  | colon =>
    if c = ':' then ([.char ':', .char ':'], plain)
    else if isNameChar c ∧ ¬ c.isDigit then ([], placeholder [c])
    else p.close c
  | placeholder read => if isNameChar c then ([], placeholder (read ++ [c])) else p.close c
  | name read => ([], if c = Identifier.quote then closing read else name (read ++ [c]))
  | closing read => if c = Identifier.quote then ([], name (read ++ [c])) else p.close c
  | literal q => ([.char c], if c = q then plain else if c = '\\' then escaped q else literal q)
  | escaped q => ([.char c], literal q)

@[simp] theorem step_plain (c : Char) : Place.plain.step c = begin c := rfl

/-- The lexemes of a text from a place on. -/
def lex (p : Place) : List Char → List (Lexeme String)
  | [] => p.pending
  | c :: cs => (p.step c).1 ++ lex (p.step c).2 cs

end Lexing

/-- The lexemes of a text, with the names of its placeholders. -/
def lexemes (text : String) : List (Lexeme String) := Lexing.lex .plain text.toList

/-- What a statement says: its lexemes, with the values of its parameters in place of the placeholders. -/
def Statement.filled (st : Statement) : List (Lexeme (Option Value)) :=
  (lexemes st.sql).map (Lexeme.map st.param?)

-- a name with a doubled backtick, a name in which there is no placeholder, and a placeholder
example : lexemes "\x60a\x60\x60b\x60, \x60:c\x60=:d" =
    [.name "a\x60b", .char ',', .char ' ', .name ":c", .char '=', .hole "d"] := by
  decide +kernel

namespace Lexing

/-! ## Texts in parts -/

/-- A character that goes on with no name and no placeholder. -/
def separates (c : Char) : Bool := !isNameChar c && c != ':' && c != Identifier.quote

/-- What is open before the text ends there. -/
def Apart (cs : List Char) : Prop := cs.head?.all separates = true

instance (cs : List Char) : Decidable (Apart cs) := by unfold Apart; infer_instance

theorem Apart.separates {cs : List Char} (apart : Apart cs) : ∀ c ∈ cs.head?, separates c = true := by
  intro c first
  rwa [Apart, Option.mem_def.mp first] at apart

/-- No backtick follows that would be taken for the second one of two. -/
theorem Apart.head?_ne_quote {cs : List Char} (apart : Apart cs) : cs.head? ≠ some Identifier.quote := by
  intro first
  exact absurd (apart.separates _ first) (by decide)

/-- The text reads as the lexemes, wherever it stands before a text that is apart from it. -/
def Spells (text : String) (ls : List (Lexeme String)) : Prop :=
  ∀ rest, Apart rest → lex .plain (text.toList ++ rest) = ls ++ lex .plain rest

theorem Spells.lexemes_eq {text : String} {ls : List (Lexeme String)} (h : Spells text ls) :
    lexemes text = ls := by
  simpa [lexemes, lex, Place.pending] using h [] (by simp [Apart])

/-- Neither a quote nor a colon. -/
def isBare (c : Char) : Bool := c != Identifier.quote && c != ':' && c != '\'' && c != '"'

def Bare (text : String) : Prop := text.toList.all isBare = true

instance (text : String) : Decidable (Bare text) := by unfold Bare; infer_instance

theorem Bare.lex_append {text : String} (bare : Bare text) (rest : List Char) :
    lex .plain (text.toList ++ rest) = Lexeme.chars text ++ lex .plain rest := by
  unfold Bare at bare
  unfold Lexeme.chars
  generalize text.toList = cs at bare
  induction cs with
  | nil => rfl
  | cons c cs ih =>
      simp only [List.all_cons, isBare, Bool.and_eq_true, bne_iff_ne] at bare
      obtain ⟨⟨⟨⟨noBacktick, noColon⟩, single⟩, double⟩, bare⟩ := bare
      simp [lex, Place.step, begin, noBacktick, noColon, single, double, ih bare]

theorem Bare.spells {text : String} (bare : Bare text) : Spells text (Lexeme.chars text) :=
  fun rest _ => bare.lex_append rest

section

variable {a b : String} {ls ms : List (Lexeme String)}

theorem Bare.append_spells (ha : Bare a) (hb : Spells b ms) : Spells (a ++ b) (Lexeme.chars a ++ ms) := by
  intro rest apart
  rw [String.toList_append, List.append_assoc, ha.lex_append, hb rest apart, List.append_assoc]

theorem Spells.append (ha : Spells a ls) (hb : Spells b ms) (filled : b.toList ≠ []) (apart : Apart b.toList) :
    Spells (a ++ b) (ls ++ ms) := by
  intro rest after
  have next : Apart (b.toList ++ rest) := by
    rwa [Apart, List.head?_append_of_ne_nil _ filled]
  rw [String.toList_append, List.append_assoc, ha _ next, hb rest after, List.append_assoc]

/-- Texts with a separator between them. -/
theorem Spells.join (ha : Spells a ls) (hb : Spells b ms) {separator : String} (bare : Bare separator)
    (filled : separator.toList ≠ []) (apart : Apart separator.toList) :
    Spells (a ++ separator ++ b) (ls ++ Lexeme.chars separator ++ ms) := by
  rw [String.append_assoc, List.append_assoc]
  apply ha.append (bare.append_spells hb)
  · simp [filled]
  · rwa [Apart, String.toList_append, List.head?_append_of_ne_nil _ filled]

end

theorem spells_intercalate {separator : String} (bare : Bare separator) (filled : separator.toList ≠ [])
    (apart : Apart separator.toList) {texts : List String} {ls : List (List (Lexeme String))}
    (each : List.Forall₂ Spells texts ls) :
    Spells (separator.intercalate texts) ((Lexeme.chars separator).intercalate ls) := by
  induction each with
  | nil => exact fun rest _ => by simp
  | cons first others ih =>
      cases others with
      | nil => simpa using first
      | cons second others =>
          simp only [String.intercalate_cons_cons, List.intercalate_cons_cons]
          exact first.join ih bare filled apart

/-! ## Placeholders and names -/

/-- What is open ends before a character that does not belong to it. -/
theorem lex_of_ends {p : Place} {rest : List Char} (ends : ∀ c ∈ rest.head?, p.step c = p.close c) :
    lex p rest = p.pending ++ lex .plain rest := by
  cases rest with
  | nil => simp [lex, Place.pending]
  | cons c rest =>
      have closed := ends c rfl
      rw [lex, lex, closed, step_plain, Place.close, List.append_assoc]

theorem lex_placeholder {cs : List Char} (named : cs.all isNameChar = true) (pre : List Char)
    {rest : List Char} (apart : Apart rest) :
    lex (.placeholder pre) (cs ++ rest) = .hole (String.ofList (pre ++ cs)) :: lex .plain rest := by
  induction cs generalizing pre with
  | nil =>
      have ends : ∀ c ∈ rest.head?, (Place.placeholder pre).step c = (Place.placeholder pre).close c := by
        intro c first
        have separate := apart.separates c first
        simp only [separates, Bool.and_eq_true, Bool.not_eq_true'] at separate
        simp [Place.step, separate.1.1]
      simpa [Place.pending] using lex_of_ends ends
  | cons c cs ih =>
      simp only [List.all_cons, Bool.and_eq_true] at named
      simp [lex, Place.step, named.1, ih named.2]

theorem spells_reference {name : String} (named : Identifier.IsName name.toList) :
    Spells (reference name) [.hole name] := by
  intro rest apart
  have cut : (reference name).toList = ':' :: name.toList := String.toList_append ..
  have inner := named.all
  cases cs : name.toList with
  | nil => exact absurd cs named.ne_nil
  | cons c tail =>
      rw [cs] at cut inner named
      simp only [List.all_cons, Bool.and_eq_true] at inner
      have other : c ≠ ':' := by
        rintro rfl
        exact absurd inner.1 (by decide)
      have whole : String.ofList (c :: tail) = name := by rw [← cs, String.ofList_toList]
      simp [cut, lex, Place.step, begin, Identifier.quote, other, inner.1, named.1,
        lex_placeholder inner.2 [c] apart, whole]

theorem lex_quote (cs : List Char) : lex .plain (Identifier.quote :: cs) = lex (.name []) cs := rfl

/-- Between backticks stands a name, in which each backtick is doubled. -/
theorem lex_name (body pre : List Char) {rest : List Char} (behind : rest.head? ≠ some Identifier.quote) :
    lex (.name pre)
        (body.flatMap (fun c => if c = Identifier.quote then [c, c] else [c]) ++ Identifier.quote :: rest) =
      .name (String.ofList (pre ++ body)) :: lex .plain rest := by
  induction body generalizing pre with
  | nil =>
      have ends : ∀ c ∈ rest.head?, (Place.closing pre).step c = (Place.closing pre).close c := by
        intro c first
        have other : c ≠ Identifier.quote := fun same => behind (same ▸ Option.mem_def.mp first)
        simp [Place.step, other]
      simpa [lex, Place.step, Place.pending] using lex_of_ends ends
  | cons c body ih =>
      by_cases same : c = Identifier.quote
      · simp [lex, Place.step, same, ih]
      · simp [lex, Place.step, same, ih]

end Lexing

namespace Identifier

variable {β : Type}

/-- How a part of a name stands in a statement: by itself, without the backticks at its ends. -/
def writtenPart (part : List Char) : Lexeme β :=
  if part = ['*'] then .char '*' else .name (String.ofList (Text.trimList (· == quote) part))

/-- How a name stands in a statement: as names with dots between them. -/
def written (name : String) : List (Lexeme β) :=
  (Lexeme.chars ".").intercalate ((name.toList.splitOn '.').map fun part => [writtenPart part])

open Lexing

/-- A part of a name is read as it is written, whatever stands behind it but for a backtick. -/
theorem lex_escapePart (part : List Char) {rest : List Char} (behind : rest.head? ≠ some quote) :
    lex .plain (escapePart part ++ rest) = writtenPart part :: lex .plain rest := by
  unfold escapePart writtenPart
  split
  · next star =>
    rw [star]
    rfl
  · have body := lex_name (Text.trimList (· == quote) part) [] behind
    have opened := lex_quote ((Text.trimList (· == quote) part).flatMap
      (fun c => if c = quote then [c, c] else [c]) ++ quote :: rest)
    simpa using opened.trans body

theorem lex_escapeParts (parts : List (List Char)) {rest : List Char} (behind : rest.head? ≠ some quote) :
    lex .plain (['.'].intercalate (parts.map escapePart) ++ rest) =
      (Lexeme.chars ".").intercalate (parts.map fun part => [writtenPart part]) ++ lex .plain rest := by
  induction parts with
  | nil => rfl
  | cons part parts ih =>
      cases parts with
      | nil => simpa using lex_escapePart part behind
      | cons next parts =>
          simp only [List.map_cons, List.intercalate_cons_cons, List.append_assoc] at ih ⊢
          have dot : ∀ cs, lex .plain ('.' :: cs) = Lexeme.chars "." ++ lex .plain cs := fun _ => rfl
          rw [List.singleton_append, lex_escapePart part (by simp [quote]), dot, ih, List.singleton_append]

/-- An escaped name is read as it is written, whatever it is and whatever stands behind it but for a
backtick. -/
theorem lex_escape (name : String) {rest : List Char} (behind : rest.head? ≠ some quote) :
    lex .plain ((escape name).toList ++ rest) = written name ++ lex .plain rest := by
  rw [escape, String.toList_ofList]
  exact lex_escapeParts (name.toList.splitOn '.') behind

theorem spells_escape (name : String) : Spells (escape name) (written name) :=
  fun _ apart => lex_escape name apart.head?_ne_quote

/-- A name without dots, and without backticks at its ends, that is not the star. -/
structure Plain (name : String) : Prop where
  undotted : '.' ∉ name.toList
  unstarred : name ≠ "*"
  start : name.toList.head? ≠ some quote
  stop : name.toList.getLast? ≠ some quote

/-- A plain name stands in a statement as itself. -/
theorem written_of_plain {name : String} (plain : Plain name) : written name = [.name name (β := β)] := by
  have keep : ∀ cs : List Char, cs.head? ≠ some quote → cs.dropWhile (· == quote) = cs := by
    intro cs other
    cases cs with
    | nil => rfl
    | cons c cs => simp_all
  have star : name.toList ≠ ['*'] := fun same => plain.unstarred (String.toList_injective same)
  have trimmed : Text.trimList (· == quote) name.toList = name.toList := by
    have stop : name.toList.reverse.head? ≠ some quote := by simpa using plain.stop
    simp [Text.trimList, Text.trimStartList, Text.trimEndList, keep _ plain.start, keep _ stop]
  simp [written, List.splitOn_eq_singleton plain.undotted, writtenPart, star, trimmed]

end Identifier

end TableMapper
