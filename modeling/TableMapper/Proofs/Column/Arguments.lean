import TableMapper.Column.Type
import TableMapper.Proofs.Number.Digits
import TableMapper.Proofs.Text.Blanks
import TableMapper.Proofs.Text.Cutting
import TableMapper.Proofs.Text.Words

/-! # Written arguments

What stands between the parentheses of a descriptor: a width, a width and a scale, or quoted members, which may
hold quotes, commas, parentheses and blanks themselves. Each is read back as it was written. A member ends at
the first quote that no other follows, and behind a written member there is a comma or a blank or nothing.
-/

namespace TableMapper

namespace Descriptor

open Text (isBlank trimList splitFirst_append splitFirst_of_not_mem Tight)
open Text.Words (isBlank_of_isDigit)
open Number (digits)

/-! ## What is written -/

/-- Blanks on one line. -/
def IsGap (cs : List Char) : Prop := ∀ c ∈ cs, isBlank c = true ∧ c ≠ '\n'

instance (cs : List Char) : Decidable (IsGap cs) := List.decidableBAll _ cs

/-- A text between quotes; a quote in it is doubled. -/
def quoted (text : List Char) : List Char :=
  '\'' :: (text.flatMap fun c => if c = '\'' then [c, c] else [c]) ++ ['\'']

/-- Quoted members with commas between them. -/
inductive WritesMembers : List String → List Char → Prop
  | last {m : String} (line : '\n' ∉ m.toList) : WritesMembers [m] (quoted m.toList)
  | more {m : String} {ms : List String} {before behind cs : List Char} (line : '\n' ∉ m.toList)
      (gap : IsGap before) (gap' : IsGap behind) (rest : WritesMembers ms cs) :
      WritesMembers (m :: ms) (quoted m.toList ++ (before ++ ',' :: (behind ++ cs)))

/-- What stands between the parentheses of a descriptor. -/
inductive Argument where
  | width (n : UInt32)
  | scaled (n scale : UInt32)
  | members (ms : List String)
  deriving DecidableEq

namespace Argument

inductive Writes : Argument → List Char → Prop
  | width (n : UInt32) : Writes (.width n) (digits n.toNat)
  | scaled (n scale : UInt32) {before behind : List Char} (gap : IsGap before) (gap' : IsGap behind) :
      Writes (.scaled n scale) (digits n.toNat ++ before ++ ',' :: (behind ++ digits scale.toNat))
  | members {ms : List String} {cs : List Char} (listed : WritesMembers ms cs) : Writes (.members ms) cs

/-- The width that an argument gives; zero stands for none. -/
def widthOf : Option Argument → Nat
  | some (.width n) => n.toNat
  | some (.scaled n _) => n.toNat
  | _ => 0

def scaleOf : Option Argument → Nat
  | some (.scaled _ scale) => scale.toNat
  | _ => 0

def membersOf : Option Argument → List String
  | some (.members ms) => ms
  | _ => []

end Argument

/-! ## On one line -/

theorem IsGap.blank {gap : List Char} (h : IsGap gap) : ∀ c ∈ gap, isBlank c = true :=
  fun c member => (h c member).1

theorem IsGap.line {gap : List Char} (h : IsGap gap) : '\n' ∉ gap := fun member => (h _ member).2 rfl

theorem isBlank_of_isBaseChar {c : Char} (solid : isBaseChar c = true) : isBlank c = false := by
  have plain : Text.Words.IsPlain c := by simpa [isBaseChar, Text.Words.IsPlain] using solid
  exact plain.not_blank

theorem line_digits (n : Nat) : '\n' ∉ digits n := fun member =>
  absurd (Number.isDigit_of_mem_digits member) (by decide)

theorem line_quoted {text : List Char} (line : '\n' ∉ text) : '\n' ∉ quoted text := by
  simp only [quoted, List.mem_append, List.mem_cons, List.mem_flatMap, not_or, not_exists, not_and]
  refine ⟨⟨by decide, fun c member held => ?_⟩, by decide, List.not_mem_nil⟩
  have same : '\n' = c := by
    split at held <;> simpa using held
  exact line (same ▸ member)

theorem WritesMembers.line {ms : List String} {cs : List Char} (h : WritesMembers ms cs) : '\n' ∉ cs := by
  induction h with
  | last line => exact line_quoted line
  | more line gap gap' _ ih =>
      simp only [List.mem_append, List.mem_cons, not_or]
      exact ⟨line_quoted line, gap.line, by decide, gap'.line, ih⟩

theorem Argument.Writes.line {a : Argument} {cs : List Char} (h : a.Writes cs) : '\n' ∉ cs := by
  cases h with
  | width => exact line_digits _
  | scaled n scale gap gap' =>
      simp only [List.mem_append, List.mem_cons, not_or]
      exact ⟨⟨line_digits _, gap.line⟩, by decide, gap'.line, line_digits _⟩
  | members listed => exact listed.line

/-! ## Members -/

theorem member_of_ne {quote c : Char} (other : c ≠ quote) (cs : List Char) :
    member quote (c :: cs) = (member quote cs).map fun (m, rest) => (c :: m, rest) := by
  cases cs with
  | nil => simp [member, other]
  | cons d cs => simp [member, other]

theorem member_doubled (quote : Char) (cs : List Char) :
    member quote (quote :: quote :: cs) = (member quote cs).map fun (m, rest) => (quote :: m, rest) := by
  simp [member]

theorem member_closed {quote : Char} {rest : List Char} (apart : rest.head? ≠ some quote) :
    member quote (quote :: rest) = some ([], rest) := by
  cases rest with
  | nil => simp [member]
  | cons d rest =>
      have other : d ≠ quote := fun same => apart (congrArg some same)
      simp [member, other]

/-- A quoted text is read up to the quote that closes it, which no quote follows. -/
theorem member_quoted (text : List Char) {rest : List Char} (apart : rest.head? ≠ some '\'') :
    ∃ inner, quoted text ++ rest = '\'' :: inner ∧ member '\'' inner = some (text, rest) := by
  refine ⟨(text.flatMap fun c => if c = '\'' then [c, c] else [c]) ++ ('\'' :: rest), by simp [quoted], ?_⟩
  induction text with
  | nil => exact member_closed apart
  | cons c text ih =>
      rw [List.flatMap_cons, List.append_assoc]
      split
      · next same =>
        subst same
        rw [List.cons_append, List.singleton_append, member_doubled, ih]
        rfl
      · next other =>
        rw [List.singleton_append, member_of_ne other, ih]
        rfl

/-- Behind a member the list ends, or it goes on behind a comma. -/
theorem members_of_member {cs inner m rest : List Char} (start : cs.dropWhile isBlank = '\'' :: inner)
    (read : member '\'' inner = some (m, rest)) :
    (rest.dropWhile isBlank = [] → members cs = some [m]) ∧
      ∀ more, rest.dropWhile isBlank = ',' :: more → members cs = (members more).map (m :: ·) := by
  rw [members]
  split
  · next none => rw [start] at none; cases none
  · next quote inner' first =>
    rw [start] at first
    cases first
    rw [if_pos (.inl rfl)]
    split
    · next none => rw [read] at none; cases none
    · next found =>
      rw [read] at found
      cases found
      refine ⟨fun stop => ?_, fun more comma => ?_⟩
      · split
        · rfl
        · next comma => rw [stop] at comma; cases comma
        · next other _ => exact (other stop).elim
      · split
        · next stop => rw [comma] at stop; cases stop
        · next comma' =>
          rw [comma] at comma'
          cases comma'
          rfl
        · next _ other => exact (other _ comma).elim

/-- Listed members are read in their order, whatever blanks stand before them. -/
theorem WritesMembers.members_eq {ms : List String} {cs : List Char} (h : WritesMembers ms cs)
    {gap : List Char} (blank : IsGap gap) : members (gap ++ cs) = some (ms.map String.toList) := by
  have skip : ∀ (gap cs : List Char), IsGap gap → (gap ++ cs).dropWhile isBlank = cs.dropWhile isBlank :=
    fun gap cs blank => List.dropWhile_append_of_pos blank.blank
  induction h generalizing gap with
  | @last m _ =>
      have ends : ([] : List Char).head? ≠ some '\'' := by simp
      obtain ⟨inner, shape, read⟩ := member_quoted m.toList ends
      rw [List.append_nil] at shape
      have start : (gap ++ quoted m.toList).dropWhile isBlank = '\'' :: inner := by
        rw [skip _ _ blank, shape]
        rfl
      exact (members_of_member start read).1 rfl
  | @more m ms before behind cs _ gapBefore gapBehind _ ih =>
      -- the closing quote is not doubled, as a blank or the comma follows
      have apart : (before ++ ',' :: (behind ++ cs)).head? ≠ some '\'' := by
        cases before with
        | nil => simp
        | cons c before =>
            have blankFirst := gapBefore.blank c (List.mem_cons_self ..)
            rintro same
            cases same
            exact absurd blankFirst (by decide)
      obtain ⟨inner, shape, read⟩ := member_quoted m.toList apart
      have comma : (before ++ ',' :: (behind ++ cs)).dropWhile isBlank = ',' :: (behind ++ cs) := by
        rw [skip _ _ gapBefore]
        rfl
      have start : (gap ++ (quoted m.toList ++ (before ++ ',' :: (behind ++ cs)))).dropWhile isBlank =
          '\'' :: inner := by
        rw [skip _ _ blank, shape]
        rfl
      rw [(members_of_member start read).2 _ comma, ih gapBehind]
      rfl

/-! ## Widths -/

theorem tight_digits (n : Nat) : Tight isBlank (digits n) :=
  ⟨fun _ member => isBlank_of_isDigit (Number.isDigit_of_mem_digits (List.mem_of_mem_head? member)),
    fun _ member => isBlank_of_isDigit (Number.isDigit_of_mem_digits (List.mem_of_mem_getLast? member))⟩

theorem exists_head?_digits (n : Nat) : ∃ c, (digits n).head? = some c ∧ c.isDigit = true := by
  obtain ⟨c, ds, front⟩ := List.exists_cons_of_ne_nil (Number.digits_ne_nil n)
  exact ⟨c, by rw [front, List.head?_cons], Number.isDigit_of_mem_digits (front ▸ List.mem_cons_self ..)⟩

theorem fits_uint32 (n : UInt32) : IntKind.uint32.Fits n.toNat := by
  have small := n.toNat_lt
  refine ⟨Int.natCast_nonneg _, ?_⟩
  change (n.toNat : Int) ≤ 4294967295
  omega

/-- The digits of a number of 32 bits are read with gaps around them. -/
theorem read_digits (n : UInt32) {before behind : List Char} (gap : IsGap before) (gap' : IsGap behind) :
    (Integer.read? .uint32 (trimList isBlank (before ++ digits n.toNat ++ behind))).map (·.val.toNat) =
      some n.toNat := by
  rw [(tight_digits _).trimList_append gap.blank gap'.blank, Integer.read?_digits (fits_uint32 n)]
  rfl

theorem comma_not_mem_digits (n : Nat) : ',' ∉ digits n := fun member =>
  absurd (Number.isDigit_of_mem_digits member) (by decide)

theorem comma_not_mem_gap {gap : List Char} (h : IsGap gap) : ',' ∉ gap := fun member =>
  absurd (h.blank _ member) (by decide)

theorem isGap_nil : IsGap [] := fun _ member => (List.not_mem_nil member).elim

theorem widthAndScale_width (n : UInt32) : widthAndScale (digits n.toNat) = some (n.toNat, 0) := by
  have read := read_digits n isGap_nil isGap_nil
  rw [List.nil_append, List.append_nil] at read
  simp only [widthAndScale, splitFirst_of_not_mem (comma_not_mem_digits _), read]
  rfl

theorem widthAndScale_scaled (n scale : UInt32) {before behind : List Char} (gap : IsGap before)
    (gap' : IsGap behind) :
    widthAndScale (digits n.toNat ++ before ++ ',' :: (behind ++ digits scale.toNat)) =
      some (n.toNat, scale.toNat) := by
  have absent : ',' ∉ digits n.toNat ++ before := by
    simp only [List.mem_append, not_or]
    exact ⟨comma_not_mem_digits _, comma_not_mem_gap gap⟩
  have first := read_digits n isGap_nil gap
  have second := read_digits scale gap' isGap_nil
  rw [List.nil_append] at first
  rw [List.append_nil] at second
  simp only [widthAndScale, splitFirst_append absent, first, second]
  rfl

/-! ## Arguments -/

theorem getLast?_quoted (text : List Char) : (quoted text).getLast? = some '\'' := by
  rw [quoted, List.getLast?_append_of_ne_nil _ (List.cons_ne_nil _ _)]
  rfl

theorem WritesMembers.ends {ms : List String} {cs : List Char} (h : WritesMembers ms cs) :
    cs.head? = some '\'' ∧ cs.getLast? = some '\'' := by
  induction h with
  | last => exact ⟨rfl, getLast?_quoted _⟩
  | @more m ms before behind cs _ _ _ _ ih =>
      have filled : cs ≠ [] := by
        rintro rfl
        cases ih.1
      refine ⟨rfl, ?_⟩
      rw [List.getLast?_append_of_ne_nil _ (by simp), List.getLast?_append_of_ne_nil _ (List.cons_ne_nil _ _),
        ← List.cons_append, List.getLast?_append_of_ne_nil _ filled, ih.2]

/-- An argument has no blanks at its ends. -/
theorem Argument.Writes.tight {a : Argument} {cs : List Char} (h : a.Writes cs) : Tight isBlank cs := by
  cases h with
  | width => exact tight_digits _
  | scaled n scale gap gap' =>
      have filled := Number.digits_ne_nil
      refine ⟨fun c first => ?_, fun c last => ?_⟩
      · rw [List.append_assoc, List.head?_append_of_ne_nil _ (filled _)] at first
        exact (tight_digits _).start c first
      · rw [List.getLast?_append_of_ne_nil _ (List.cons_ne_nil _ _), ← List.cons_append,
          List.getLast?_append_of_ne_nil _ (filled _)] at last
        exact (tight_digits _).stop c last
  | members listed =>
      obtain ⟨first, last⟩ := listed.ends
      constructor
      · rw [first]
        simp [show isBlank '\'' = false from rfl]
      · rw [last]
        simp [show isBlank '\'' = false from rfl]

theorem applyArguments_of_digit {t : ColumnType} {cs ds : List Char} {c : Char}
    (trimmed : trimList isBlank cs = ds) (first : ds.head? = some c) (digit : c.isDigit = true) :
    applyArguments t cs = (widthAndScale ds).map fun (width, scale) => { t with width, scale } := by
  obtain ⟨rest, rfl⟩ := List.head?_eq_some_iff.mp first
  have number : ¬ (c = '\'' ∨ c = '"') := by
    rintro (rfl | rfl) <;> exact absurd digit (by decide)
  rw [applyArguments, trimmed]
  exact if_neg number

theorem applyArguments_of_quote {t : ColumnType} {cs ds : List Char} (trimmed : trimList isBlank cs = ds)
    (first : ds.head? = some '\'') :
    applyArguments t cs = (members ds).map fun ms => { t with members := ms.map String.ofList } := by
  obtain ⟨rest, rfl⟩ := List.head?_eq_some_iff.mp first
  rw [applyArguments, trimmed]
  rfl

/-- What an argument says is read from it, with gaps around it. -/
theorem Argument.Writes.apply_eq {a : Argument} {cs : List Char} (h : a.Writes cs) {before behind : List Char}
    (gap : IsGap before) (gap' : IsGap behind) (kind : ColumnKind) :
    applyArguments { kind } (before ++ cs ++ behind) =
      some { kind, width := widthOf (some a), scale := scaleOf (some a), members := membersOf (some a) } := by
  have trimmed := h.tight.trimList_append gap.blank gap'.blank
  cases h with
  | width n =>
      obtain ⟨c, first, digit⟩ := exists_head?_digits n.toNat
      rw [applyArguments_of_digit trimmed first digit, widthAndScale_width]
      rfl
  | @scaled n scale mid mid' inner inner' =>
      obtain ⟨c, first, digit⟩ := exists_head?_digits n.toNat
      have whole : (digits n.toNat ++ mid ++ ',' :: (mid' ++ digits scale.toNat)).head? = some c := by
        rw [List.append_assoc, List.head?_append, first, Option.some_or]
      rw [applyArguments_of_digit trimmed whole digit, widthAndScale_scaled n scale inner inner']
      rfl
  | members listed =>
      have read := listed.members_eq isGap_nil
      rw [List.nil_append] at read
      rw [applyArguments_of_quote trimmed listed.ends.1, read]
      simp [widthOf, scaleOf, membersOf, Function.comp_def]

end Descriptor

end TableMapper
