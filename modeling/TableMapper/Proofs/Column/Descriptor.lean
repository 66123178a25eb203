import TableMapper.Proofs.Column.Arguments

/-! # Written descriptors

How a column type is written: a base name in any case, perhaps an argument between parentheses, and attributes
with blanks between them, all on one line. The parts are found again: the base name ends at a blank or a
parenthesis, and the argument at the last parenthesis, as attributes have none. Main statement: `read_written`.
-/

namespace TableMapper

namespace Descriptor

open Text (isBlank trimList splitBlanksList splitBlanksList_blanks splitBlanksList_word splitBlanksList_trimList)

/-! ## What is written -/

/-- The text of an argument with its parentheses, or nothing where there is none. -/
inductive Argument.Stands : Option Argument → List Char → Prop
  | absent : Stands none []
  | between {a : Argument} {cs before behind : List Char} (written : a.Writes cs) (gap : IsGap before)
      (gap' : IsGap behind) : Stands (some a) ('(' :: (before ++ cs ++ behind) ++ [')'])

/-- Attributes, each with a gap before it. -/
inductive WritesWords : List String → List Char → Prop
  | none {gap : List Char} (blank : IsGap gap) : WritesWords [] gap
  | word {word : String} {words : List String} {gap cs : List Char} (blank : IsGap gap) (apart : gap ≠ [])
      (filled : word ≠ "") (solid : ∀ c ∈ word.toList, isBlank c = false ∧ c ≠ '(' ∧ c ≠ ')')
      (rest : WritesWords words cs) : WritesWords (word :: words) (gap ++ (word.toList ++ cs))

/-- A descriptor: a base name, perhaps an argument, and attributes. -/
def Writes (base : String) (argument : Option Argument) (words : List String) (s : String) : Prop :=
  ∃ lead gap inner rest, IsGap lead ∧ IsGap gap ∧ Argument.Stands argument inner ∧ WritesWords words rest ∧
    s.toList = lead ++ (base.toList ++ (gap ++ (inner ++ rest)))

/-- What a descriptor says of a column type of some kind. -/
def told (kind : ColumnKind) (argument : Option Argument) (words : List String) : ColumnType :=
  let others := words.filter fun word => word.toLower ≠ "unsigned"
  { kind
    width := Argument.widthOf argument
    scale := Argument.scaleOf argument
    unsigned := decide (∃ word ∈ words, word.toLower = "unsigned")
    other := if others = [] then none else some (" ".intercalate others)
    members := Argument.membersOf argument }

/-! ## Base names -/

theorem isAlpha_of_toLower {c : Char} (h : c.toLower.isAlpha = true) : c.isAlpha = true := by
  by_cases upper : c.isUpper = true
  · exact (Bool.or_eq_true _ _).mpr (.inl upper)
  · have same : c.toLower = c := dif_neg fun range => upper (decide_eq_true range)
    rwa [same] at h

theorem isBaseChar_of_isAlpha {c : Char} (letter : c.isAlpha = true) : isBaseChar c = true := by
  simp [isBaseChar, Char.isAlphanum, letter]

theorem isBaseChar_of_isBlank {c : Char} (blank : isBlank c = true) : isBaseChar c = false := by
  cases solid : isBaseChar c with
  | false => rfl
  | true => exact absurd blank (by simp [isBlank_of_isBaseChar solid])

theorem head?_gap_append {gap rest : List Char} (blank : IsGap gap)
    (stop : ∀ c ∈ rest.head?, isBaseChar c = false) : ∀ c ∈ (gap ++ rest).head?, isBaseChar c = false := by
  intro c first
  cases gap with
  | nil => exact stop c first
  | cons d gap => exact isBaseChar_of_isBlank (blank.blank c (List.mem_of_mem_head? first))

/-- A base name is letters, in any case, and asks for its kind. -/
theorem of_baseName {name base : String} {kind : ColumnKind} (named : (name, kind) ∈ ColumnKind.baseNames)
    (cased : base.toLower = name) : base.toList ≠ [] ∧ (∀ c ∈ base.toList, c.isAlpha = true) ∧
      ColumnKind.ofBaseName? (String.ofList (base.toList.map Char.toLower)) = some kind := by
  have each : ∀ p ∈ ColumnKind.baseNames, p.1.toList ≠ [] ∧ p.1.toList.all Char.isAlpha = true ∧
      ColumnKind.ofBaseName? p.1 = some p.2 := by decide
  obtain ⟨filled, letters, asks⟩ := each _ named
  have chars : base.toList.map Char.toLower = name.toList := by
    rw [← cased]
    exact (String.toList_map ..).symm
  refine ⟨?_, fun c member => ?_, ?_⟩
  · rintro empty
    rw [empty] at chars
    exact filled chars.symm
  · have low : c.toLower ∈ name.toList := chars ▸ List.mem_map_of_mem member
    exact isAlpha_of_toLower (List.all_eq_true.mp letters _ low)
  · rw [chars, String.ofList_toList, asks]

/-! ## Cutting a descriptor -/

theorem closings_of_not_mem {cs : List Char} (none : ')' ∉ cs) : closings cs = [] := by
  induction cs with
  | nil => rfl
  | cons c cs ih =>
      simp only [List.mem_cons, not_or] at none
      rw [closings, ih none.2, List.map_nil, if_neg (Ne.symm none.1)]

/-- The last place to cut at is the last closing parenthesis. -/
theorem exists_closings_append (before : List Char) {after : List Char} (none : ')' ∉ after) :
    ∃ earlier, closings (before ++ ')' :: after) = earlier ++ [(before, after)] := by
  induction before with
  | nil =>
      refine ⟨[], ?_⟩
      rw [List.nil_append, closings, closings_of_not_mem none]
      rfl
  | cons c before ih =>
      obtain ⟨earlier, cuts⟩ := ih
      rw [List.cons_append, closings, cuts, List.map_append]
      split
      · exact ⟨_, (List.cons_append ..).symm⟩
      · exact ⟨_, rfl⟩

theorem onOneLine_of_not_mem {cs : List Char} (h : '\n' ∉ cs) : onOneLine cs = true := by
  simp [onOneLine, h]

theorem onOneLine_trimList {cs : List Char} (h : '\n' ∉ cs) : onOneLine (trimList isBlank cs) = true :=
  onOneLine_of_not_mem fun member => h (Text.mem_of_mem_trimList member)

theorem cutRest_of_argument {gap inner rest : List Char} (blank : IsGap gap) (line : '\n' ∉ inner)
    (line' : '\n' ∉ rest) (none : ')' ∉ rest) :
    cutRest (gap ++ ('(' :: inner ++ [')'] ++ rest)) = some (some inner, trimList isBlank rest) := by
  obtain ⟨earlier, cuts⟩ := exists_closings_append inner none
  have cut : cutArguments (inner ++ ')' :: rest) = some (inner, trimList isBlank rest) := by
    rw [cutArguments, cuts, List.reverse_append]
    simp [onOneLine_of_not_mem line, onOneLine_trimList line']
  have start : (gap ++ ('(' :: inner ++ [')'] ++ rest)).dropWhile isBlank = '(' :: (inner ++ ')' :: rest) := by
    rw [List.dropWhile_append_of_pos blank.blank]
    simp [show isBlank '(' = false from rfl]
  simp only [cutRest, start, cut]

theorem cutRest_of_none {cs : List Char} (line : '\n' ∉ cs)
    (start : (cs.dropWhile isBlank).head? ≠ some '(') : cutRest cs = some (none, trimList isBlank cs) := by
  unfold cutRest
  split
  · next parenthesis => rw [parenthesis] at start; exact (start rfl).elim
  · rw [if_pos (onOneLine_trimList line)]

/-- The base name is the letters at the start, as far as they go. -/
theorem read?_eq {lead base rest : List Char} {arguments : Option (List Char)} {attributes : List Char}
    {s : String} (whole : s.toList = lead ++ (base ++ rest)) (blank : IsGap lead) (filled : base ≠ [])
    (letters : ∀ c ∈ base, c.isAlpha = true) (stop : ∀ c ∈ rest.head?, isBaseChar c = false)
    (cut : cutRest rest = some (arguments, attributes)) : read? s = some ⟨base, arguments, attributes⟩ := by
  obtain ⟨c, cs, rfl⟩ := List.exists_cons_of_ne_nil filled
  simp only [List.forall_mem_cons] at letters
  have start : s.toList.dropWhile isBlank = c :: (cs ++ rest) := by
    rw [whole, List.dropWhile_append_of_pos blank.blank, List.cons_append, List.dropWhile_cons_of_neg]
    simp [isBlank_of_isBaseChar (isBaseChar_of_isAlpha letters.1)]
  have all : ∀ d ∈ cs, isBaseChar d = true := fun d member => isBaseChar_of_isAlpha (letters.2 d member)
  have left : (cs ++ rest).dropWhile isBaseChar = rest := by
    rw [List.dropWhile_append_of_pos all, Text.dropWhile_of_head stop]
  have taken : (cs ++ rest).takeWhile isBaseChar = cs := by
    rw [List.takeWhile_append_of_pos all]
    cases rest with
    | nil => simp
    | cons d rest => simp [stop d rfl]
  simp only [read?, start, letters.1, if_true, left, taken, cut, Option.map_some]

/-! ## Attributes -/

namespace WritesWords

variable {words : List String} {cs : List Char}

theorem line (h : WritesWords words cs) : '\n' ∉ cs := by
  induction h with
  | none blank => exact blank.line
  | word blank _ _ solid _ ih =>
      simp only [List.mem_append, not_or]
      exact ⟨blank.line, fun member => absurd (solid _ member).1 (by decide), ih⟩

theorem close_not_mem (h : WritesWords words cs) : ')' ∉ cs := by
  induction h with
  | none blank => exact fun member => absurd (blank.blank _ member) (by decide)
  | word blank _ _ solid _ ih =>
      simp only [List.mem_append, not_or]
      exact ⟨fun member => absurd (blank.blank _ member) (by decide), fun member => (solid _ member).2.2 rfl, ih⟩

/-- Attributes start with a blank, if there is anything at all. -/
theorem breaks (h : WritesWords words cs) : Text.Breaks cs := by
  cases h with
  | none blank => exact fun c first => blank.blank c (List.mem_of_mem_head? first)
  | word blank apart =>
      intro c first
      rw [List.head?_append_of_ne_nil _ apart] at first
      exact blank.blank c (List.mem_of_mem_head? first)

theorem head?_dropWhile (h : WritesWords words cs) : (cs.dropWhile isBlank).head? ≠ some '(' := by
  cases h with
  | none blank => simp [List.dropWhile_eq_nil_iff.mpr blank.blank]
  | @word word words gap cs blank _ filled solid _ =>
      obtain ⟨c, rest, front⟩ := List.exists_cons_of_ne_nil fun none => filled (String.toList_eq_nil_iff.mp none)
      have first := solid c (front ▸ List.mem_cons_self ..)
      rw [List.dropWhile_append_of_pos blank.blank, front, List.cons_append, List.dropWhile_cons_of_neg]
      · simpa using first.2.1
      · simp [first.1]

theorem words_eq (h : WritesWords words cs) : splitBlanksList cs = words.map String.toList := by
  induction h with
  | none blank =>
      have none := splitBlanksList_blanks blank.blank []
      rwa [List.append_nil] at none
  | word blank _ filled solid rest ih =>
      have word : Text.IsWord _ :=
        ⟨fun none => filled (String.toList_eq_nil_iff.mp none), fun c member => (solid c member).1⟩
      rw [splitBlanksList_blanks blank.blank, splitBlanksList_word word rest.breaks, ih, List.map_cons]

end WritesWords

theorem isUnsigned_toList (word : String) : isUnsigned word.toList = decide (word.toLower = "unsigned") := by
  have same : word.toList.map Char.toLower = word.toLower.toList := (String.toList_map ..).symm
  rw [isUnsigned, same, Bool.eq_iff_iff, beq_iff_eq, decide_eq_true_iff, String.toList_inj]

/-- What attributes say is read from their words. -/
theorem applyAttributes_eq {words : List String} {cs : List Char}
    (split : splitBlanksList cs = words.map String.toList) (kind : ColumnKind) (argument : Option Argument) :
    applyAttributes { kind, width := Argument.widthOf argument, scale := Argument.scaleOf argument
                      members := Argument.membersOf argument } cs = told kind argument words := by
  have others : (words.map String.toList).filter (fun word => !isUnsigned word) =
      (words.filter fun word => word.toLower ≠ "unsigned").map String.toList := by
    rw [List.filter_map]
    congr 1
    apply List.filter_congr
    intro word _
    simp [isUnsigned_toList]
  have unsigned : (words.map String.toList).any isUnsigned =
      decide (∃ word ∈ words, word.toLower = "unsigned") := by
    rw [Bool.eq_iff_iff]
    simp [isUnsigned_toList]
  simp only [applyAttributes, told, split, others, unsigned, List.isEmpty_map, List.isEmpty_iff]
  congr 1
  split
  · rfl
  · apply congrArg some
    rw [← String.toList_inj, String.toList_ofList, String.toList_intercalate]
    rfl

/-- A small integer of width one is a truth value, and all else stays as it is told. -/
theorem normalize_told (kind : ColumnKind) (argument : Option Argument) (words : List String) :
    normalize (told kind argument words) =
      if kind = .tinyInt ∧ Argument.widthOf argument = 1 then
        { told kind argument words with kind := .boolean, scale := 0 }
      else told kind argument words := by
  have told_kind : (told kind argument words).kind = kind := rfl
  have told_width : (told kind argument words).width = Argument.widthOf argument := rfl
  rw [normalize, told_kind, told_width]
  by_cases small : kind = .tinyInt ∧ Argument.widthOf argument = 1
  · rw [if_pos small, if_pos small]
    -- an argument that gives a width gives no members
    have bare : Argument.membersOf argument = [] := by
      obtain _ | _ | _ | ms := argument
      · rfl
      · rfl
      · rfl
      · cases small.2
    simp only [told, bare, small.2]
  · rw [if_neg small, if_neg small]

end Descriptor

open Descriptor in
/-- A descriptor is read as what is written: the kind of its base name in any case, the width and scale or the
members of its argument, and its attributes apart from the one that asks for numbers without a sign. A small
integer of width one alone becomes a truth value. -/
theorem ColumnType.read_written {name base : String} {kind : ColumnKind} {argument : Option Argument}
    {words : List String} {s : String} (named : (name, kind) ∈ ColumnKind.baseNames)
    (cased : base.toLower = name) (written : Descriptor.Writes base argument words s) :
    ColumnType.read s = .ok (
      if kind = .tinyInt ∧ Argument.widthOf argument = 1 then
        { told kind argument words with kind := .boolean, scale := 0 }
      else told kind argument words) := by
  obtain ⟨lead, gap, inner, rest, leads, blank, stands, attributes, whole⟩ := written
  obtain ⟨filled, letters, asks⟩ := of_baseName named cased
  rw [← normalize_told]
  have words_eq : Text.splitBlanksList (Text.trimList Text.isBlank rest) = words.map String.toList :=
    (Text.splitBlanksList_trimList rest).trans attributes.words_eq
  cases stands with
  | absent =>
      -- the attributes are all that is left, with the gap before them
      have line : '\n' ∉ gap ++ rest := by simp [blank.line, attributes.line]
      have start : ((gap ++ rest).dropWhile Text.isBlank).head? ≠ some '(' := by
        rw [List.dropWhile_append_of_pos blank.blank]
        exact attributes.head?_dropWhile
      have cut := cutRest_of_none line start
      have words_eq' : Text.splitBlanksList (Text.trimList Text.isBlank (gap ++ rest)) =
          words.map String.toList := by
        rw [Text.splitBlanksList_trimList, Text.splitBlanksList_blanks blank.blank, attributes.words_eq]
      have stop := head?_gap_append blank fun c first => isBaseChar_of_isBlank (attributes.breaks c first)
      rw [ColumnType.read, read?_eq whole leads filled letters stop cut]
      simp only [asks]
      rw [← applyAttributes_eq words_eq']
      rfl
  | @between a cs before behind argued gap' gap'' =>
      -- the attributes have no parenthesis, so the last one of the text closes the argument
      have line : '\n' ∉ before ++ cs ++ behind := by simp [argued.line, gap'.line, gap''.line]
      have cut := cutRest_of_argument blank line attributes.line attributes.close_not_mem
      have opens : ∀ c ∈ ('(' :: (before ++ cs ++ behind) ++ [')'] ++ rest).head?, isBaseChar c = false := by
        rintro c ⟨⟩
        rfl
      have stop := head?_gap_append blank opens
      rw [ColumnType.read, read?_eq whole leads filled letters stop cut]
      simp only [asks, argued.apply_eq gap' gap'' kind, applyAttributes_eq words_eq]

open Descriptor in
/-- Members that hold quotes, commas, parentheses and the word `unsigned` are told from what stands around them. -/
theorem ColumnType.read_written_enumeration :
    let ms := ["it's", "a,(b) unsigned", ""]
    ("enum", ColumnKind.enumeration) ∈ ColumnKind.baseNames ∧ "EnUm".toLower = "enum" ∧
      Descriptor.Writes "EnUm" (some (.members ms)) ["UnSigned", "binary"]
        "EnUm ('it''s' ,'a,(b) unsigned','' ) UnSigned\t binary" ∧
      ColumnType.read "EnUm ('it''s' ,'a,(b) unsigned','' ) UnSigned\t binary" =
        .ok { kind := .enumeration, unsigned := true, other := some "binary", members := ms } := by
  have named : ("enum", ColumnKind.enumeration) ∈ ColumnKind.baseNames := by decide
  have cased : "EnUm".toLower = "enum" := by decide +kernel
  have none : IsGap [] := by decide
  have one : IsGap [' '] := by decide
  have two : IsGap ['\t', ' '] := by decide
  have listed : WritesMembers ["it's", "a,(b) unsigned", ""] "'it''s' ,'a,(b) unsigned',''".toList :=
    .more (by decide) one none (.more (by decide) none none (.last (by decide)))
  have attributes : WritesWords ["UnSigned", "binary"] " UnSigned\t binary".toList :=
    .word one (by decide) (by decide) (by simp [Text.isBlank]) <|
      .word two (by decide) (by decide) (by simp [Text.isBlank]) (.none none)
  have written : Descriptor.Writes "EnUm" (some (.members ["it's", "a,(b) unsigned", ""])) ["UnSigned", "binary"]
      "EnUm ('it''s' ,'a,(b) unsigned','' ) UnSigned\t binary" :=
    ⟨[], [' '], _, _, none, one, .between (.members listed) none one, attributes, by decide⟩
  exact ⟨named, cased, written, (ColumnType.read_written named cased written).trans (by decide +kernel)⟩

end TableMapper
