import TableMapper.Proofs.Code.Collisions

/-! # Legal identifiers

Names of fields are never reserved words, and different columns have different fields. But a name may be no
word at all: what a prefix leaves of a column can start with a digit, or have no letter in it. Names of types
are words, and may be reserved ones. Main statement: `legal_identifiers`.
-/

namespace TableMapper.Code

open Text (category isAlphanumeric)

/-! ## What an identifier is -/

/-- The words that are reserved, from the first edition of the language or from a later one, and those that
are kept for the future. -/
def reservedWords : List String :=
  ["as", "break", "const", "continue", "crate", "else", "enum", "extern", "false", "fn", "for", "if", "impl",
   "in", "let", "loop", "match", "mod", "move", "mut", "pub", "ref", "return", "self", "Self", "static",
   "struct", "super", "trait", "true", "type", "unsafe", "use", "where", "while"] ++
  ["async", "await", "dyn"] ++
  ["abstract", "become", "box", "do", "final", "macro", "override", "priv", "typeof", "unsized", "virtual",
   "yield", "try", "gen"]

/-- The reserved words that raw identifiers cannot be made of. -/
def wordsNeverRaw : List String := ["crate", "self", "super", "Self"]

/-- Characters that are no letters by their category, and that words may start with. -/
def startsByName : Text.CodePoints := ⟨[(0x1885, 0x1886), (0x2118, 0x2118), (0x212E, 0x212E)]⟩

/-- Letters that are written as others in the end, so that words have none of them. -/
def compatibles : Text.CodePoints :=
  ⟨[(0x37A, 0x37A), (0x2E2F, 0x2E2F), (0xFC5E, 0xFC63), (0xFDFA, 0xFDFB), (0xFE70, 0xFE70), (0xFE72, 0xFE72),
    (0xFE74, 0xFE74), (0xFE76, 0xFE76), (0xFE78, 0xFE78), (0xFE7A, 0xFE7A), (0xFE7C, 0xFE7C),
    (0xFE7E, 0xFE7E)]⟩

/-- Letters that words may have, but not at the start. -/
def neverFirst : Text.CodePoints := ⟨[(0xE33, 0xE33), (0xEB3, 0xEB3), (0xFF9E, 0xFF9F)]⟩

/-- Characters of no category for words that words may have behind the start. -/
def continuesByName : Text.CodePoints :=
  ⟨[(0xB7, 0xB7), (0x387, 0x387), (0x1369, 0x1371), (0x19DA, 0x19DA)]⟩

/-- Letters, at the start of a word. -/
def isWordStart (c : Char) : Bool :=
  if c.toNat < 128 then c.isAlpha
  else
    ((category c).isLetter || category c == .nl || startsByName.contains c) &&
      !compatibles.contains c && !neverFirst.contains c

/-- Letters, digits, marks and connectors, behind the start of a word. -/
def isWordPart (c : Char) : Bool :=
  if c.toNat < 128 then c.isAlphanum || c == '_'
  else
    (isWordStart c || neverFirst.contains c || category c == .mn || category c == .mc || category c == .nd ||
      category c == .pc || continuesByName.contains c) && !compatibles.contains c

/-- A letter or underscore with further parts of words behind it. -/
def isWord (s : String) : Bool :=
  match s.toList with
  | [] => false
  | c :: cs => (isWordStart c || c == '_') && cs.all isWordPart

/-- What a raw identifier is made of. -/
def rawPart? (name : String) : Option String :=
  match name.toList with
  | 'r' :: '#' :: cs => some (String.ofList cs)
  | _ => none

/-- The identifier that a name stands for, which is the same for a raw one. -/
def identifier (name : String) : String := (rawPart? name).getD name

/-- A word other than the underscore. It is no reserved word, or it is written raw and may be. -/
def isIdentifier (name : String) : Bool :=
  isWord (identifier name) && identifier name != "_" &&
    !(if (rawPart? name).isSome then wordsNeverRaw else reservedWords).contains (identifier name)

theorem mem_reservedWords {word : String} : word ∈ reservedWords ↔ isKeyword word = true := by
  have : reservedWords.Perm keywords := by decide
  rw [this.mem_iff, isKeyword, List.contains_iff_mem]

theorem mem_wordsNeverRaw {word : String} : word ∈ wordsNeverRaw ↔ word ∈ pathKeywords := by
  have : wordsNeverRaw.Perm pathKeywords := by decide
  exact this.mem_iff

theorem rawPart?_raw (word : String) : rawPart? ("r#" ++ word) = some word := by
  simp [rawPart?]

theorem rawPart?_eq_none {name : String} (plain : '#' ∉ name.toList) : rawPart? name = none := by
  unfold rawPart?
  split
  · next shape => simp [shape] at plain
  · rfl

theorem isIdentifier_of_not_raw {name : String} (plain : '#' ∉ name.toList) : isIdentifier name = true ↔
    isWord name = true ∧ name ≠ "_" ∧ name ∉ reservedWords := by
  simp [isIdentifier, identifier, rawPart?_eq_none plain, and_assoc]

/-! ## Names of fields -/

theorem isIdentifier_fieldName (name : String) :
    isIdentifier (fieldName name) = true ↔ isWord (plainName name) = true := by
  have hash : '#' ∉ (plainName name).toList := Text.Words.hash_not_mem_snake name
  have long : plainName name ≠ "_" := Text.Words.snake_ne_append_underscore name ""
  unfold fieldName
  generalize plainName name = plain at *
  dsimp only
  split
  · next path =>
    have each : ∀ word ∈ pathKeywords, isIdentifier (word ++ "_") = isWord word := by decide
    rw [each plain (List.contains_iff_mem.mp path)]
  · next other =>
    rw [List.contains_iff_mem, ← mem_wordsNeverRaw] at other
    split
    · simp [isIdentifier, identifier, rawPart?_raw, long, other]
    · next free =>
      rw [← mem_reservedWords] at free
      simp [isIdentifier_of_not_raw hash, long, free]

theorem identifier_fieldName (name : String) : identifier (fieldName name) =
    if pathKeywords.contains (plainName name) then plainName name ++ "_" else plainName name := by
  have hash : '#' ∉ (plainName name).toList := Text.Words.hash_not_mem_snake name
  unfold fieldName
  dsimp only
  split
  · have plain : '#' ∉ (plainName name ++ "_").toList := by simpa using hash
    rw [identifier, rawPart?_eq_none plain, Option.getD_none]
  · split
    · rw [identifier, rawPart?_raw, Option.getD_some]
    · rw [identifier, rawPart?_eq_none hash, Option.getD_none]

/-- Fields with one identifier have one plain name, as an underscore never ends one. -/
theorem plainName_eq_of_identifier {name other : String}
    (same : identifier (fieldName name) = identifier (fieldName other)) : plainName name = plainName other := by
  rw [identifier_fieldName, identifier_fieldName] at same
  split at same
  · split at same
    · simpa [← String.toList_inj] using same
    · exact absurd same.symm (Text.Words.snake_ne_append_underscore other _)
  · split at same
    · exact absurd same (Text.Words.snake_ne_append_underscore name _)
    · exact same

theorem isWord_of_isPlain {s : String} {c : Char} {cs : List Char} (chars : s.toList = c :: cs)
    (plain : ∀ d ∈ s.toList, Text.Words.IsPlain d) : isWord s = true ↔ c.isAlpha = true ∨ c = '_' := by
  rw [chars, List.forall_mem_cons] at plain
  have parts : cs.all isWordPart = true := by
    refine List.all_eq_true.mpr fun d member => ?_
    rw [isWordPart, if_pos (plain.2 d member).toNat_lt]
    simpa [Text.Words.IsPlain] using plain.2 d member
  simp [isWord, chars, parts, isWordStart, plain.1.toNat_lt]

/-- Of ASCII characters the first letter or digit decides whether a name gives a word. -/
theorem isWord_plainName {name : String} (ascii : ∀ c ∈ name.toList, c.toNat < 128) :
    isWord (plainName name) = true ↔ ∃ c, name.toList.find? isAlphanumeric = some c ∧ c.isAlpha = true := by
  cases first : name.toList.find? isAlphanumeric with
  | none =>
      rw [plainName, Text.Words.snake_eq_empty first]
      simp [isWord]
  | some c =>
      have small := ascii c (List.mem_of_find?_eq_some first)
      have known := List.find?_some first
      rw [isAlphanumeric, if_pos small] at known
      obtain ⟨rest, chars⟩ := Text.Words.exists_snake_cons first small
      rw [plainName, isWord_of_isPlain chars fun d => Text.Words.isPlain_of_mem_snake_of_ascii ascii]
      have lowered := Text.Words.forall_isPlain
        (p := fun c => c.isAlphanum = true → ((c.toLower.isAlpha = true ∨ c.toLower = '_') ↔ c.isAlpha = true))
        (by decide) (.inl known) known
      simp only [lowered, Option.some.injEq, exists_eq_left']

end TableMapper.Code

namespace TableMapper

/-! ## Names of types -/

theorem TableModel.isWord_of_isTypeName {s : String} (typed : isTypeName s = true) : Code.isWord s = true := by
  have plain := isPlain_of_isTypeName typed
  unfold isTypeName at typed
  cases chars : s.toList with
  | nil => simp [chars] at typed
  | cons c cs =>
      rw [chars, Bool.and_eq_true, Bool.or_eq_true, beq_iff_eq] at typed
      exact (Code.isWord_of_isPlain chars plain).mpr typed.1

namespace CodeTable

variable {m : LinkedModel} {columns : List SchemaColumn} {t : CodeTable}

theorem names_of_fields {m : TableModel} {fields : List CodeField}
    (made : List.Forall₂ (IsFieldOf m) columns fields) : ∀ f ∈ fields,
      f.name = Code.fieldName (m.stripPrefix f.column) ∧
      f.plainName = Code.plainName (m.stripPrefix f.column) := by
  induction made with
  | nil => simp
  | cons first _ ih =>
      obtain ⟨type, -, rfl⟩ := first
      exact List.forall_mem_cons.mpr ⟨by simp only [field, and_self], ih⟩

/-- The fields of a table have different identifiers. -/
theorem nodup_identifiers (built : build m columns = .ok t) :
    (t.fields.map fun f => Code.identifier f.name).Nodup := by
  obtain ⟨-, made, apart, -⟩ := build_eq_ok.mp built
  have names := names_of_fields made
  rw [List.Nodup, List.pairwise_map] at apart ⊢
  refine apart.imp_of_mem fun {f g} first second differ same => differ ?_
  rw [(names f first).1, (names g second).1] at same
  rw [(names f first).2, (names g second).2]
  exact Code.plainName_eq_of_identifier same

/-- The entity type of a table has a legal name unless the configured one is the underscore or reserved, and a
field has one if what a prefix leaves of its column is a word in snake case: of ASCII characters, if the first
letter or digit is a letter. The identifiers of the fields are different. -/
theorem legal_identifiers [PatternEngine] {name : String} {entry : ConfigEntry}
    (configured : TableModel.build name entry = .ok m.toTableModel) (built : build m columns = .ok t) :
    (Code.isIdentifier t.className = true ↔ t.className ≠ "_" ∧ t.className ∉ Code.reservedWords) ∧
    (∀ f ∈ t.fields, Code.isIdentifier f.name = true ↔ Code.isWord f.plainName = true) ∧
    (∀ f ∈ t.fields, (∀ c ∈ (m.stripPrefix f.column).toList, c.toNat < 128) →
      (Code.isIdentifier f.name = true ↔
        ∃ c, (m.stripPrefix f.column).toList.find? Text.isAlphanumeric = some c ∧ c.isAlpha = true)) ∧
    (t.fields.map fun f => Code.identifier f.name).Nodup := by
  obtain ⟨linked, made, -⟩ := build_eq_ok.mp built
  have names := names_of_fields made
  have legal (f : CodeField) (member : f ∈ t.fields) :
      Code.isIdentifier f.name = true ↔ Code.isWord f.plainName = true := by
    rw [(names f member).1, (names f member).2]
    exact Code.isIdentifier_fieldName _
  refine ⟨?_, legal, fun f member ascii => ?_, nodup_identifiers built⟩
  · have typed : TableModel.isTypeName t.className = true := by
      rw [className, linked]
      exact TableModel.isTypeName_of_build configured
    have hash : '#' ∉ t.className.toList := fun held =>
      absurd (TableModel.isPlain_of_isTypeName typed _ held) (by decide)
    simp [Code.isIdentifier_of_not_raw hash, TableModel.isWord_of_isTypeName typed]
  · rw [legal f member, (names f member).2]
    exact Code.isWord_plainName ascii

/-- A table whose columns share a prefix. -/
def prefixed : ConfigEntry := { Resolution.sample [] with prefixes := some (.one "usr") }

def prefixedColumns : List SchemaColumn :=
  [{ name := "usr_id", type := "int", key := .primary }, { name := "usr_type", type := "int" },
    { name := "usr_2fa", type := "tinyint(1)" }]

theorem exists_build_of_names {names : List String}
    (shown : ((build m columns).toOption.map fun t => t.fields.map (·.name)) = some names) :
    ∃ t, build m columns = .ok t ∧ t.fields.map (·.name) = names :=
  exists_of_toOption_map shown

open scoped Pattern in
theorem exists_build_prefixed : ∃ m t, TableModel.build "user" prefixed = .ok m.toTableModel ∧
    build m prefixedColumns = .ok t ∧ t.fields.map (·.name) = ["id", "r#type", "2fa"] := by
  have shown : ((TableModel.build "user" prefixed).toOption.bind fun base =>
      (build ⟨base, []⟩ prefixedColumns).toOption.map fun t => t.fields.map (·.name)) =
      some ["id", "r#type", "2fa"] := by decide
  obtain ⟨base, configured, shown⟩ := exists_of_toOption_bind shown
  obtain ⟨t, built, names⟩ := exists_build_of_names shown
  exact ⟨⟨base, []⟩, t, configured, built, names⟩

open scoped Pattern in
theorem legal_identifiers_prefixed : ∃ m t, TableModel.build "user" prefixed = .ok m.toTableModel ∧
    build m prefixedColumns = .ok t ∧ t.fields.map (·.name) = ["id", "r#type", "2fa"] ∧
    (Code.isIdentifier t.className = true ↔ t.className ≠ "_" ∧ t.className ∉ Code.reservedWords) ∧
    (∀ f ∈ t.fields, Code.isIdentifier f.name = true ↔ Code.isWord f.plainName = true) ∧
    (t.fields.map fun f => Code.identifier f.name).Nodup := by
  obtain ⟨m, t, configured, built, names⟩ := exists_build_prefixed
  obtain ⟨typed, legal, -, apart⟩ := legal_identifiers configured built
  exact ⟨m, t, configured, built, names, typed, legal, apart⟩

open scoped Pattern in
/-- The prefix leaves a name that starts with a digit. -/
theorem not_legal_identifiers : ∃ m t, TableModel.build "user" prefixed = .ok m.toTableModel ∧
    build m prefixedColumns = .ok t ∧ ∃ f ∈ t.fields, f.name = "2fa" ∧ Code.isIdentifier f.name = false := by
  obtain ⟨m, t, configured, built, names⟩ := exists_build_prefixed
  have held : "2fa" ∈ t.fields.map (·.name) := by
    rw [names]
    decide
  obtain ⟨f, member, named⟩ := List.mem_map.mp held
  refine ⟨m, t, configured, built, f, member, named, ?_⟩
  rw [named]
  decide

end CodeTable

end TableMapper
