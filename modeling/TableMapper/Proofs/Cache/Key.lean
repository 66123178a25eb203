import TableMapper.Mapper.Keyed
import TableMapper.Proofs.Cache.Dotted
import TableMapper.Proofs.Mapper.RecordKey
import TableMapper.Proofs.Value.KeyText

/-! # What cache keys tell apart

The cache key of a row is the prefix of the table and the texts of the key values, with dots between them. It
tells rows apart but for two cases: where key values are alike column by column, and where a dot between two
texts stands for one inside of a text. For tables with different prefixes the second is the only case, with
the dot behind the shorter prefix.
-/

namespace TableMapper

/-- The types of key columns in generated code: what a column can have, without NULL. -/
def ColumnFields (fs : List RecordField) : Prop :=
  ∀ f ∈ fs, f.type.nullable = false ∧ f.type.scalar ≠ .any

namespace CodeTable

theorem scalar_ne_any (type : ColumnType) : type.scalar ≠ .any := by
  unfold ColumnType.scalar
  cases type.kind <;> exact ScalarType.noConfusion

theorem exists_field_of_mem {m : TableModel} {seen : List String} {columns : List SchemaColumn}
    {fields : List CodeField} (built : fieldsAfter m seen columns = .ok fields) :
    ∀ f ∈ fields, ∃ c type, f = field m c type := by
  induction columns generalizing seen fields with
  | nil =>
      obtain rfl := Except.ok.inj built
      exact fun _ member => nomatch member
  | cons c columns ih =>
      rw [fieldsAfter] at built
      split at built
      · exact nomatch built
      · next type read =>
          simp only at built
          split at built
          · exact nomatch built
          · cases rest : fieldsAfter m ((field m c type).plainName :: seen) columns with
            | error e =>
                rw [rest] at built
                exact nomatch built
            | ok others =>
                rw [rest] at built
                obtain rfl := Except.ok.inj built
                rw [List.forall_mem_cons]
                exact ⟨⟨c, type, rfl⟩, ih rest⟩

/-- Key columns of a table that was built hold no NULL, and values of a type. -/
theorem columnFields_of_build {m : LinkedModel} {columns : List SchemaColumn} {t : CodeTable}
    (built : build m columns = .ok t) : ColumnFields t.recordType.keyFields := by
  obtain ⟨fields, mapped, made⟩ : ∃ fields, fieldsAfter m.toTableModel [] columns = .ok fields ∧
      t.fields = fields := by
    simp only [build, Bind.bind, Except.bind] at built
    split at built
    · exact nomatch built
    · next fields mapped =>
        split at built
        · exact nomatch built
        · split at built
          · exact nomatch built
          · exact ⟨fields, mapped, congrArg CodeTable.fields (Except.ok.inj built).symm⟩
  intro f member
  obtain ⟨mapped', primary⟩ := List.mem_filter.1 member
  obtain ⟨g, source, rfl⟩ := List.mem_map.1 mapped'
  obtain ⟨c, type, rfl⟩ := exists_field_of_mem mapped g (made ▸ source)
  refine ⟨?_, scalar_ne_any type⟩
  change c.isPrimary = true at primary
  change (c.nullable && !c.isPrimary) = false
  rw [primary, Bool.not_true, Bool.and_false]

end CodeTable

namespace RecordType

variable {t : RecordType}

def Key.texts (k : t.Key) : List String := k.values.map Value.keyText

theorem cacheKey_cells (k : t.Key) : t.cacheKey k.cells = dotted (t.cacheStart :: k.texts) := by
  rw [cacheKey, cacheKey_eq_dotted, Key.texts, ← k.values_cells, List.map_map]
  rfl

end RecordType

/-- Values of columns have the same texts when they are alike, column by column. -/
theorem Typed.keyTexts_eq_iff {fs : List RecordField} (columns : ColumnFields fs) {vs ws : List Value}
    (hv : Typed fs vs) (hw : Typed fs ws) :
    vs.map Value.keyText = ws.map Value.keyText ↔ List.Forall₂ Value.Alike vs ws := by
  induction fs generalizing vs ws with
  | nil =>
      cases vs <;> cases ws
      · exact ⟨fun _ => .nil, fun _ => rfl⟩
      · exact hw.elim
      · exact hv.elim
      · exact hv.elim
  | cons f fs ih =>
      cases vs <;> cases ws
      · exact hv.elim
      · exact hv.elim
      · exact hw.elim
      · next v vs w ws =>
          obtain ⟨notNull, given⟩ := columns f (List.mem_cons_self ..)
          have scalar : ∀ v, f.type.holds v = true → f.type.scalar.holds v = true := by
            intro v held
            simpa only [FieldType.holds, notNull, Bool.false_and, Bool.false_or] using held
          have first := Value.keyText_eq_iff given (scalar v hv.1) (scalar w hw.1)
          have rest := ih (fun g member => columns g (List.mem_cons_of_mem f member)) hv.2 hw.2
          rw [List.map_cons, List.map_cons, List.cons.injEq, first, rest, List.forall₂_cons]

/-- One prefix goes on behind a dot where the other ends, with the first of the texts that stand behind the
shorter prefix. -/
def GoesOn (start : String) (texts : List String) (start' : String) (texts' : List String) : Prop :=
  ∃ r, start' = start ++ "." ++ r ∧ texts ≠ [] ∧ dotted texts = dotted (r :: texts')

/-- Behind the same prefix, keys come to the same when their texts do. -/
theorem dotted_cons_eq_iff {start : String} {texts texts' : List String} :
    dotted (start :: texts) = dotted (start :: texts') ↔
      texts = texts' ∨ CutsInto texts texts' ∨ CutsInto texts' texts := by
  have inside : ∀ {texts texts' : List String}, CutsInto (start :: texts) (start :: texts') ↔
      CutsInto texts texts' := by
    intro texts texts'
    constructor
    · intro cut
      obtain ⟨-, behind⟩ | ⟨r, goesOn, -, -⟩ := cut.of_cons
      · exact behind
      · have longer := congrArg String.length goesOn
        simp only [String.length_append] at longer
        have dot : ".".length = 1 := rfl
        omega
    · exact fun cut => cut.cons start
  rw [dotted_eq_iff (List.cons_ne_nil _ _) (List.cons_ne_nil _ _), inside, inside, List.cons.injEq]
  simp only [true_and]

/-- Behind different prefixes, keys come to the same only where one prefix goes on in the other. -/
theorem dotted_cons_eq_iff_of_ne {start start' : String} (differ : start ≠ start')
    {texts texts' : List String} :
    dotted (start :: texts) = dotted (start' :: texts') ↔
      GoesOn start texts start' texts' ∨ GoesOn start' texts' start texts := by
  have apart : ∀ {start start' : String} {texts texts' : List String}, start ≠ start' →
      (CutsInto (start :: texts) (start' :: texts') ↔ GoesOn start texts start' texts') := by
    intro start start' texts texts' differ
    constructor
    · intro cut
      exact cut.of_cons.resolve_left fun same => differ same.1
    · rintro ⟨r, rfl, some, rest⟩
      exact ⟨[], start, texts, r, texts', rfl, rfl, some, rest⟩
  rw [dotted_eq_iff (List.cons_ne_nil _ _) (List.cons_ne_nil _ _), apart differ, apart (Ne.symm differ)]
  constructor
  · rintro (same | collide)
    · exact absurd (List.cons.inj same).1 differ
    · exact collide
  · exact .inr

/-- When cache keys fail to tell rows apart. Two keys of one table have the same cache key exactly when they
are alike column by column, or a dot between two of their texts stands for one inside of a text. Keys of two
tables with different prefixes have the same cache key exactly when one prefix goes on in the other. -/
theorem CodeTable.cacheKey_eq_iff {m : LinkedModel} {columns : List SchemaColumn} {t : CodeTable}
    (built : CodeTable.build m columns = .ok t) :
    (∀ k k' : t.recordType.Key, t.recordType.cacheKey k.cells = t.recordType.cacheKey k'.cells ↔
      List.Forall₂ Value.Alike k.values k'.values ∨
        CutsInto k.texts k'.texts ∨ CutsInto k'.texts k.texts) ∧
    ∀ t' : CodeTable, t.model.cacheStart ≠ t'.model.cacheStart →
      ∀ (k : t.recordType.Key) (k' : t'.recordType.Key),
        t.recordType.cacheKey k.cells = t'.recordType.cacheKey k'.cells ↔
          GoesOn t.model.cacheStart k.texts t'.model.cacheStart k'.texts ∨
            GoesOn t'.model.cacheStart k'.texts t.model.cacheStart k.texts := by
  constructor
  · intro k k'
    rw [RecordType.cacheKey_cells, RecordType.cacheKey_cells, dotted_cons_eq_iff]
    exact or_congr_left (k.typed.keyTexts_eq_iff (columnFields_of_build built) k'.typed)
  · intro t' differ k k'
    rw [RecordType.cacheKey_cells, RecordType.cacheKey_cells]
    exact dotted_cons_eq_iff_of_ne differ

/-! ## Keys that collide -/

/-- A model whose cache keys start with `app.token`. -/
def tokenModel : LinkedModel :=
  { name := "token", author := "author", copyright := "copyright", className := "Token", table := "token"
    prefixes := [], cachePrefix := "App_Token", cacheEnabled := true, entity := ⟨"entity", "entity"⟩
    mapper := ⟨"mapper", "mapper"⟩, repository := none, rules := .empty, declaredJoins := [], joins := [] }

/-- A primary key of two texts and bytes. -/
def tokenColumns : List SchemaColumn :=
  [{ name := "realm", type := "varchar(20)", key := .primary },
   { name := "owner", type := "varchar(20)", key := .primary },
   { name := "digest", type := "varbinary(16)", key := .primary }]

def tokenField (name : String) (type : ColumnType) : CodeField :=
  { column := name, name, plainName := name, type, nullable := false, primary := true, autoIncrement := false
    rule := none }

def tokenTable : CodeTable :=
  ⟨tokenModel,
    [tokenField "realm" { kind := .varChar, width := 20 }, tokenField "owner" { kind := .varChar, width := 20 },
     tokenField "digest" { kind := .varBinary, width := 16 }]⟩

theorem build_tokenTable : CodeTable.build tokenModel tokenColumns = .ok tokenTable := by
  have text : ColumnType.read "varchar(20)" = .ok { kind := .varChar, width := 20 } := by decide +kernel
  have bytes : ColumnType.read "varbinary(16)" = .ok { kind := .varBinary, width := 16 } := by decide +kernel
  have plain : ∀ c ∈ tokenColumns, Code.fieldName c.name = c.name ∧ Code.plainName c.name = c.name ∧
      c.isAutoIncrement = false ∧ c.isPrimary = true ∧ c.nullable = false := by decide +kernel
  have field : ∀ c ∈ tokenColumns, ∀ type,
      CodeTable.field tokenModel.toTableModel c type = tokenField c.name type := by
    intro c member type
    obtain ⟨name, plainName, auto, primary, nullable⟩ := plain c member
    have strip : tokenModel.stripPrefix c.name = c.name := rfl
    simp only [CodeTable.field, strip, name, plainName, auto, primary, nullable, tokenField]
    rfl
  simp only [tokenColumns, List.forall_mem_cons] at field
  simp only [CodeTable.build, tokenColumns, CodeTable.fieldsAfter, text, bytes, field, Bind.bind, Except.bind]
  rfl

def tokenKey (realm owner : String) (digest : List UInt8) : tokenTable.recordType.Key :=
  ⟨[.text realm, .text owner, .bytes ⟨digest.toArray⟩], rfl, rfl, rfl, trivial⟩

/-- A model like that of tokens, with a prefix that goes on behind theirs. -/
def zoneTable : CodeTable :=
  ⟨{ tokenModel with cachePrefix := "App_Token_Zone" },
    [tokenField "owner" { kind := .varChar, width := 20 },
     tokenField "digest" { kind := .varBinary, width := 16 }]⟩

def zoneKey (owner : String) (digest : List UInt8) : zoneTable.recordType.Key :=
  ⟨[.text owner, .bytes ⟨digest.toArray⟩], rfl, rfl, trivial⟩

/-- Bytes of one length, a dot that moves from one text to the next, and a prefix that goes on. -/
theorem cacheKey_eq_tokens :
    CodeTable.build tokenModel tokenColumns = .ok tokenTable ∧
      tokenTable.recordType.cacheKey (tokenKey "a" "b" [0]).cells =
        tokenTable.recordType.cacheKey (tokenKey "a" "b" [1]).cells ∧
      tokenTable.recordType.cacheKey (tokenKey "a.b" "c" [0]).cells =
        tokenTable.recordType.cacheKey (tokenKey "a" "b.c" [0]).cells ∧
      tokenTable.recordType.cacheKey (tokenKey "zone" "a" [0]).cells =
        zoneTable.recordType.cacheKey (zoneKey "a" [0]).cells := by
  obtain ⟨one, two⟩ := CodeTable.cacheKey_eq_iff build_tokenTable
  refine ⟨build_tokenTable, (one _ _).2 (.inl ?_), (one _ _).2 (.inr (.inr ?_)),
    (two zoneTable ?_ _ _).2 (.inl ?_)⟩
  · exact .cons rfl (.cons rfl (.cons rfl .nil))
  · exact ⟨[], "a", ["b.c", "<1 bytes>"], "b", ["c", "<1 bytes>"], by decide, by decide, by decide,
      by decide⟩
  · decide +kernel
  · exact ⟨"zone", by decide +kernel, by decide, by decide⟩

/-- Two keys that differ have one cache key. -/
theorem cacheKey_not_injective :
    tokenTable.model.cacheEnabled = true ∧ (tokenKey "a" "b" [0]).values ≠ (tokenKey "a" "b" [1]).values ∧
      tokenTable.recordType.cacheKey (tokenKey "a" "b" [0]).cells = "app.token.a.b.<1 bytes>" ∧
      tokenTable.recordType.cacheKey (tokenKey "a" "b" [1]).cells = "app.token.a.b.<1 bytes>" := by
  decide +kernel

end TableMapper
