import TableMapper.Proofs.Code.MethodNames

/-! # Rules of fields

A rule is given for a column, under its full name or under its name without a prefix, and the setter of its field
checks by it. Each column has one rule at most: where both names have one, that of the full name hides the other.
So a rule goes by unseen that no other column goes by in full. Main statement: `rules_enforced_iff`.
-/

namespace TableMapper

/-! ## Setters that check -/

namespace Code

/-- What a call makes of options. -/
def OptionCall.run (o : RuleOptions) : OptionCall → RuleOptions
  | .least n => { o with least := some n }
  | .greatest n => { o with greatest := some n }
  | .preset p => { o with preset := some p }
  | .pattern s => { o with pattern := some s }
  | .hostname => { o with hostname := true }
  | .allowNull => { o with allowNull := true }

theorem foldl_run_optionCalls (o : RuleOptions) : (optionCalls o).foldl OptionCall.run {} = o := by
  obtain ⟨least, greatest, preset, pattern, hostname, allowNull⟩ := o
  cases least <;> cases greatest <;> cases preset <;> cases pattern <;> cases hostname <;> cases allowNull <;> rfl

/-- A method starts by checking what it is given, with the kind and the options of a rule, and goes on only with what
the rule makes of it. -/
def Method.ChecksBy (method : Method) (rule : FieldRule) : Prop :=
  ∃ calls : List OptionCall, calls.foldl OptionCall.run {} = rule.options ∧
    ["let options = " ++ ("mapgen::ValidationOptions::new()" ++ String.join (calls.map OptionCall.spelling)) ++ ";",
      "let checked = mapgen::validate(",
      "    mapgen::ValidatorKind::" ++ rule.kind.label ++ ",",
      "    &mapgen::ToValue::to_value(&value),",
      "    &options,",
      ")?;"] <+: method.body

theorem checksBy_setter {f : CodeField} {rule : FieldRule} (ruled : f.rule = some rule) :
    (setter f).ChecksBy rule := by
  refine ⟨optionCalls rule.options, foldl_run_optionCalls _, ?_⟩
  rw [setter, ruled]
  exact ⟨["self." ++ f.name ++ " = " ++ f.fieldType.castExpression "checked" ++ ";", "Ok(self)"], rfl⟩

theorem setter_mem_entityMethods {t : CodeTable} {f : CodeField} (member : f ∈ t.fields) :
    setter f ∈ entityMethods t := by
  refine List.mem_cons_of_mem _ (List.mem_flatMap.mpr ⟨f, member, ?_⟩)
  exact List.mem_cons_of_mem _ (List.mem_singleton_self _)

end Code

namespace CodeTable

variable {m : LinkedModel} {columns : List SchemaColumn} {t : CodeTable}

/-- A rule given for a name is that of a field whose column goes by the name, and the setter of the field checks
by it. -/
def Enforced (t : CodeTable) (name : String) (rule : FieldRule) : Prop :=
  ∃ f ∈ t.fields, (f.column = name ∨ t.model.stripPrefix f.column = name) ∧ f.rule = some rule ∧
    ∃ method ∈ Code.entityMethods t, method.name = "set_" ++ f.plainName ∧ method.ChecksBy rule

theorem rules_of_fields {m : TableModel} {fields : List CodeField}
    (made : List.Forall₂ (IsFieldOf m) columns fields) : ∀ f ∈ fields, f.rule = ruleFor m f.column := by
  induction made with
  | nil => simp
  | cons first _ ih =>
      obtain ⟨type, -, rfl⟩ := first
      exact List.forall_mem_cons.mpr ⟨rfl, ih⟩

theorem exists_field_iff {m : TableModel} {fields : List CodeField}
    (made : List.Forall₂ (IsFieldOf m) columns fields) {P : String → Prop} :
    (∃ f ∈ fields, P f.column) ↔ ∃ c ∈ columns, P c.name := by
  classical
  simpa using any_fields made fun name => decide (P name)

/-- The setter of a field checks by its rule, so it is enough that a column goes by the name and has the rule. -/
theorem enforced_iff_exists_column (built : build m columns = .ok t) {name : String} {rule : FieldRule} :
    Enforced t name rule ↔ ∃ c ∈ columns, (c.name = name ∨ m.stripPrefix c.name = name) ∧
      ruleFor m.toTableModel c.name = some rule := by
  obtain ⟨linked, made, -⟩ := build_eq_ok.mp built
  have ruled := rules_of_fields made
  rw [Enforced, linked, ← exists_field_iff made
    (P := fun name' => (name' = name ∨ m.stripPrefix name' = name) ∧ ruleFor m.toTableModel name' = some rule)]
  refine exists_congr fun f => and_congr_right fun member => and_congr_right fun _ => ?_
  rw [← ruled f member]
  refine and_iff_left_of_imp fun has => ?_
  exact ⟨Code.setter f, Code.setter_mem_entityMethods member, Code.name_setter f, Code.checksBy_setter has⟩

/-- A rule is hidden by another one that its column has under its full name. -/
theorem enforced_iff (built : build m columns = .ok t) {name : String} {rule : FieldRule}
    (given : m.rules.get? name = some rule) :
    Enforced t name rule ↔ (∃ c ∈ columns, c.name = name) ∨
      ∃ c ∈ columns, m.stripPrefix c.name = name ∧ ∀ own, m.rules.get? c.name = some own → own = rule := by
  rw [enforced_iff_exists_column built, ← exists_or]
  refine exists_congr fun c => ?_
  rw [← and_or_left]
  refine and_congr_right fun _ => ?_
  constructor
  · rintro ⟨full | stripped, has⟩
    · exact .inl full
    · refine .inr ⟨stripped, fun own found => ?_⟩
      rw [ruleFor, found, Option.some_or] at has
      exact Option.some.inj has
  · rintro (rfl | ⟨rfl, alone⟩)
    · exact ⟨.inl rfl, by rw [ruleFor, given, Option.some_or]⟩
    · refine ⟨.inr rfl, ?_⟩
      rw [ruleFor, given]
      cases found : m.rules.get? c.name with
      | none => rfl
      | some own => rw [Option.some_or, alone own found]

theorem eq_of_stripPrefix {m : TableModel} {fields : List CodeField}
    (made : List.Forall₂ (IsFieldOf m) columns fields) (apart : (fields.map (·.plainName)).Nodup) {c c' : SchemaColumn}
    (first : c ∈ columns) (second : c' ∈ columns) (same : m.stripPrefix c.name = m.stripPrefix c'.name) : c = c' := by
  rw [plainNames_of_fields made] at apart
  exact List.inj_on_of_nodup_map apart first second (congrArg Code.plainName same)

/-- Every rule of a model is enforced by the setter of a field for its column if and only if no column has two rules,
under its full name and under its name without a prefix, unless they are one rule or the latter is the full name of
another column. -/
theorem rules_enforced_iff (built : build m columns = .ok t) :
    (∀ name rule, m.rules.get? name = some rule → Enforced t name rule) ↔
      ∀ c ∈ columns, ∀ own rule, m.rules.get? c.name = some own → m.rules.get? (m.stripPrefix c.name) = some rule →
        own = rule ∨ ∃ other ∈ columns, other.name = m.stripPrefix c.name := by
  obtain ⟨-, made, apart, known, -⟩ := build_eq_ok.mp built
  constructor
  · intro all c column own rule full stripped
    obtain other | ⟨c', column', same, alone⟩ := (enforced_iff built stripped).mp (all _ rule stripped)
    · exact .inr other
    · -- the column that has the rule is the one in question, as two of one stripped name would be one field
      obtain rfl := eq_of_stripPrefix made apart column' column same
      exact .inl (alone own full)
  · intro single name rule given
    rw [enforced_iff built given]
    by_cases full : ∃ c ∈ columns, c.name = name
    · exact .inl full
    · have keyed : name ∈ m.rules.keys := KeyMap.contains_iff.mp (by rw [KeyMap.contains, given, Option.isSome_some])
      have about := any_fields made fun column => column == name || m.stripPrefix column == name
      obtain ⟨c, column, goes⟩ := about.mp (known name keyed)
      rw [Bool.or_eq_true, beq_iff_eq, beq_iff_eq] at goes
      obtain whole | rfl := goes
      · exact (full ⟨c, column, whole⟩).elim
      · refine .inr ⟨c, column, rfl, fun own found => ?_⟩
        exact (single c column own rule found given).resolve_right full

/-- A table with rules, whose columns may start with either of two prefixes. -/
def ruled (rules : List (String × RuleEntry)) : ConfigEntry :=
  { Resolution.sample [] with prefixes := some (.many ["usr", "my"]), rules := .ofList rules }

def numbered (names : List String) : List SchemaColumn := names.map fun name => { name, type := "int" }

open scoped Pattern in
/-- What a table with rules comes to, as far as its rules are concerned. -/
theorem exists_build_ruled (rules : List (String × RuleEntry)) (names : List String)
    (given : List (String × FieldRule)) (had : List (Option FieldRule))
    (shown : ((TableModel.build "user" (ruled rules)).toOption.bind fun base =>
      (build ⟨base, []⟩ (numbered names)).toOption.map fun t =>
        (base.prefixes, base.rules.toList, t.fields.map (·.rule))) = some (["usr", "my"], given, had)) :
    ∃ m t, TableModel.build "user" (ruled rules) = .ok m.toTableModel ∧ build m (numbered names) = .ok t ∧
      m.prefixes = ["usr", "my"] ∧ m.rules.toList = given ∧ t.fields.map (·.rule) = had := by
  obtain ⟨base, configured, shown⟩ := exists_of_toOption_bind shown
  obtain ⟨t, built, shown⟩ := exists_of_toOption_map shown
  simp only [Prod.mk.injEq] at shown
  exact ⟨⟨base, []⟩, t, configured, built, shown⟩

open scoped Pattern in
/-- A rule under the full name of one column is not hidden by the rule of another one that goes by this name without
its prefix. -/
theorem rules_enforced_nested : ∃ m t,
    TableModel.build "user" (ruled [("id", .kind "integer"), ("my_x", .kind "boolean"),
      ("usr_my_x", .kind "integer")]) = .ok m.toTableModel ∧
    build m (numbered ["usr_id", "usr_my_x", "my_x"]) = .ok t ∧
    m.rules.toList = [("id", ⟨.integer, {}⟩), ("my_x", ⟨.boolean, {}⟩), ("usr_my_x", ⟨.integer, {}⟩)] ∧
    ∀ name rule, m.rules.get? name = some rule → Enforced t name rule := by
  obtain ⟨m, t, configured, built, prefixes, given, -⟩ := exists_build_ruled
    [("id", .kind "integer"), ("my_x", .kind "boolean"), ("usr_my_x", .kind "integer")]
    ["usr_id", "usr_my_x", "my_x"]
    [("id", ⟨.integer, {}⟩), ("my_x", ⟨.boolean, {}⟩), ("usr_my_x", ⟨.integer, {}⟩)]
    [some ⟨.integer, {}⟩, some ⟨.integer, {}⟩, some ⟨.boolean, {}⟩] (by decide +kernel)
  refine ⟨m, t, configured, built, given, (rules_enforced_iff built).mpr ?_⟩
  have found (name : String) : m.rules.get? name = m.rules.toList.lookup name := rfl
  intro c column own rule full stripped
  rw [found, given] at full stripped
  simp only [numbered, List.map_cons, List.map_nil, List.mem_cons, List.not_mem_nil, or_false] at column
  obtain rfl | rfl | rfl := column
  · cases full
  · refine .inr ⟨{ name := "my_x", type := "int" }, by simp [numbered], ?_⟩
    rw [TableModel.stripPrefix, prefixes]
    decide
  · rw [TableModel.stripPrefix, prefixes] at stripped
    cases stripped

open scoped Pattern in
/-- A column has a pattern for a rule under its full name, which hides the rule for addresses that it has under its
name without the prefix: no field has that rule. -/
theorem not_rules_enforced : ∃ m t,
    TableModel.build "user" (ruled [("email", .kind "email"),
      ("usr_email", .detailed { kind := some "regexp", pattern := some "^[a-z@.]+$" })]) = .ok m.toTableModel ∧
    build m (numbered ["usr_id", "usr_email"]) = .ok t ∧
    ∃ rule, m.rules.get? "email" = some rule ∧ ∀ f ∈ t.fields, f.rule ≠ some rule := by
  obtain ⟨m, t, configured, built, -, given, had⟩ := exists_build_ruled
    [("email", .kind "email"),
      ("usr_email", .detailed { kind := some "regexp", pattern := some "^[a-z@.]+$" })]
    ["usr_id", "usr_email"]
    [("email", ⟨.email, { hostname := true }⟩), ("usr_email", ⟨.regexp, { pattern := some "^[a-z@.]+$" }⟩)]
    [none, some ⟨.regexp, { pattern := some "^[a-z@.]+$" }⟩] (by decide +kernel)
  refine ⟨m, t, configured, built, ⟨.email, { hostname := true }⟩, ?_, ?_⟩
  · rw [KeyMap.get?_eq_some_iff, given]
    exact List.mem_cons_self ..
  · intro f member has
    have held := List.mem_map_of_mem (f := (·.rule)) member
    rw [had, has] at held
    exact absurd held (by decide)

end CodeTable

end TableMapper
