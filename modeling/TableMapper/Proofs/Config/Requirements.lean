import TableMapper.Proofs.Config.Filtering
import TableMapper.Proofs.Text.Blanks

/-! # Requirements on configurations

What a configuration has to have is a list of requirements, each at the key where it is asked for. A configuration is
built when all of them hold, and otherwise refused at the key of the first that does not. Nothing is asked of a rule
that is given by its kind alone but that the kind is known, so a rule of patterns may come without a pattern. Main
statement: `build_accepts_iff`.
-/

namespace TableMapper

/-- What is asked of a configuration at one of its keys. -/
structure Requirement where
  key : String
  holds : Prop

/-! ## Requirements of a configuration -/

/-- Something is written that is not blank. -/
def Written (value : Option String) : Prop := ∃ s ∈ value, ∃ c ∈ s.toList, Text.isBlank c = false

/-- A letter or underscore of ASCII with letters, digits and underscores behind it. -/
def IsTypeName (name : String) : Prop :=
  ∃ c cs, name.toList = c :: cs ∧ (c.isAlpha = true ∨ c = '_') ∧ ∀ d ∈ cs, d.isAlphanum = true ∨ d = '_'

/-- What is written, if anything is, can be read. -/
def Known {α : Type} (read : String → Option α) (value : Option String) : Prop :=
  ∀ name ∈ value, ∃ a, read name = some a

/-- What is asked of the rule for a field: a known kind, and of a rule with options a known preset and a pattern that
the engine takes, which rules of patterns need. -/
def RuleEntry.requirements [PatternEngine] (field : String) : RuleEntry → List Requirement
  | .kind name => [⟨"validation." ++ field, Known RuleKind.ofName? (some name)⟩]
  | .detailed spec =>
      [⟨"validation." ++ field ++ "." ++ "type", spec.kind ≠ none ∧ Known RuleKind.ofName? spec.kind⟩,
        ⟨"validation." ++ field ++ "." ++ "preset", Known Preset.ofName? spec.preset⟩,
        ⟨"validation." ++ field ++ "." ++ "pattern", Known PatternEngine.compile? spec.pattern⟩,
        ⟨"validation." ++ field ++ "." ++ "pattern",
          (∃ name ∈ spec.kind, RuleKind.ofName? name = some .regexp) → spec.pattern ≠ none⟩]

/-- What is asked of the join of a label. -/
def JoinEntry.requirements (label : String) (entry : JoinEntry) : List Requirement :=
  [⟨"joins." ++ label ++ "." ++ "config", Written entry.config⟩,
    ⟨"joins." ++ label ++ "." ++ "local_field", Written entry.localField⟩,
    ⟨"joins." ++ label ++ "." ++ "remote_field", Written entry.remoteField⟩,
    ⟨"joins." ++ label ++ "." ++ "relation", Known Relation.ofName? entry.relation⟩,
    ⟨"joins." ++ label ++ "." ++ "type", Known JoinType.ofName? entry.type⟩]

/-- What is asked of a configuration, in the order in which it is looked at. -/
def ConfigEntry.requirements [PatternEngine] (entry : ConfigEntry) : List Requirement :=
  [⟨"comment.author", Written entry.author⟩, ⟨"comment.copyright", Written entry.copyright⟩,
    ⟨"class.classname", Written entry.className⟩, ⟨"database.table", Written entry.table⟩,
    ⟨"cache.prefix", Written entry.cachePrefix⟩, ⟨"namespace.entity", Written entry.namespaces.entity⟩,
    ⟨"namespace.mapper", Written entry.namespaces.mapper⟩, ⟨"path.entity", Written entry.paths.entity⟩,
    ⟨"path.mapper", Written entry.paths.mapper⟩,
    ⟨"path.repository", Written entry.namespaces.repository → Written entry.paths.repository⟩,
    ⟨"namespace.repository", Written entry.paths.repository → Written entry.namespaces.repository⟩] ++
  entry.rules.toList.flatMap (fun (field, rule) => rule.requirements field) ++
  entry.joins.toList.flatMap (fun (label, join) => join.requirements label) ++
  [⟨"class.classname", ∀ s ∈ entry.className, IsTypeName (Text.trim s)⟩]

/-- What is not asked of a rule that is given by its kind alone: that it is none of patterns, for which there would
have to be a pattern. -/
def RuleEntry.barePattern (field : String) : RuleEntry → List Requirement
  | .kind name => [⟨"validation." ++ field ++ "." ++ "pattern", RuleKind.ofName? name ≠ some .regexp⟩]
  | .detailed _ => []

def ConfigEntry.barePatterns (entry : ConfigEntry) : List Requirement :=
  entry.rules.toList.flatMap fun (field, rule) => rule.barePattern field

/-! ## Checks in a row -/

/-- A step looks at requirements in order. It succeeds if all hold, and fails at the key of the first that does not. -/
inductive Checks {α : Type} (config : String) : List Requirement → Except ConfigFault α → Prop
  | kept {requirements : List Requirement} {a : α} (all : ∀ r ∈ requirements, r.holds) :
      Checks config requirements (.ok a)
  | broken (before : List Requirement) {r : Requirement} {behind : List Requirement} {reason : ConfigReason}
      (all : ∀ b ∈ before, b.holds) (fails : ¬ r.holds) :
      Checks config (before ++ r :: behind) (.error ⟨config, r.key, reason⟩)

namespace Checks

variable {α β : Type} {config key : String} {r : Requirement} {requirements others : List Requirement}
  {x : Except ConfigFault α} {next : α → Except ConfigFault β}

theorem bind (first : Checks config requirements x) (rest : ∀ a, x = .ok a → Checks config others (next a)) :
    Checks config (requirements ++ others) (x >>= next) := by
  cases first with
  | broken before all fails =>
      rw [List.append_assoc, List.cons_append]
      exact .broken before all fails
  | @kept _ a all =>
      -- the next step goes on with what the first has read, and may break one of its own
      change Checks config _ (next a)
      have after := rest a rfl
      generalize next a = y at after ⊢
      cases after with
      | kept more => exact .kept (List.forall_mem_append.mpr ⟨all, more⟩)
      | broken before more fails =>
          rw [← List.append_assoc]
          exact .broken (requirements ++ before) (List.forall_mem_append.mpr ⟨all, more⟩) fails

/-- One requirement, and what depends on what was read at its key. -/
theorem cons (first : Checks config [r] x) (rest : ∀ a, x = .ok a → Checks config others (next a)) :
    Checks config (r :: others) (x >>= next) :=
  first.bind rest

theorem result {made : α → β} (h : Checks config requirements x) :
    Checks config requirements (x >>= fun a => .ok (made a)) := by
  rw [← List.append_nil requirements]
  exact h.bind fun a _ => .kept (by simp)

theorem exists_ok_iff (h : Checks config requirements x) : (∃ a, x = .ok a) ↔ ∀ r ∈ requirements, r.holds := by
  cases h with
  | kept all => exact iff_of_true ⟨_, rfl⟩ all
  | @broken before r behind _ _ fails =>
      refine iff_of_false (by simp) fun all => fails (all r ?_)
      exact List.mem_append_right before (List.mem_cons_self ..)

theorem exists_broken {fault : ConfigFault} (h : Checks config requirements x) (failed : x = .error fault) :
    fault.config = config ∧ ∃ before r behind, requirements = before ++ r :: behind ∧ (∀ b ∈ before, b.holds) ∧
      ¬ r.holds ∧ fault.key = r.key := by
  cases h with
  | kept => cases failed
  | broken before all fails =>
      cases failed
      exact ⟨rfl, before, _, _, rfl, all, fails, rfl⟩

/-- What need not be written is looked at only where it is. -/
theorem known {read : String → Option β} (step : Option String → Except ConfigFault α) (absent : ∃ a, step none = .ok a)
    (found : ∀ name b, read name = some b → ∃ a, step (some name) = .ok a)
    (lost : ∀ name, read name = none → ∃ reason, step (some name) = .error ⟨config, key, reason⟩)
    (value : Option String) : Checks config [⟨key, Known read value⟩] (step value) := by
  cases value with
  | none =>
      obtain ⟨a, same⟩ := absent
      rw [same]
      exact .kept (by simp [Known])
  | some name =>
      cases outcome : read name with
      | none =>
          obtain ⟨reason, same⟩ := lost name outcome
          rw [same]
          exact .broken [] (by simp) (by simp [Known, outcome])
      | some b =>
          obtain ⟨a, same⟩ := found name b outcome
          rw [same]
          exact .kept (by simp [Known, outcome])

end Checks

/-! ## One step each -/

variable {config : String}

theorem exists_written?_iff {value : Option String} : (∃ s, written? value = some s) ↔ Written value := by
  cases value with
  | none => simp [written?, Written]
  | some s =>
      have blank := Text.trim_eq_empty_iff (s := s)
      simp [written?, Written, Option.filter_some, blank]

theorem checks_required (key : String) (value : Option String) :
    Checks config [⟨key, Written value⟩] (required config key value) := by
  unfold required
  split
  · next s written => exact .kept (by simpa using exists_written?_iff.mp ⟨s, written⟩)
  · next none => exact .broken [] (by simp) fun written => by simp [exists_written?_iff.symm, none] at written

theorem compile_eq_ok_of_compile? [PatternEngine] {source : String} {found : String → Bool}
    (taken : PatternEngine.compile? source = some found) : PatternEngine.compile source = .ok found := by
  unfold PatternEngine.compile? at taken
  cases compiled : PatternEngine.compile source with
  | error complaint => simp [compiled, Except.toOption] at taken
  | ok f => simpa [compiled, Except.toOption] using taken

theorem exists_compile_eq_error_of_compile? [PatternEngine] {source : String}
    (lost : PatternEngine.compile? source = none) : ∃ complaint, PatternEngine.compile source = .error complaint := by
  unfold PatternEngine.compile? at lost
  cases compiled : PatternEngine.compile source with
  | error complaint => exact ⟨complaint, rfl⟩
  | ok f => simp [compiled, Except.toOption] at lost

namespace FieldRule

theorem checks_preset (key : String) (value : Option String) :
    Checks config [⟨key, Known Preset.ofName? value⟩] (preset config key value) := by
  refine .known (preset config key) ⟨_, rfl⟩ (fun name p found => ⟨some p, ?_⟩)
    (fun name lost => ⟨.unknownPreset name, ?_⟩) value
  · rw [preset, found]
  · rw [preset, lost]

theorem checks_pattern [PatternEngine] (key : String) (value : Option String) :
    Checks config [⟨key, Known PatternEngine.compile? value⟩] (pattern config key value) := by
  refine .known (pattern config key) ⟨_, rfl⟩ (fun text found taken => ⟨some text, ?_⟩) (fun text lost => ?_) value
  · rw [pattern, compile_eq_ok_of_compile? taken]
  · obtain ⟨complaint, refused⟩ := exists_compile_eq_error_of_compile? lost
    exact ⟨.badPattern complaint, by rw [pattern, refused]⟩

theorem preset_eq {key : String} {value : Option String} {read : Option Preset}
    (h : preset config key value = .ok read) : read = value.bind Preset.ofName? := by
  unfold preset at h
  split at h
  · cases h
    rfl
  · split at h <;> cases h
    next found => exact found.symm

theorem pattern_eq [PatternEngine] {key : String} {value read : Option String} (h : pattern config key value = .ok read) :
    read = value := by
  unfold pattern at h
  split at h
  · cases h
    rfl
  · split at h <;> cases h
    rfl

theorem checks_ofSpec [PatternEngine] (field : String) (spec : RuleSpec) :
    Checks config ((RuleEntry.detailed spec).requirements field) (ofSpec config field spec) := by
  rw [ofSpec, RuleEntry.requirements]
  cases written : spec.kind with
  | none => exact .broken [] (by simp) (by simp)
  | some name =>
      dsimp only
      cases kinds : RuleKind.ofName? name with
      | none => exact .broken [] (by simp) (by simp [Known, kinds])
      | some kind =>
          refine .cons (.kept (by simp [Known, kinds])) fun _ same => ?_
          cases same
          refine .cons (checks_preset ..) fun preset _ => ?_
          refine .cons (checks_pattern ..) fun pattern read => ?_
          have same := pattern_eq read
          split
          · next bare => exact .broken [] (by simp) (by simp [kinds, bare, ← same])
          · next other => exact .kept (by simpa [kinds, ← same] using other)

theorem checks_build [PatternEngine] (field : String) (entry : RuleEntry) :
    Checks config (entry.requirements field) (build config field entry) := by
  cases entry with
  | kind name =>
      rw [build, RuleEntry.requirements]
      cases kinds : RuleKind.ofName? name with
      | none => exact .broken [] (by simp) (by simp [Known, kinds])
      | some kind => exact .kept (by simp [Known, kinds])
  | detailed spec => exact checks_ofSpec field spec

end FieldRule

namespace DeclaredJoin

theorem checks_relationOf (key : String) (value : Option String) :
    Checks config [⟨key, Known Relation.ofName? value⟩] (relationOf config key value) := by
  refine .known (relationOf config key) ⟨_, rfl⟩ (fun name r found => ⟨r, ?_⟩)
    (fun name lost => ⟨.unknownRelation (Relation.plain name), ?_⟩) value
  · rw [relationOf, found]
  · rw [relationOf, lost]

theorem checks_typeOf (key : String) (value : Option String) :
    Checks config [⟨key, Known JoinType.ofName? value⟩] (typeOf config key value) := by
  refine .known (typeOf config key) ⟨_, rfl⟩ (fun name t found => ⟨t, ?_⟩)
    (fun name lost => ⟨.unknownJoinType name, ?_⟩) value
  · rw [typeOf, found]
  · rw [typeOf, lost]

theorem checks_build (table label : String) (entry : JoinEntry) :
    Checks config (entry.requirements label) (build config table label entry) := by
  refine .cons (checks_required ..) fun target _ => ?_
  refine .cons (checks_required ..) fun localField _ => ?_
  refine .cons (checks_required ..) fun remoteField _ => ?_
  refine .cons (checks_relationOf ..) fun relation _ => ?_
  exact (checks_typeOf ..).result

end DeclaredJoin

namespace TableModel

theorem checks_repositoryPlace (module directory : Option String) :
    Checks config [⟨"path.repository", Written module → Written directory⟩,
      ⟨"namespace.repository", Written directory → Written module⟩] (repositoryPlace config module directory) := by
  simp only [← exists_written?_iff]
  unfold repositoryPlace
  cases written? module <;> cases written? directory
  · exact .kept (by simp)
  · exact .broken [_] (by simp) (by simp)
  · exact .broken [] (by simp) (by simp)
  · exact .kept (by simp)

theorem checks_buildRules [PatternEngine] (rules : List (String × RuleEntry)) :
    Checks config (rules.flatMap fun (field, rule) => rule.requirements field) (buildRules config rules) := by
  induction rules with
  | nil => exact .kept (by simp)
  | cons rule rules ih => exact (FieldRule.checks_build ..).bind fun first _ => ih.result

theorem checks_buildJoins (table : String) (joins : List (String × JoinEntry)) :
    Checks config (joins.flatMap fun (label, join) => join.requirements label) (buildJoins config table joins) := by
  induction joins with
  | nil => exact .kept (by simp)
  | cons join joins ih => exact (DeclaredJoin.checks_build ..).bind fun first _ => ih.result

theorem isTypeName_iff {name : String} : isTypeName name = true ↔ IsTypeName name := by
  unfold isTypeName IsTypeName
  cases chars : name.toList with
  | nil => simp
  | cons c cs => simp

theorem checks_build [PatternEngine] (name : String) (entry : ConfigEntry) : Checks name entry.requirements (build name entry) := by
  rw [ConfigEntry.requirements, List.append_assoc, List.append_assoc]
  refine .cons (checks_required ..) fun author _ => ?_
  refine .cons (checks_required ..) fun copyright _ => ?_
  refine .cons (checks_required ..) fun className named => ?_
  refine .cons (checks_required ..) fun table _ => ?_
  refine .cons (checks_required ..) fun cachePrefix _ => ?_
  refine .cons (checks_required ..) fun entityModule _ => ?_
  refine .cons (checks_required ..) fun mapperModule _ => ?_
  refine .cons (checks_required ..) fun entityPath _ => ?_
  refine .cons (checks_required ..) fun mapperPath _ => ?_
  refine (checks_repositoryPlace ..).bind fun repository _ => ?_
  refine (checks_buildRules ..).bind fun rules _ => ?_
  refine (checks_buildJoins ..).bind fun joins _ => ?_
  obtain ⟨s, written, rfl⟩ := of_required named
  dsimp only
  split
  · next other => exact .broken [] (by simp) (by simpa [written, ← isTypeName_iff] using other)
  · next typed => exact .kept (by simpa [written, isTypeName_iff] using typed)

/-- A configuration is built if and only if all its requirements hold. Otherwise it is refused under its own name, at
the key of the first requirement that does not hold. To ask every rule of patterns for a pattern as well would be right
only where no such rule is given by its kind alone, or where something else is missing. -/
theorem build_accepts_iff [PatternEngine] (name : String) (entry : ConfigEntry) :
    ((∃ m, build name entry = .ok m) ↔ ∀ r ∈ entry.requirements, r.holds) ∧
      (∀ fault, build name entry = .error fault → fault.config = name ∧
        ∃ before r behind, entry.requirements = before ++ r :: behind ∧ (∀ b ∈ before, b.holds) ∧ ¬ r.holds ∧
          fault.key = r.key) ∧
      (((∃ m, build name entry = .ok m) ↔ ∀ r ∈ entry.requirements ++ entry.barePatterns, r.holds) ↔
        ((∀ r ∈ entry.requirements, r.holds) → ∀ r ∈ entry.barePatterns, r.holds)) := by
  have checks := checks_build name entry
  refine ⟨checks.exists_ok_iff, fun fault => checks.exists_broken, ?_⟩
  rw [checks.exists_ok_iff, List.forall_mem_append]
  constructor
  · intro same all
    exact (same.mp all).2
  · intro patterns
    exact ⟨fun all => ⟨all, patterns all⟩, And.left⟩

open scoped Pattern in
/-- Of two faults the one that is looked at first is reported: a join without a target, and not the class name that
starts with a digit. -/
theorem build_refuses_first_fault :
    let entry : ConfigEntry := { Resolution.sample [("home", " ")] with className := some "2nd" }
    build "user" entry = .error ⟨"user", "joins.home.config", .required⟩ ∧
      ∃ before r behind, entry.requirements = before ++ r :: behind ∧ (∀ b ∈ before, b.holds) ∧ ¬ r.holds ∧
        r.key = "joins.home.config" := by
  intro entry
  have refused : build "user" entry = .error ⟨"user", "joins.home.config", .required⟩ := rfl
  obtain ⟨-, before, r, behind, split, all, fails, same⟩ := (build_accepts_iff "user" entry).2.1 _ refused
  exact ⟨refused, before, r, behind, split, all, fails, same.symm⟩

/-- A configuration with a rule of patterns that is given by its kind alone. -/
def bareCode : ConfigEntry := { Resolution.sample [] with rules := .ofList [("code", .kind "regexp")] }

open scoped Pattern in
/-- The configuration is built although the rule has no pattern. -/
theorem exists_build_bareCode :
    (∃ m, build "user" bareCode = .ok m) ∧
      ∃ r ∈ bareCode.barePatterns, r.key = "validation.code.pattern" ∧ ¬ r.holds := by
  constructor
  · have built : (build "user" bareCode).toOption.isSome = true := by decide +kernel
    cases made : build "user" bareCode with
    | error fault => simp [made, Except.toOption] at built
    | ok m => exact ⟨m, rfl⟩
  · have regexp : RuleKind.ofName? "regexp" = some .regexp := by decide +kernel
    exact ⟨_, List.mem_cons_self .., rfl, fun other => other regexp⟩

end TableModel

end TableMapper
