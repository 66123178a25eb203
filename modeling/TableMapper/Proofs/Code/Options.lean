import TableMapper.Config.Document
import TableMapper.Proofs.Code.Expressions
import TableMapper.Proofs.Code.Rules
import TableMapper.Proofs.Config.Requirements
import TableMapper.Proofs.Rule.Integer

/-! # Options in generated code

The options of a rule are written as an expression: a builder without options, and a call of one of its methods for
each option that is set. What such an expression evaluates to, call by call, are the options of the rule, whatever
its pattern holds. Main statement: `FieldRule.evaluate_options`.
-/

namespace TableMapper

namespace Code

/-! ## Evaluation -/

/-- The options that an expression builds, call by call from a builder without any. -/
def evaluate (s : String) : Option RuleOptions :=
  (lex s.toList).bind fun ls =>
    match ls with
    | .word "mapgen" :: .colons :: .word "ValidationOptions" :: .colons :: .word "new" ::
        .sign '(' :: .sign ')' :: calls => (readCalls calls).bind fun calls => calls.foldlM Call.run {}
    | _ => none

/-- The call that stands for one of generated code. -/
def OptionCall.call : OptionCall → Call
  | .least n => ⟨"min", .number n⟩
  | .greatest n => ⟨"max", .number n⟩
  | .preset p => ⟨"preset", .preset p⟩
  | .pattern s => ⟨"pattern", .text s⟩
  | .hostname => ⟨"hostname", .truth true⟩
  | .allowNull => ⟨"allow_null", .truth true⟩

theorem OptionCall.spelling_eq (c : OptionCall) : c.spelling = c.call.spelling := by
  refine String.toList_inj.mp ?_
  cases c with
  | least n =>
      show (".min(" ++ toString n ++ "i128)").toList = ("." ++ "min" ++ "(" ++ (toString n ++ "i128") ++ ")").toList
      simp
  | greatest n =>
      show (".max(" ++ toString n ++ "i128)").toList = ("." ++ "max" ++ "(" ++ (toString n ++ "i128") ++ ")").toList
      simp
  | preset p => cases p <;> rfl
  | pattern s =>
      show (".pattern(" ++ Text.Quoted.encode s ++ ")").toList =
        ("." ++ "pattern" ++ "(" ++ Text.Quoted.encode s ++ ")").toList
      simp
  | hostname => rfl
  | allowNull => rfl

theorem OptionCall.isWord_method (c : OptionCall) : isWord c.call.method = true := by
  cases c <;> simp only [call] <;> decide

theorem OptionCall.run_call (o : RuleOptions) (c : OptionCall) : c.call.run o = some (c.run o) := by
  cases c <;> rfl

theorem lex_calls (calls : List OptionCall) :
    lex (String.join (calls.map OptionCall.spelling)).toList = some ((calls.map (·.call)).flatMap Call.lexemes) := by
  induction calls with
  | nil => simp [lex, Reader.all]
  | cons c calls ih =>
      rw [List.map_cons, String.join_cons, String.toList_append, OptionCall.spelling_eq,
        Call.lex_spelling c.isWord_method, ih]
      rfl

theorem foldlM_calls (calls : List OptionCall) (o : RuleOptions) :
    (calls.map (·.call)).foldlM Call.run o = some (calls.foldl OptionCall.run o) := by
  induction calls generalizing o with
  | nil => rfl
  | cons c calls ih =>
      rw [List.map_cons, List.foldlM_cons, OptionCall.run_call]
      exact ih _

theorem lex_optionsExpression (o : RuleOptions) : lex (optionsExpression o).toList =
    some ([.word "mapgen", .colons, .word "ValidationOptions", .colons, .word "new", .sign '(', .sign ')'] ++
      ((optionCalls o).map (·.call)).flatMap Call.lexemes) := by
  have chars : (optionsExpression o).toList = "mapgen".toList ++ ':' :: ':' :: ("ValidationOptions".toList ++
      ':' :: ':' :: ("new".toList ++
        '(' :: ')' :: (String.join ((optionCalls o).map OptionCall.spelling)).toList)) := String.toList_append
  rw [chars, lex_word (by decide) (by decide), lex_colons, lex_word (by decide) (by decide), lex_colons,
    lex_word (by decide) (by decide), lex_sign (by decide), lex_sign (by decide), lex_calls]
  rfl

theorem fits_of_mem_optionCalls {o : RuleOptions}
    (fits : ∀ n, o.least = some n ∨ o.greatest = some n → Rule.fits128 n = true) {c : OptionCall}
    (member : c ∈ optionCalls o) : c.call.argument.Fits := by
  cases c with
  | least n => exact fits n (.inl (by simpa [optionCalls] using member))
  | greatest n => exact fits n (.inr (by simpa [optionCalls] using member))
  | preset | pattern | hostname | allowNull => trivial

/-- An expression of options evaluates to them, as long as their bounds are numbers of the type that it gives. -/
theorem evaluate_optionsExpression {o : RuleOptions}
    (fits : ∀ n, o.least = some n ∨ o.greatest = some n → Rule.fits128 n = true) :
    evaluate (optionsExpression o) = some o := by
  rw [evaluate, lex_optionsExpression, Option.bind_some]
  simp only [List.cons_append, List.nil_append]
  rw [readCalls_lexemes (List.forall_mem_map.mpr fun c => fits_of_mem_optionCalls fits), Option.bind_some, foldlM_calls,
    foldl_run_optionCalls]

end Code

/-! ## Rules of configurations -/

/-- A rule as written has bounds of 64 bits, if any. -/
def RuleEntry.Narrow : RuleEntry → Prop
  | .kind _ => True
  | .detailed spec => ∀ n, spec.least = some n ∨ spec.greatest = some n → IntKind.int64.Fits n

theorem exists_of_optional {α : Type} {read : Json → Option α} {members : List (String × Json)} {key : String}
    {a : α} (h : optional read members key = some (some a)) : ∃ value, read value = some a := by
  unfold optional at h
  split at h
  · cases h
  · cases h
  · next value _ _ =>
    obtain ⟨b, read, same⟩ := Option.map_eq_some_iff.mp h
    cases same
    exact ⟨value, read⟩

theorem Scalars.fits_of_int? {j : Json} {n : Int} (h : Scalars.int? .strict j = some n) : IntKind.int64.Fits n := by
  cases j with
  | number x =>
      cases x with
      | whole m =>
          obtain ⟨i, read, same⟩ := Option.map_eq_some_iff.mp h
          obtain ⟨fits, value⟩ := Rule.of_ofInt? read
          rw [← same, value]
          exact fits
      | real x => cases h
  | _ => cases h

/-- A document has no bounds but those of 64 bits. -/
theorem narrow_of_readRule {j : Json} {entry : RuleEntry} (read : ConfigEntry.readRule j = some entry) :
    entry.Narrow := by
  unfold ConfigEntry.readRule at read
  split at read
  · cases read
    trivial
  · simp only [Option.bind_eq_bind, Option.bind_eq_some_iff] at read
    obtain ⟨members, -, kind, -, least, lower, greatest, upper, preset, -, pattern, -, hostname, -, allowNull, -,
      same⟩ := read
    cases same
    rintro n (rfl | rfl)
    · exact Scalars.fits_of_int? (exists_of_optional lower).choose_spec
    · exact Scalars.fits_of_int? (exists_of_optional upper).choose_spec

namespace FieldRule

variable {config field : String} {entry : RuleEntry} {rule : FieldRule}

/-- The options of a rule are those that are written, and those of its kind where nothing is written. -/
theorem options_of_ofSpec [PatternEngine] {spec : RuleSpec} (built : ofSpec config field spec = .ok rule) :
    rule.options = ⟨spec.least, spec.greatest, spec.preset.bind Preset.ofName?, spec.pattern,
      spec.hostname.getD (rule.kind == .email), spec.allowNull.getD false⟩ := by
  rw [ofSpec] at built
  cases written : spec.kind with
  | none =>
      rw [written] at built
      cases built
  | some name =>
      rw [written] at built
      dsimp only at built
      cases kinds : RuleKind.ofName? name with
      | none =>
          rw [kinds] at built
          cases built
      | some kind =>
          rw [kinds] at built
          obtain ⟨_, same, built⟩ := exists_of_bind built
          cases same
          obtain ⟨preset, presets, built⟩ := exists_of_bind built
          obtain ⟨pattern, patterns, built⟩ := exists_of_bind built
          rw [preset_eq presets, pattern_eq patterns] at built
          split at built <;> cases built
          rfl

theorem fits_of_build [PatternEngine] (narrow : entry.Narrow) (built : build config field entry = .ok rule) {n : Int}
    (bound : rule.options.least = some n ∨ rule.options.greatest = some n) : IntKind.int64.Fits n := by
  cases entry with
  | kind name =>
      rw [build] at built
      split at built <;> cases built
      simp [defaultOptions] at bound
  | detailed spec =>
      rw [options_of_ofSpec built] at bound
      exact narrow n bound

/-- What the expression for a rule evaluates to are the options that the configuration states. -/
theorem evaluate_options [PatternEngine] (narrow : entry.Narrow) (built : build config field entry = .ok rule) :
    Code.evaluate (Code.optionsExpression rule.options) = some rule.options :=
  Code.evaluate_optionsExpression fun _ bound => Rule.fits128_of_fits (.inl (fits_of_build narrow built bound))

/-- A rule that says the contrary of its kind, with a pattern of which most characters cannot stand between quotes as
they are. -/
def mailDocument : Json :=
  .object [("type", .text "email"), ("min", .number (.whole (-9223372036854775808))), ("max", .number (.whole 7)),
    ("preset", .text "BIGINT unsigned"), ("pattern", .text "^[\"\\\t\u200bé]+$"), ("hostname", .bool false),
    ("allow_null", .bool true)]

def mailEntry : RuleEntry :=
  .detailed
    { kind := some "email", least := some (-9223372036854775808), greatest := some 7, preset := some "BIGINT unsigned",
      pattern := some "^[\"\\\t\u200bé]+$", hostname := some false, allowNull := some true }

def mailOptions : RuleOptions :=
  { least := some (-9223372036854775808), greatest := some 7, preset := some .bigIntUnsigned,
    pattern := some "^[\"\\\t\u200bé]+$", allowNull := true }

open scoped Pattern in
theorem evaluate_options_mail : ConfigEntry.readRule mailDocument = some mailEntry ∧ mailEntry.Narrow ∧
    build "user" "mail" mailEntry = .ok ⟨.email, mailOptions⟩ ∧
    Code.evaluate (Code.optionsExpression mailOptions) = some mailOptions := by
  have read : ConfigEntry.readRule mailDocument = some mailEntry := rfl
  have built : build "user" "mail" mailEntry = .ok ⟨.email, mailOptions⟩ := by decide +kernel
  have evaluated := evaluate_options (narrow_of_readRule read) built
  exact ⟨read, narrow_of_readRule read, built, evaluated⟩

end FieldRule

end TableMapper
