import TableMapper.Proofs.Rule.Accepted
import TableMapper.Proofs.Rule.Email
import TableMapper.Proofs.Rule.Integer

/-! # Settled values

A rule gives the values that it accepts a form of its own: truth values, integers within the bounds, text that is a
domain or an address, or what it was given if that matches. A value in this form is accepted by the same rule and
stays as it is, so checking twice is checking once. Main statement: `validate_validated`.
-/

namespace TableMapper.Rule

section Checked

variable [PatternEngine] {kind : RuleKind} {o : RuleOptions} {v w : Value}

/-- What a pattern rule asks of a value: to have text in which the pattern occurs. -/
inductive Matches (o : RuleOptions) (v : Value) : Prop
  | intro {source s : String} (own : o.pattern = some source) (text : matchText? v = some s)
      (found : Finds source s)

/-- A value is in the form that a rule gives to what it accepts. -/
inductive Settled : RuleKind → RuleOptions → Value → Prop
  | null {kind : RuleKind} {o : RuleOptions} (allowed : o.allowNull = true) : Settled kind o .null
  | boolean {o : RuleOptions} (b : Bool) : Settled .boolean o (.bool b)
  | integer {o : RuleOptions} {n : Integer} (within : Within o n.val) : Settled .integer o (.integer n)
  | domain {o : RuleOptions} {s : String} (domain : IsDomain o.hostname s) : Settled .domain o (.text s)
  | email {o : RuleOptions} {s : String} (address : IsAddress s) : Settled .email o (.text s)
  | regexp {o : RuleOptions} {v : Value} (filled : v.isNull = false) (matched : Matches o v) : Settled .regexp o v

/-! ## One rule each -/

omit [PatternEngine] in
theorem exists_bool_of_checkBoolean (accepted : checkBoolean v = .ok w) : ∃ b, w = .bool b := by
  cases gives_of_checkBoolean accepted with
  | null => exact absurd accepted (by decide)
  | bool b => exact ⟨b, rfl⟩
  | digit => exact ⟨_, rfl⟩
  | word b => exact ⟨b, rfl⟩

/-- A pattern rule gives back what it accepts. -/
theorem checkRegexp_eq_ok_iff : checkRegexp o v = .ok w ↔ Matches o v ∧ w = v := by
  constructor
  · intro accepted
    unfold checkRegexp at accepted
    split at accepted
    · cases accepted
    · next own =>
      split at accepted
      · cases accepted
      · next compiled =>
        split at accepted
        · cases accepted
        · next text =>
          split_ifs at accepted with found
          cases accepted
          exact ⟨.intro own text ⟨_, compiled, found⟩, rfl⟩
  · rintro ⟨⟨own, text, _, compiled, found⟩, rfl⟩
    simp only [checkRegexp, own, compiled, text, if_pos found]

/-! ## Every rule -/

/-- What a rule accepts comes out in the form of that rule. -/
theorem settled_of_validate (accepted : validate kind o v = .ok w) : Settled kind o w := by
  cases none : v.isNull with
  | true =>
      rw [validate, if_pos none] at accepted
      split at accepted
      · next allowed =>
        cases accepted
        exact .null allowed
      · cases accepted
  | false =>
      have passed := ok_of_mapError (check_of_validate none accepted)
      cases kind with
      | boolean =>
          obtain ⟨b, rfl⟩ := exists_bool_of_checkBoolean passed
          exact .boolean b
      | integer =>
          obtain ⟨i, -, within, rfl⟩ := checkInteger_eq_ok_iff.mp passed
          exact .integer within
      | domain =>
          obtain ⟨s, -, domain, rfl⟩ := checkDomain_eq_ok_iff.mp passed
          exact .domain domain
      | email =>
          obtain ⟨s, -, address, rfl⟩ := checkEmail_eq_ok_iff.mp passed
          exact .email address
      | regexp =>
          obtain ⟨matched, rfl⟩ := checkRegexp_eq_ok_iff.mp passed
          exact .regexp none matched

/-- A rule leaves a value in its own form as it is. -/
theorem validate_of_settled (settled : Settled kind o v) : validate kind o v = .ok v := by
  cases settled with
  | null allowed => exact (if_pos rfl).trans (if_pos allowed)
  | boolean b => rfl
  | @integer _ n within => exact mapError_eq_ok_iff.mpr (checkInteger_eq_ok_iff.mpr ⟨n, rfl, within, rfl⟩)
  | @domain _ s domain => exact mapError_eq_ok_iff.mpr (checkDomain_eq_ok_iff.mpr ⟨s, .text s, domain, rfl⟩)
  | @email _ s address => exact mapError_eq_ok_iff.mpr (checkEmail_eq_ok_iff.mpr ⟨s, .text s, address, rfl⟩)
  | regexp filled matched =>
      rw [validate, filled, if_neg Bool.false_ne_true]
      exact mapError_eq_ok_iff.mpr (checkRegexp_eq_ok_iff.mpr ⟨matched, rfl⟩)

/-- A value that a rule has accepted passes the rule again and stays as it is. -/
theorem validate_validated (accepted : validate kind o v = .ok w) : validate kind o w = .ok w :=
  validate_of_settled (settled_of_validate accepted)

end Checked

open scoped Pattern in
/-- Bytes of a number with a sign and blanks come out as an integer of 64 bits without a sign, which stays. -/
theorem validate_validated_greatest :
    let o : RuleOptions := { least := some 0, preset := some .bigIntUnsigned }
    let w : Value := .integer ⟨.uint64, 18446744073709551615, by decide⟩
    validate .integer o (.bytes " +18446744073709551615\t".toUTF8) = .ok w ∧ validate .integer o w = .ok w := by
  intro o w
  have accepted : validate .integer o (.bytes " +18446744073709551615\t".toUTF8) = .ok w := by decide +kernel
  exact ⟨accepted, validate_validated accepted⟩

end TableMapper.Rule
