import Mathlib.Tactic.SplitIfs
import TableMapper.Proofs.Text.Cutting
import TableMapper.Rule.Domain

/-! # Domains that rules accept

A domain is labels with single dots between them, and at most one dot behind the last. In a hostname labels are of
ASCII letters, digits and hyphens, without a hyphen at either end. Main statement: `domainFault_eq_none_iff`.
-/

namespace TableMapper

/-! ## Values that carry text -/

/-- A value carries a text as it is, or as its bytes. -/
inductive Value.Carries : Value → String → Prop
  | text (s : String) : Carries (.text s) s
  | bytes (s : String) : Carries (.bytes s.toUTF8) s

theorem Value.text?_eq_some_iff {v : Value} {s : String} : v.text? = some s ↔ v.Carries s := by
  constructor
  · intro read
    cases v with
    | text s' =>
        cases read
        exact .text s
    | bytes b =>
        obtain rfl := text?_bytes_eq_some_iff.mp read
        exact .bytes s
    | _ => cases read
  · rintro (_ | _)
    · rfl
    · exact text?_bytes_eq_some_iff.mpr rfl

namespace Rule

/-! ## Domains -/

/-- A label of a domain or, under the stricter rule, of a hostname. -/
structure IsLabel (hostname : Bool) (label : String) : Prop where
  filled : label ≠ ""
  short : Text.byteLength label ≤ 63
  whole : '.' ∉ label.toList
  plain : hostname = true → ∀ c ∈ label.toList, c.isAlphanum = true ∨ c = '-'
  start : hostname = true → label.toList.head? ≠ some '-'
  ending : hostname = true → label.toList.getLast? ≠ some '-'

/-- A text is labels with dots between them, of 253 bytes at most, and perhaps a dot behind the last. -/
def IsDomain (hostname : Bool) (s : String) : Prop :=
  ∃ labels : List String, labels ≠ [] ∧ (∀ label ∈ labels, IsLabel hostname label) ∧
    Text.byteLength (".".intercalate labels) ≤ 253 ∧
    (s = ".".intercalate labels ∨ s = ".".intercalate labels ++ ".")

variable {hostname : Bool} {domain : String}

theorem isLabel_iff {label : String} :
    IsLabel hostname label ↔ '.' ∉ label.toList ∧ labelFault domain hostname label = none := by
  have characters : label.toList.all isHostChar = true ↔ ∀ c ∈ label.toList, c.isAlphanum = true ∨ c = '-' := by
    simp [List.all_eq_true, isHostChar]
  unfold labelFault
  constructor
  · intro h
    have short : ¬ maxLabelLength < Text.byteLength label := Nat.not_lt.mpr h.short
    refine ⟨h.whole, ?_⟩
    rw [if_neg (by simpa using h.filled), if_neg short, if_neg, if_neg]
    · rintro ⟨host, start | ending⟩
      · exact h.start host start
      · exact h.ending host ending
    · rintro ⟨host, odd⟩
      exact Bool.false_ne_true (odd.symm.trans (characters.mpr (h.plain host)))
  · rintro ⟨whole, faultless⟩
    split_ifs at faultless with empty long odd hyphen
    rw [not_and] at odd hyphen
    simp only [Bool.not_eq_false, not_or] at odd hyphen
    exact ⟨by simpa using empty, Nat.not_lt.mp long, whole, fun host => characters.mp (odd host),
      fun host => (hyphen host).1, fun host => (hyphen host).2⟩

theorem intercalate_ne_empty {labels : List String} (some : labels ≠ [])
    (each : ∀ label ∈ labels, IsLabel hostname label) : ".".intercalate labels ≠ "" := by
  intro empty
  have pieces := Text.splitChar_intercalate some fun label member => (each label member).whole
  rw [empty] at pieces
  exact (each "" (pieces ▸ List.mem_singleton_self "")).filled rfl

/-- The last of the labels is not empty, so they do not end in a dot. -/
theorem dropSuffix?_intercalate {labels : List String} (some : labels ≠ [])
    (each : ∀ label ∈ labels, IsLabel hostname label) :
    Text.dropSuffix? "." (".".intercalate labels) = none := by
  rw [Option.eq_none_iff_forall_ne_some]
  intro rest dropped
  have pieces := Text.splitChar_intercalate some fun label member => (each label member).whole
  rw [Text.dropSuffix?_eq_some_iff.mp dropped, Text.splitChar_append_dot] at pieces
  exact (each "" (pieces ▸ List.mem_append_right _ (List.mem_singleton_self ""))).filled rfl

/-- What stands before the last dot is faultless when it is labels with dots between them. -/
theorem bare_faultless_iff {bare : String} :
    (¬ bare.isEmpty = true ∧ ¬ maxDomainLength < Text.byteLength bare ∧
      (Text.splitChar '.' bare).findSome? (labelFault domain hostname) = none) ↔
    ∃ labels : List String, labels ≠ [] ∧ (∀ label ∈ labels, IsLabel hostname label) ∧
      Text.byteLength bare ≤ 253 ∧ bare = ".".intercalate labels := by
  rw [List.findSome?_eq_none_iff]
  constructor
  · rintro ⟨filled, short, each⟩
    exact ⟨Text.splitChar '.' bare, by simp [Text.splitChar, List.splitOn_ne_nil],
      fun label member => isLabel_iff.mpr ⟨Text.not_mem_of_mem_splitChar member, each label member⟩,
      Nat.not_lt.mp short, (Text.intercalate_splitChar bare).symm⟩
  · rintro ⟨labels, some, each, short, rfl⟩
    refine ⟨by simpa using intercalate_ne_empty some each, Nat.not_lt.mpr short, ?_⟩
    rw [Text.splitChar_intercalate some fun label member => (each label member).whole]
    exact fun label member => (isLabel_iff.mp (each label member)).2

/-- A domain is found faultless exactly when it is labels with dots between them. -/
theorem domainFault_eq_none_iff : domainFault domain hostname = none ↔ IsDomain hostname domain := by
  have stages (bare : String) : (if bare.isEmpty then some .emptyDomain
      else if maxDomainLength < Text.byteLength bare then some .longDomain
      else (Text.splitChar '.' bare).findSome? (labelFault domain hostname)) = none ↔
      (¬ bare.isEmpty = true ∧ ¬ maxDomainLength < Text.byteLength bare ∧
        (Text.splitChar '.' bare).findSome? (labelFault domain hostname) = none) := by
    split_ifs <;> simp [*]
  rw [domainFault, stages, bare_faultless_iff]
  constructor
  · rintro ⟨labels, some, each, short, bare⟩
    refine ⟨labels, some, each, bare ▸ short, ?_⟩
    cases dropped : Text.dropSuffix? "." domain with
    | none => exact .inl (by rw [← bare, dropped, Option.getD_none])
    | some rest => exact .inr (by rw [← bare, dropped, Option.getD_some, Text.dropSuffix?_eq_some_iff.mp dropped])
  · rintro ⟨labels, some, each, short, rfl | rfl⟩
    · rw [dropSuffix?_intercalate some each, Option.getD_none]
      exact ⟨labels, some, each, short, rfl⟩
    · rw [Text.dropSuffix?_eq_some_iff.mpr rfl, Option.getD_some]
      exact ⟨labels, some, each, short, rfl⟩

/-- A domain rule accepts domains, and makes text of them. -/
theorem checkDomain_eq_ok_iff {o : RuleOptions} {v w : Value} :
    checkDomain o v = .ok w ↔ ∃ s, v.Carries s ∧ IsDomain o.hostname s ∧ w = .text s := by
  simp only [← Value.text?_eq_some_iff, ← domainFault_eq_none_iff]
  unfold checkDomain
  cases v.text? with
  | none => simp
  | some s => cases fault : domainFault s o.hostname <;> simp [fault, eq_comm]

theorem isDomain_of_checkDomain {o : RuleOptions} {s : String} {w : Value}
    (accepted : checkDomain o (.text s) = .ok w) : IsDomain o.hostname s := by
  obtain ⟨_, ⟨⟩, domain, -⟩ := checkDomain_eq_ok_iff.mp accepted
  exact domain

end Rule

end TableMapper
