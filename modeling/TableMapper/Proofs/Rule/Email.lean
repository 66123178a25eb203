import TableMapper.Pattern.Native
import TableMapper.Proofs.Outcome
import TableMapper.Proofs.Pattern.Matching
import TableMapper.Proofs.Rule.Domain
import TableMapper.Proofs.Text.Words
import TableMapper.Rule.Check

/-! # Addresses that rules accept

An address is a local part and a hostname with an at sign between them. Neither side can have an at sign of its
own, so the one between them is the last of the text, where the rule cuts. Local parts are cut into atoms at their
dots, which comes to matching them with a pattern. Main statements: `check_email_eq_ok_iff`, `isLocalPart_eq_matchesIn`.
-/

namespace TableMapper.Rule

/-- Letters and digits of ASCII and some marks, one at least. -/
structure IsAtom (atom : String) : Prop where
  filled : atom ≠ ""
  plain : ∀ c ∈ atom.toList, c.isAlphanum = true ∨ c ∈ "!#$%&'*+/=?^_\x60\x7b|\x7d~-".toList

/-- Atoms with single dots between them, of 64 bytes at most. -/
def IsLocal (s : String) : Prop :=
  ∃ atoms : List String, atoms ≠ [] ∧ (∀ atom ∈ atoms, IsAtom atom) ∧ s = ".".intercalate atoms ∧
    Text.byteLength s ≤ 64

/-- A local part and a hostname with an at sign between them. -/
def IsAddress (s : String) : Prop :=
  ∃ front host, IsLocal front ∧ IsDomain true host ∧ s = front ++ "@" ++ host

/-! ## Local parts -/

theorem isAtom_iff {atom : String} :
    IsAtom atom ↔ (!atom.toList.isEmpty && atom.toList.all isAtomChar) = true := by
  have characters : atom.toList.all isAtomChar = true ↔
      ∀ c ∈ atom.toList, c.isAlphanum = true ∨ c ∈ atomMarks := by
    simp [List.all_eq_true, isAtomChar]
  rw [Bool.and_eq_true, characters, Bool.not_eq_true', List.isEmpty_eq_false_iff, ne_eq, String.toList_eq_nil_iff]
  exact ⟨fun h => ⟨h.filled, h.plain⟩, fun h => ⟨h.1, h.2⟩⟩

theorem IsAtom.not_mem {atom : String} (h : IsAtom atom) {c : Char} (sign : c = '.' ∨ c = '@') :
    c ∉ atom.toList := by
  intro member
  have plain := h.plain c member
  obtain rfl | rfl := sign <;> exact absurd plain (by decide)

theorem isLocalPart_iff {s : String} :
    isLocalPart s.toList = true ↔
      ∃ atoms : List String, atoms ≠ [] ∧ (∀ atom ∈ atoms, IsAtom atom) ∧ s = ".".intercalate atoms := by
  have pieces : isLocalPart s.toList = true ↔ ∀ atom ∈ Text.splitChar '.' s, IsAtom atom := by
    simp [isLocalPart, Text.splitChar, isAtom_iff]
  rw [pieces]
  constructor
  · intro each
    exact ⟨Text.splitChar '.' s, by simp [Text.splitChar, List.splitOn_ne_nil], each,
      (Text.intercalate_splitChar s).symm⟩
  · rintro ⟨atoms, some, each, rfl⟩
    rwa [Text.splitChar_intercalate some fun atom member => (each atom member).not_mem (.inl rfl)]

/-- What stands before the at sign is looked at for its length and for its atoms. -/
theorem isLocal_iff {s : String} :
    IsLocal s ↔ ¬ (s.isEmpty = true ∨ maxLocalLength < Text.byteLength s) ∧ isLocalPart s.toList = true := by
  rw [isLocalPart_iff, not_or, Nat.not_lt]
  constructor
  · rintro ⟨atoms, some, each, whole, short⟩
    refine ⟨⟨?_, short⟩, atoms, some, each, whole⟩
    intro empty
    have none : isLocalPart s.toList = true := isLocalPart_iff.mpr ⟨atoms, some, each, whole⟩
    rw [String.isEmpty_iff.mp empty] at none
    exact absurd none (by decide)
  · rintro ⟨⟨-, short⟩, atoms, some, each, whole⟩
    exact ⟨atoms, some, each, whole, short⟩

/-! ## The pattern of local parts -/

/-- The characters of atoms as a set of ranges. -/
def atomSet : CharSet :=
  ([('A', 'Z'), ('a', 'z'), ('0', '9')] ++ atomMarks.map fun c => (c, c)).foldl
    (fun set (first, last) => .or set (.range first last)) .none

/-- An atom, and any number of atoms with dots in front, from one end of the text to the other. -/
def localPattern : Pattern :=
  let atom := .times (.char atomSet) 1 none
  .seq (.seq (.seq (.seq .empty (.place .textStart)) atom)
    (.times (.seq (.seq .empty (.char (.one '.'))) atom) 0 none)) (.place .textEnd)

/-- The pattern as it is written. -/
def localSource : String :=
  "^[A-Za-z0-9!#$%&'*+/=?^_\x60\x7b|\x7d~-]+(\\.[A-Za-z0-9!#$%&'*+/=?^_\x60\x7b|\x7d~-]+)*$"

theorem read?_localSource : Pattern.read? localSource = some localPattern := by decide +kernel

theorem holds_foldl_or (ranges : List (Char × Char)) (set : CharSet) (c : Char) :
    (ranges.foldl (fun set (first, last) => .or set (.range first last)) set).holds c =
      (set.holds c || ranges.any fun (first, last) => first ≤ c && c ≤ last) := by
  induction ranges generalizing set with
  | nil => simp
  | cons range ranges ih => rw [List.foldl_cons, ih, List.any_cons, ← Bool.or_assoc]; rfl

theorem holds_atomSet (c : Char) : atomSet.holds c = isAtomChar c := by
  have single (d : Char) : (d ≤ c && c ≤ d) = (c == d) := by
    rw [Bool.eq_iff_iff]
    simp only [Bool.and_eq_true, decide_eq_true_eq, beq_iff_eq]
    exact ⟨fun both => Char.le_antisymm both.2 both.1, fun same => same ▸ ⟨Char.le_refl c, Char.le_refl c⟩⟩
  have marks : (atomMarks.map fun d => (d, d)).any (fun (first, last) => first ≤ c && c ≤ last) =
      atomMarks.contains c := by
    simp only [List.any_map, Function.comp_def, single, List.contains_eq_any_beq]
  have plain : [('A', 'Z'), ('a', 'z'), ('0', '9')].any (fun (first, last) => first ≤ c && c ≤ last) =
      c.isAlphanum := by
    have upper : c.isUpper = (decide ('A' ≤ c) && decide (c ≤ 'Z')) := Bool.decide_and ..
    have parts : c.isAlphanum = (c.isUpper || c.isLower || c.isDigit) := rfl
    rw [parts, upper, Bool.or_assoc]
    exact congrArg _ (congrArg _ (Bool.or_false _))
  rw [atomSet, holds_foldl_or, List.any_append, marks, plain]
  rfl

/-- The pattern matches atoms with dots between them: each atom but the first is a round of the repetition. -/
theorem matchesIn_localPattern {s : String} : localPattern.matchesIn s = true ↔ isLocalPart s.toList = true := by
  have atom : Pattern.Spells (.times (.char atomSet) 1 none) fun cs => cs ≠ [] ∧ ∀ c ∈ cs, isAtomChar c = true :=
    (Pattern.Spells.chars atomSet 1 none).congr fun cs => by simp [Nat.one_le_iff_ne_zero, holds_atomSet]
  have dotted : Pattern.Spells (.seq (.seq .empty (.char (.one '.'))) (.times (.char atomSet) 1 none)) fun cs =>
      ∃ atom, cs = '.' :: atom ∧ atom ≠ [] ∧ ∀ c ∈ atom, isAtomChar c = true := by
    refine ((Pattern.Spells.empty.seq (.char (.one '.'))).seq atom).congr fun cs => ?_
    constructor
    · rintro ⟨_, atom, rfl, ⟨_, _, rfl, rfl, c, rfl, dot⟩, whole⟩
      have same : '.' ≤ c ∧ c ≤ '.' := by simpa [CharSet.one, CharSet.holds] using dot
      obtain rfl := Char.le_antisymm same.1 same.2
      exact ⟨atom, rfl, whole⟩
    · rintro ⟨atom, rfl, whole⟩
      exact ⟨['.'], atom, rfl, ⟨[], ['.'], rfl, rfl, '.', rfl, by decide⟩, whole⟩
  have split : isLocalPart s.toList = true ↔
      ∀ atom ∈ s.toList.splitOn '.', atom ≠ [] ∧ ∀ c ∈ atom, isAtomChar c = true := by
    simp [isLocalPart]
  rw [localPattern, Pattern.Spells.matchesIn_iff atom (dotted.times 0), split,
    Text.forall_mem_splitOn_iff fun atom whole dot => absurd (whole.2 '.' dot) (by decide)]
  simp only [Nat.zero_le, true_and]

/-- Cutting a text into atoms decides what the written pattern does. -/
theorem isLocalPart_eq_matchesIn {p : Pattern} (read : Pattern.read? localSource = some p) (s : String) :
    isLocalPart s.toList = p.matchesIn s := by
  rw [read?_localSource] at read
  cases read
  exact Bool.eq_iff_iff.mpr matchesIn_localPattern.symm

/-! ## The at sign -/

/-- Pieces without an at sign have none with dots between them. -/
theorem at_not_mem_intercalate {pieces : List String} (each : ∀ piece ∈ pieces, '@' ∉ piece.toList) :
    '@' ∉ (".".intercalate pieces).toList := by
  rw [String.toList_intercalate]
  intro member
  obtain same | ⟨_, piece', inside⟩ := Text.mem_of_mem_intercalate member
  · exact absurd same (by decide)
  · obtain ⟨piece, held, rfl⟩ := List.mem_map.mp piece'
    exact each piece held inside

theorem IsLocal.at_not_mem {s : String} (h : IsLocal s) : '@' ∉ s.toList := by
  obtain ⟨atoms, -, each, rfl, -⟩ := h
  exact at_not_mem_intercalate fun atom member => (each atom member).not_mem (.inr rfl)

theorem IsDomain.at_not_mem {s : String} (h : IsDomain true s) : '@' ∉ s.toList := by
  obtain ⟨labels, -, each, -, whole⟩ := h
  have bare : '@' ∉ (".".intercalate labels).toList := by
    refine at_not_mem_intercalate fun label member inside => ?_
    exact absurd ((each label member).plain rfl '@' inside) (by decide)
  obtain rfl | rfl := whole
  · exact bare
  · simpa using bare

/-- The at sign of an address is the last of the text. -/
theorem isAddress_iff {s : String} : IsAddress s ↔ ∃ before after, Text.splitLast '@' s.toList = some (before, after) ∧
    IsLocal (String.ofList before) ∧ IsDomain true (String.ofList after) := by
  simp only [Text.splitLast_eq_some_iff]
  constructor
  · rintro ⟨front, host, isLocal, domain, rfl⟩
    exact ⟨front.toList, host.toList, ⟨by simp, domain.at_not_mem⟩, by simpa using isLocal, by simpa using domain⟩
  · rintro ⟨before, after, ⟨whole, -⟩, isLocal, domain⟩
    refine ⟨_, _, isLocal, domain, ?_⟩
    rw [← String.toList_inj, whole]
    simp

theorem IsAddress.count_at {s : String} (h : IsAddress s) : s.toList.count '@' = 1 := by
  obtain ⟨front, host, isLocal, domain, rfl⟩ := h
  simp [List.count_eq_zero_of_not_mem isLocal.at_not_mem, List.count_eq_zero_of_not_mem domain.at_not_mem]

/-! ## The rule -/

/-- An e-mail rule accepts addresses, and makes text of them. -/
theorem checkEmail_eq_ok_iff {v w : Value} :
    checkEmail v = .ok w ↔ ∃ s, v.Carries s ∧ IsAddress s ∧ w = .text s := by
  simp only [← Value.text?_eq_some_iff, isAddress_iff, isLocal_iff, ← domainFault_eq_none_iff, String.toList_ofList]
  unfold checkEmail
  cases v.text? with
  | none => simp
  | some s =>
      cases cut : Text.splitLast '@' s.toList with
      | none => simp [cut]
      | some sides =>
          obtain ⟨before, after⟩ := sides
          simp only [cut, Option.some.injEq]
          split_ifs with length atoms
          · grind
          · grind
          · cases fault : domainFault (String.ofList after) true <;> grind

/-- Of the values that carry text an e-mail rule accepts those whose text is an address, and gives back that text.
It refuses all other values. An address has one at sign. -/
theorem check_email_eq_ok_iff [PatternEngine] (o : RuleOptions) (v w : Value) :
    (check .email o v = .ok w ↔ ∃ s, v.Carries s ∧ IsAddress s ∧ w = .text s) ∧
      ∀ s, IsAddress s → s.toList.count '@' = 1 := by
  constructor
  · rw [← checkEmail_eq_ok_iff]
    exact mapError_eq_ok_iff
  · intro s address
    exact address.count_at

open scoped Pattern in
/-- Bytes of an address with marks, hyphens and a dot at its end are accepted as its text. -/
theorem check_email_eq_ok_marks :
    let s := "o'neil+a.b~@db-1.example."
    check .email {} (.bytes s.toUTF8) = .ok (.text s) ∧ IsAddress s ∧ s.toList.count '@' = 1 := by
  intro s
  have accepted : check .email {} (.bytes s.toUTF8) = .ok (.text s) := by decide +kernel
  obtain ⟨acceptance, single⟩ := check_email_eq_ok_iff {} (.bytes s.toUTF8) (.text s)
  obtain ⟨_, -, address, same⟩ := acceptance.mp accepted
  cases same
  exact ⟨accepted, address, single s address⟩

end TableMapper.Rule
