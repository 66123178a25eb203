import TableMapper.Pattern.Native
import TableMapper.Proofs.Entity.Setters
import TableMapper.Proofs.Pattern.Matching
import TableMapper.Proofs.Rule.Domain
import TableMapper.Proofs.Rule.Integer
import TableMapper.Shop

/-! # Setters of the shop

Users and samples have fields with rules of every kind. Whatever their setters are called with, and whether the
calls succeed or fail, these fields hold what their rules are there for. Main statement: `valid_callAll`.
-/

namespace TableMapper.Shop

open Rule (Finds)

/-! ## Codes -/

/-- Two capital letters of ASCII, and behind them decimal digits of any script, one at least. -/
def IsCode (s : String) : Prop :=
  ∃ capitals digits : List Char, s.toList = capitals ++ digits ∧ capitals.length = 2 ∧
    (∀ c ∈ capitals, 'A' ≤ c ∧ c ≤ 'Z') ∧ digits ≠ [] ∧ ∀ c ∈ digits, Text.isDecimalDigit c = true

/-- The pattern of codes as it is written. -/
def codeSource : String := "^[A-Z]\x7b2\x7d\\d+$"

/-- The pattern of codes as it is read. -/
def codePattern : Pattern :=
  let capitals := .times (.char (.or .none (.range 'A' 'Z'))) 2 (some 2)
  let digits := .times (.char (.property .digit)) 1 none
  .seq (.seq (.seq (.seq .empty (.place .textStart)) capitals) digits) (.place .textEnd)

theorem read?_codeSource : Pattern.read? codeSource = some codePattern := by decide +kernel

theorem holds_capital {c : Char} : (CharSet.or .none (.range 'A' 'Z')).holds c = true ↔ 'A' ≤ c ∧ c ≤ 'Z' := by
  simp [CharSet.holds]

theorem matchesIn_codePattern {s : String} : codePattern.matchesIn s = true ↔ IsCode s := by
  have capitals : Pattern.Spells (.times (.char (.or .none (.range 'A' 'Z'))) 2 (some 2)) fun cs =>
      cs.length = 2 ∧ ∀ c ∈ cs, 'A' ≤ c ∧ c ≤ 'Z' :=
    (Pattern.Spells.chars _ 2 (some 2)).congr fun cs => by
      have two : cs.length = 2 ↔ 2 ≤ cs.length ∧ cs.length ≤ 2 := by omega
      simp only [holds_capital, Option.mem_some_iff, forall_eq', Nat.max_self, two, and_assoc]
  have digits : Pattern.Spells (.times (.char (.property .digit)) 1 none) fun cs =>
      cs ≠ [] ∧ ∀ c ∈ cs, Text.isDecimalDigit c = true :=
    (Pattern.Spells.chars _ 1 none).congr fun cs => by
      simp [Nat.one_le_iff_ne_zero, CharSet.holds, CharProperty.holds]
  rw [codePattern, Pattern.Spells.matchesIn_iff capitals digits]
  simp only [IsCode, and_assoc]

/-- An engine takes a pattern for a language: it finds the pattern in the texts of the language. -/
def Reads [PatternEngine] (source : String) (language : String → Prop) : Prop :=
  (∃ found, PatternEngine.compile source = .ok found) ∧ ∀ s, Finds source s ↔ language s

open scoped Pattern in
/-- The engine of this library takes the pattern for the codes. -/
theorem reads_codeSource : Reads codeSource IsCode := by
  have compiled : PatternEngine.compile codeSource = .ok codePattern.matchesIn :=
    Pattern.compile_of_read? read?_codeSource
  refine ⟨⟨_, compiled⟩, fun s => ?_⟩
  rw [← matchesIn_codePattern]
  constructor
  · rintro ⟨found, same, here⟩
    cases compiled.symm.trans same
    exact here
  · intro here
    exact ⟨_, compiled, here⟩

/-! ## Fields with rules -/

/-- The fields of a user that have rules hold what the rules are there for. -/
structure ValidUser [PatternEngine] (r : Record user) : Prop where
  score : ∃ n : Integer, r.cells.lookup "usr_score" = some (.integer n) ∧ 0 ≤ n.val ∧ n.val ≤ 100
  email : ∃ s, r.cells.lookup "usr_email" = some (.text s) ∧
    (s = "" ∨ Rule.validate .email { hostname := true } (.text s) = .ok (.text s))

/-- The fields of a sample that have rules hold what the rules are there for. -/
structure ValidSample [PatternEngine] (r : Record sample) : Prop where
  host : ∃ s, r.cells.lookup "s_host" = some (.text s) ∧ (s = "" ∨ Rule.IsDomain true s)
  code : r.cells.lookup "s_code" = some .null ∨ ∃ s, r.cells.lookup "s_code" = some (.text s) ∧
    Finds codeSource s ∧ (Reads codeSource IsCode → IsCode s)
  level : r.cells.lookup "s_level" = some .null ∨
    ∃ n : Integer, r.cells.lookup "s_level" = some (.integer n) ∧ -128 ≤ n.val ∧ n.val ≤ 127

theorem settable_user : user.Settable := ⟨by decide, by decide⟩

theorem settable_sample : sample.Settable := ⟨by decide, by decide⟩

theorem validUser_of_kept [PatternEngine] {r : Record user} (kept : r.Kept) : ValidUser r := by
  constructor
  · obtain ⟨v, cell, held, keeps⟩ := kept.exists_cell (by decide) (i := 2) rfl
    cases v with
    | integer n =>
        refine ⟨n, cell, ?_⟩
        obtain default | accepts := keeps
        · cases default
          decide
        · obtain ⟨w, accepted⟩ := accepts.exists_check rfl rfl
          have within := Rule.within_of_checkInteger (ok_of_mapError accepted)
          exact ⟨within.1 0 (.given rfl), within.2 100 (.given rfl)⟩
    | _ => cases held
  · obtain ⟨v, cell, held, keeps⟩ := kept.exists_cell (by decide) (i := 1) rfl
    cases v with
    | text s =>
        refine ⟨s, cell, ?_⟩
        obtain default | accepts := keeps
        · cases default
          exact .inl rfl
        · obtain ⟨w, accepted⟩ := accepts _ rfl
          refine .inr ?_
          cases Rule.gives_of_validate accepted with
          | email text =>
              cases text
              exact accepted
    | _ => cases held

theorem validSample_of_kept [PatternEngine] {r : Record sample} (kept : r.Kept) : ValidSample r := by
  constructor
  · obtain ⟨v, cell, held, keeps⟩ := kept.exists_cell (by decide) (i := 2) rfl
    cases v with
    | text s =>
        refine ⟨s, cell, ?_⟩
        obtain default | accepts := keeps
        · cases default
          exact .inl rfl
        · obtain ⟨w, accepted⟩ := accepts.exists_check rfl rfl
          exact .inr (Rule.isDomain_of_checkDomain (ok_of_mapError accepted))
    | _ => cases held
  · obtain ⟨v, cell, held, keeps⟩ := kept.exists_cell (by decide) (i := 3) rfl
    cases v with
    | null => exact .inl cell
    | text s =>
        refine .inr ⟨s, cell, ?_⟩
        obtain default | accepts := keeps
        · cases default
        · obtain ⟨w, accepted⟩ := accepts.exists_check rfl rfl
          have found : Finds codeSource s := Rule.finds_of_check rfl accepted
          exact ⟨found, fun reads => (reads.2 s).mp found⟩
    | _ => cases held
  · obtain ⟨v, cell, held, keeps⟩ := kept.exists_cell (by decide) (i := 4) rfl
    cases v with
    | null => exact .inl cell
    | integer n =>
        refine .inr ⟨n, cell, ?_⟩
        obtain default | accepts := keeps
        · cases default
        · obtain ⟨w, accepted⟩ := accepts.exists_check rfl rfl
          have within := Rule.within_of_checkInteger (ok_of_mapError accepted)
          exact ⟨within.1 _ (.preset rfl rfl), within.2 _ (.preset rfl rfl)⟩
    | _ => cases held

open scoped Pattern in
/-- With the engine of this library, a code that a sample holds is one. -/
theorem ValidSample.isCode {r : Record sample} (valid : ValidSample r) :
    r.cells.lookup "s_code" = some .null ∨ ∃ s, r.cells.lookup "s_code" = some (.text s) ∧ IsCode s := by
  refine valid.code.imp_right ?_
  rintro ⟨s, cell, -, code⟩
  exact ⟨s, cell, code reads_codeSource⟩

/-- Whatever the setters of a new user or a new sample have been called with, their fields with rules hold what the
rules are there for; and a further call changes nothing if it fails, and nothing but its own field if it succeeds. -/
theorem valid_callAll [PatternEngine] (calls : List SetterCall) :
    (ValidUser ((Record.new user).callAll calls) ∧ ∀ c, ((Record.new user).callAll calls).Settles c) ∧
      ValidSample ((Record.new sample).callAll calls) ∧ ∀ c, ((Record.new sample).callAll calls).Settles c := by
  have users : ((Record.new user).callAll calls).Kept := Record.kept_new.callAll settable_user calls
  have samples : ((Record.new sample).callAll calls).Kept := Record.kept_new.callAll settable_sample calls
  exact ⟨⟨validUser_of_kept users, Record.settles_call settable_user _⟩,
    validSample_of_kept samples, Record.settles_call settable_sample _⟩

open scoped Pattern in
/-- A score is taken from its text, and one above the bound is refused. -/
example : ((Record.new user).callAll [⟨"score", .text " 100 "⟩, ⟨"score", .text "101"⟩]).cells.lookup "usr_score" =
    some (.integer ⟨.int32, 100, by decide⟩) := by decide +kernel

end TableMapper.Shop
