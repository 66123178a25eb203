import Mathlib.Data.List.Basic
import TableMapper.Proofs.Text.Cutting
import TableMapper.Text.Words

/-! # Words of plain names

The words of a name have no characters but its own letters and numbers, in lower case. So a name in snake case
has no underscore at its end and no sign of another kind, and a name of ASCII characters has only plain ones.
Main statements: `isPlain_of_mem_snake`, `snake_ne_append_underscore`, `exists_snake_cons`.
-/

namespace TableMapper.Text.Words

/-- A letter, digit or underscore of ASCII. -/
def IsPlain (c : Char) : Prop := c.isAlphanum = true ∨ c = '_'

instance (c : Char) : Decidable (IsPlain c) := inferInstanceAs (Decidable (_ ∨ _))

theorem IsPlain.toNat_lt {c : Char} (plain : IsPlain c) : c.toNat < 128 := by
  rcases plain with known | rfl
  · have ranges : ((decide (65 ≤ c.val ∧ c.val ≤ 90) || (decide (97 ≤ c.val) && decide (c.val ≤ 122))) ||
        (decide (48 ≤ c.val) && decide (c.val ≤ 57))) = true := known
    simp only [Bool.or_eq_true, Bool.and_eq_true, decide_eq_true_eq, UInt32.le_iff_toNat_le] at ranges
    have : c.toNat = c.val.toNat := rfl
    have : (90 : UInt32).toNat = 90 := rfl
    have : (122 : UInt32).toNat = 122 := rfl
    have : (57 : UInt32).toNat = 57 := rfl
    omega
  · decide

/-- Of plain characters there are few enough to look at each. -/
theorem forall_isPlain {p : Char → Prop} (each : ∀ n : Fin 128, IsPlain (Char.ofNat n) → p (Char.ofNat n))
    {c : Char} (plain : IsPlain c) : p c := by
  have one := each ⟨c.toNat, plain.toNat_lt⟩
  rw [Char.ofNat_toNat] at one
  exact one plain

theorem IsPlain.not_blank {c : Char} (plain : IsPlain c) : isBlank c = false :=
  forall_isPlain (p := fun c => isBlank c = false) (by decide) plain

theorem isBlank_of_isDigit {c : Char} (digit : c.isDigit = true) : isBlank c = false :=
  IsPlain.not_blank (.inl (by simp [Char.isAlphanum, digit]))

theorem isPlain_of_mem_lowerChar {c d : Char} (plain : IsPlain c) (member : d ∈ lowerChar c) : IsPlain d := by
  rw [lowerChar, if_pos plain.toNat_lt, List.mem_singleton] at member
  subst member
  exact forall_isPlain (p := fun c => IsPlain c.toLower) (by decide) plain

theorem mem_lowerWord {word : List Char} {d : Char} (member : d ∈ lowerWord word) :
    ∃ c ∈ word, c.toNat = 0x3A3 ∧ d = Char.ofNat 0x3C2 ∨ d ∈ lowerChar c := by
  fun_induction lowerWord word with
  | case1 => cases member
  | case2 c sigma =>
      exact ⟨c, List.mem_singleton_self c, .inl ⟨beq_iff_eq.mp sigma, List.mem_singleton.mp member⟩⟩
  | case3 c => exact ⟨c, List.mem_singleton_self c, .inr member⟩
  | case4 c cs _ ih =>
      rcases List.mem_append.mp member with first | later
      · exact ⟨c, List.mem_cons_self .., .inr first⟩
      · obtain ⟨c', held, own⟩ := ih later
        exact ⟨c', List.mem_cons_of_mem c held, own⟩

theorem isPlain_of_mem_lowerWord {word : List Char} (plain : ∀ c ∈ word, IsPlain c) {d : Char}
    (member : d ∈ lowerWord word) : IsPlain d := by
  obtain ⟨c, held, ⟨sigma, -⟩ | own⟩ := mem_lowerWord member
  · have := (plain c held).toNat_lt
    omega
  · exact isPlain_of_mem_lowerChar (plain c held) own

/-- No run leads to ASCII beneath its lower case letters. -/
theorem lowerRuns_above : ∀ run ∈ lowerRuns, (96 : Int) < run.1 + run.2.2.2 := by
  decide +kernel

/-- Signs that lower case letters and numbers are never. -/
def IsSign (c : Char) : Prop := c = '_' ∨ c = '#'

instance (c : Char) : Decidable (IsSign c) := inferInstanceAs (Decidable (_ ∨ _))

theorem IsSign.toNat_lt {c : Char} (sign : IsSign c) : 0 < c.toNat ∧ c.toNat < 96 := by
  rcases sign with rfl | rfl <;> decide

theorem toNat_ofNat (n : Nat) : (Char.ofNat n).toNat = n ∨ (Char.ofNat n).toNat = 0 := by
  by_cases valid : n.isValidChar
  · rw [Char.ofNat, dif_pos valid]
    exact .inl rfl
  · rw [Char.ofNat, dif_neg valid]
    exact .inr rfl

theorem not_isSign_applyOffset {c : Char} (wide : 128 ≤ c.toNat) : ¬ IsSign (applyOffset lowerRuns c) := by
  intro sign
  have small := sign.toNat_lt
  unfold applyOffset at small
  split at small
  · next first last step offset found =>
    have above := lowerRuns_above _ (List.mem_of_find?_eq_some found)
    have starts := List.find?_some found
    simp only [Bool.and_eq_true, decide_eq_true_eq] at starts above
    rcases toNat_ofNat ((c.toNat : Int) + offset).toNat with same | zero <;> omega
  · omega

theorem not_isSign_of_mem_lowerChar {c d : Char} (known : isAlphanumeric c = true) (member : d ∈ lowerChar c) :
    ¬ IsSign d := by
  unfold lowerChar at member
  split at member
  · next small =>
    rw [isAlphanumeric, if_pos small] at known
    cases List.mem_singleton.mp member
    exact forall_isPlain (p := fun c => c.isAlphanum = true → ¬ IsSign c.toLower) (by decide)
      (.inl known) known
  · next wide =>
    split at member
    · rcases List.mem_cons.mp member with rfl | member
      · decide
      · cases List.mem_singleton.mp member
        decide
    · cases List.mem_singleton.mp member
      exact not_isSign_applyOffset (Nat.le_of_not_lt wide)

theorem not_isSign_of_mem_lowerWord {word : List Char} (known : ∀ c ∈ word, isAlphanumeric c = true) {d : Char}
    (member : d ∈ lowerWord word) : ¬ IsSign d := by
  obtain ⟨c, held, ⟨-, rfl⟩ | own⟩ := mem_lowerWord member
  · decide
  · exact not_isSign_of_mem_lowerChar (known c held) own

theorem lowerChar_ne_nil (c : Char) : lowerChar c ≠ [] := by
  unfold lowerChar
  split
  · simp
  · split <;> simp

theorem lowerWord_ne_nil {word : List Char} (some : word ≠ []) : lowerWord word ≠ [] := by
  fun_cases lowerWord word with
  | case1 => exact absurd rfl some
  | case2 => simp
  | case3 c => exact lowerChar_ne_nil c
  | case4 c cs => simp [lowerChar_ne_nil]

theorem exists_lowerWord_cons {c : Char} (ascii : c.toNat < 128) (word : List Char) :
    ∃ rest, lowerWord (c :: word) = c.toLower :: rest := by
  have : ¬ c.toNat = 0x3A3 := by omega
  cases word with
  | nil => exact ⟨[], by simp [lowerWord, lowerChar, ascii, this]⟩
  | cons c' word => exact ⟨lowerWord (c' :: word), by simp [lowerWord, lowerChar, ascii]⟩

/-! ## Cutting -/

theorem flatten_cutAtCase (mode : Mode) (word cs : List Char) :
    (cutAtCase mode word cs).flatten = word ++ cs := by
  fun_induction cutAtCase mode word cs <;> simp_all

theorem flatten_splitOnP (p : Char → Bool) (cs : List Char) :
    (cs.splitOnP p).flatten = cs.filter fun c => !p c := by
  induction cs with
  | nil => rfl
  | cons c cs ih =>
      rw [List.splitOnP_cons_eq_if_modifyHead]
      cases held : p c with
      | true => simp [held, ih]
      | false =>
          obtain ⟨first, others, pieces⟩ := List.exists_cons_of_ne_nil (List.splitOnP_ne_nil p cs)
          simp [held, ← ih, pieces]

/-- Cutting keeps the letters and numbers of a name, in their order. -/
theorem flatten_cut (cs : List Char) : (Words.cut cs).flatten = cs.filter isAlphanumeric := by
  have whole (pieces : List (List Char)) :
      (pieces.flatMap (cutAtCase .boundary [])).flatten = pieces.flatten := by
    induction pieces with
    | nil => rfl
    | cons piece pieces ih => simp [ih, flatten_cutAtCase]
  rw [Words.cut, whole, flatten_splitOnP]
  simp only [Bool.not_not]

theorem mem_of_mem_cut {cs word : List Char} {c : Char} (cut : word ∈ Words.cut cs) (member : c ∈ word) :
    c ∈ cs ∧ isAlphanumeric c = true :=
  List.mem_filter.mp (flatten_cut cs ▸ List.mem_flatten_of_mem cut member)

theorem ne_nil_of_mem_cutAtCase {mode : Mode} {word cs w : List Char} (started : word = [] → mode = .boundary)
    (cut : w ∈ cutAtCase mode word cs) : w ≠ [] := by
  fun_induction cutAtCase mode word cs with
  | case1 => simp at cut
  | case2 mode word here =>
      cases List.mem_singleton.mp cut
      simpa using here
  | case3 =>
      cases List.mem_singleton.mp cut
      simp
  | case4 mode word c d rest next here ih =>
      rcases List.mem_cons.mp cut with rfl | later
      · simp
      · exact ih (fun _ => rfl) later
  | case5 mode word c d rest next _ here ih =>
      rcases List.mem_cons.mp cut with rfl | later
      · rintro rfl
        simp [started rfl] at here
      · exact ih (by simp) later
  | case6 mode word c d rest next _ _ ih => exact ih (by simp) cut

theorem ne_nil_of_mem_cut {cs word : List Char} (cut : word ∈ Words.cut cs) : word ≠ [] := by
  obtain ⟨_, -, cut⟩ := List.mem_flatMap.mp cut
  exact ne_nil_of_mem_cutAtCase (fun _ => rfl) cut

/-! ## Snake case -/

theorem mem_snake {s : String} {d : Char} (member : d ∈ (snake s).toList) :
    d = '_' ∨ ∃ word ∈ cut s.toList, d ∈ lowerWord word := by
  rw [snake, String.toList_ofList] at member
  refine (mem_of_mem_intercalate member).imp_right ?_
  rintro ⟨_, lowered, member⟩
  obtain ⟨word, cut, rfl⟩ := List.mem_map.mp lowered
  exact ⟨word, cut, member⟩

/-- A name of ASCII characters is plain in snake case. -/
theorem isPlain_of_mem_snake_of_ascii {s : String} (ascii : ∀ c ∈ s.toList, c.toNat < 128) {d : Char}
    (member : d ∈ (snake s).toList) : IsPlain d := by
  rcases mem_snake member with rfl | ⟨word, cut, member⟩
  · exact .inr rfl
  · refine isPlain_of_mem_lowerWord (fun c held => .inl ?_) member
    obtain ⟨own, known⟩ := mem_of_mem_cut cut held
    rwa [isAlphanumeric, if_pos (ascii c own)] at known

/-- A plain name is plain in snake case. -/
theorem isPlain_of_mem_snake {s : String} (plain : ∀ c ∈ s.toList, IsPlain c) {d : Char}
    (member : d ∈ (snake s).toList) : IsPlain d :=
  isPlain_of_mem_snake_of_ascii (fun c held => (plain c held).toNat_lt) member

theorem hash_not_mem_snake (s : String) : '#' ∉ (snake s).toList := by
  intro member
  rcases mem_snake member with same | ⟨word, cut, member⟩
  · exact absurd same (by decide)
  · exact not_isSign_of_mem_lowerWord (fun c held => (mem_of_mem_cut cut held).2) member (.inr rfl)

/-- No underscore stands at the end of a name in snake case, as the words are not empty. -/
theorem snake_ne_append_underscore (s t : String) : snake s ≠ t ++ "_" := by
  intro same
  have ends : ['_'].intercalate ((cut s.toList).map lowerWord) = t.toList ++ ['_'] := by
    simpa [snake] using congrArg String.toList same
  have words : (cut s.toList).map lowerWord ≠ [] := by
    intro none
    rw [none] at ends
    simp at ends
  have apart : ∀ w ∈ (cut s.toList).map lowerWord, '_' ∉ w := by
    intro _ lowered member
    obtain ⟨word, cut, rfl⟩ := List.mem_map.mp lowered
    exact not_isSign_of_mem_lowerWord (fun c held => (mem_of_mem_cut cut held).2) member (.inl rfl)
  have split := List.splitOn_intercalate '_' apart words
  rw [ends, List.splitOn_append_cons_self] at split
  have last : [] ∈ (cut s.toList).map lowerWord := by
    rw [← split]
    simp
  obtain ⟨word, cut, empty⟩ := List.mem_map.mp last
  exact lowerWord_ne_nil (ne_nil_of_mem_cut cut) empty

/-- A name without letters and numbers is empty in snake case. -/
theorem snake_eq_empty {s : String} (none : s.toList.find? isAlphanumeric = none) : snake s = "" := by
  rw [← List.head?_filter, ← flatten_cut, List.head?_eq_none_iff] at none
  have words : cut s.toList = [] := by
    refine List.eq_nil_iff_forall_not_mem.mpr fun word cut => ?_
    exact ne_nil_of_mem_cut cut (List.flatten_eq_nil_iff.mp none word cut)
  rw [snake, words]
  rfl

/-- A name in snake case starts with the first letter or number of the name. -/
theorem exists_snake_cons {s : String} {c : Char} (first : s.toList.find? isAlphanumeric = some c)
    (ascii : c.toNat < 128) : ∃ rest, (snake s).toList = c.toLower :: rest := by
  rw [← List.head?_filter, ← flatten_cut] at first
  cases words : cut s.toList with
  | nil => simp [words] at first
  | cons word others =>
      cases word with
      | nil => exact absurd rfl (ne_nil_of_mem_cut (words ▸ List.mem_cons_self ..))
      | cons c' word =>
          rw [words] at first
          cases first
          obtain ⟨rest, lowered⟩ := exists_lowerWord_cons ascii word
          refine ⟨['_'].intercalate (rest :: others.map lowerWord), ?_⟩
          rw [snake, words, List.map_cons, lowered, List.intercalate_cons_cons_left, String.toList_ofList]

end TableMapper.Text.Words
