import Mathlib.Data.List.DropRight
import TableMapper.Text.Basic

/-! # Blanks around and between words

Trimming takes the blanks around a text that has none at its ends and leaves the text. The words between
blanks are found whatever the blanks are, and however many.
-/

namespace TableMapper.Text

/-! ## Around a text -/

section

variable {p : Char → Bool} {cs front back : List Char}

/-- A text that starts and ends with a character of another kind than what is trimmed. -/
structure Tight (p : Char → Bool) (cs : List Char) : Prop where
  start : ∀ c ∈ cs.head?, p c = false
  stop : ∀ c ∈ cs.getLast?, p c = false

theorem dropWhile_of_head (start : ∀ c ∈ cs.head?, p c = false) : cs.dropWhile p = cs := by
  cases cs with
  | nil => rfl
  | cons c cs =>
      rw [List.dropWhile_cons_of_neg]
      simp [start c rfl]

theorem takeWhile_eq_nil_iff_of_head : cs.takeWhile p = [] ↔ ∀ c ∈ cs.head?, p c = false := by
  cases cs with
  | nil => simp
  | cons c cs => simp [List.takeWhile_cons]

theorem trimStartList_append (around : ∀ c ∈ front, p c = true) :
    trimStartList p (front ++ cs) = trimStartList p cs :=
  List.dropWhile_append_of_pos around

theorem trimEndList_append (around : ∀ c ∈ back, p c = true) :
    trimEndList p (cs ++ back) = trimEndList p cs := by
  rw [trimEndList, List.reverse_append, List.dropWhile_append_of_pos]
  · rfl
  · exact fun c member => around c (List.mem_reverse.mp member)

theorem Tight.trimList_eq (h : Tight p cs) : trimList p cs = cs := by
  rw [trimList, trimStartList, dropWhile_of_head h.start, trimEndList, dropWhile_of_head, List.reverse_reverse]
  rw [List.head?_reverse]
  exact h.stop

/-- What stands around a tight text is trimmed, and nothing of the text. -/
theorem Tight.trimList_append (h : Tight p cs) (before : ∀ c ∈ front, p c = true)
    (behind : ∀ c ∈ back, p c = true) : trimList p (front ++ cs ++ back) = cs := by
  have both : trimStartList p (cs ++ back) = trimStartList p cs ++ back ∨ cs = [] := by
    cases cs with
    | nil => exact .inr rfl
    | cons c cs =>
        have first : p c = false := h.start c rfl
        left
        rw [trimStartList, trimStartList, List.cons_append, List.dropWhile_cons_of_neg (by simp [first]),
          List.dropWhile_cons_of_neg (by simp [first]), List.cons_append]
  rw [List.append_assoc, trimList, trimStartList_append before]
  obtain both | rfl := both
  · rw [both, trimEndList_append behind]
    exact h.trimList_eq
  · rw [List.nil_append, trimStartList, List.dropWhile_eq_nil_iff.mpr behind]
    rfl

theorem tight_trimList (p : Char → Bool) (cs : List Char) : Tight p (trimList p cs) := by
  constructor
  · intro c first
    have inside : (cs.dropWhile p).head? = some c := by
      obtain ⟨back, whole⟩ := List.rdropWhile_prefix p (cs.dropWhile p)
      rw [← whole, List.head?_append]
      exact Option.or_eq_some_iff.mpr (.inl first)
    have other := List.head?_dropWhile_not p cs
    rwa [inside] at other
  · intro c last
    have inside : ((cs.dropWhile p).reverse.dropWhile p).head? = some c := by
      rwa [trimList, trimEndList, List.getLast?_reverse] at last
    have other := List.head?_dropWhile_not p (cs.dropWhile p).reverse
    rwa [inside] at other

/-- What is trimmed stands at the ends. -/
theorem exists_append_trimList (p : Char → Bool) (cs : List Char) : ∃ front back : List Char,
    cs = front ++ trimList p cs ++ back ∧ (∀ c ∈ front, p c = true) ∧ ∀ c ∈ back, p c = true := by
  have kept : trimList p cs ++ ((cs.dropWhile p).reverse.takeWhile p).reverse = cs.dropWhile p := by
    rw [trimList, trimEndList, trimStartList, ← List.reverse_append, List.takeWhile_append_dropWhile,
      List.reverse_reverse]
  refine ⟨cs.takeWhile p, ((cs.dropWhile p).reverse.takeWhile p).reverse, ?_, ?_, ?_⟩
  · rw [List.append_assoc, kept, List.takeWhile_append_dropWhile]
  · exact fun c member => List.mem_takeWhile_imp member
  · exact fun c member => List.mem_takeWhile_imp (List.mem_reverse.mp member)

theorem mem_of_mem_trimList {c : Char} (member : c ∈ trimList p cs) : c ∈ cs := by
  have inside : c ∈ cs.dropWhile p := (List.rdropWhile_prefix p (cs.dropWhile p)).subset member
  exact (List.dropWhile_suffix p).subset inside

theorem trim_eq_empty_iff {s : String} : trim s = "" ↔ ∀ c ∈ s.toList, isBlank c = true := by
  obtain ⟨front, back, whole, before, behind⟩ := exists_append_trimList isBlank s.toList
  have tight := tight_trimList isBlank s.toList
  rw [trim, String.ofList_eq_empty_iff]
  constructor
  · intro none
    rw [whole, none, List.append_nil]
    exact List.forall_mem_append.mpr ⟨before, behind⟩
  · intro blank
    cases kept : trimList isBlank s.toList with
    | nil => rfl
    | cons c cs =>
        have first := tight.start c (by rw [kept]; rfl)
        rw [blank c (mem_of_mem_trimList (by rw [kept]; exact List.mem_cons_self ..))] at first
        cases first

end

/-! ## Between words -/

/-- A word is not empty and has no blanks in it. -/
def IsWord (word : List Char) : Prop := word ≠ [] ∧ ∀ c ∈ word, isBlank c = false

/-- The text is at its end or goes on with a blank. -/
def Breaks (cs : List Char) : Prop := ∀ c ∈ cs.head?, isBlank c = true

theorem splitBlanksList_blanks {gap : List Char} (blanks : ∀ c ∈ gap, isBlank c = true) (cs : List Char) :
    splitBlanksList (gap ++ cs) = splitBlanksList cs := by
  induction gap with
  | nil => rfl
  | cons c gap ih =>
      simp only [List.forall_mem_cons] at blanks
      rw [List.cons_append, splitBlanksList, if_pos blanks.1, ih blanks.2]

theorem splitBlanksList_append_blanks (cs : List Char) {gap : List Char}
    (blanks : ∀ c ∈ gap, isBlank c = true) : splitBlanksList (cs ++ gap) = splitBlanksList cs := by
  induction cs with
  | nil =>
      have none := splitBlanksList_blanks blanks []
      rwa [List.append_nil] at none
  | cons c cs ih =>
      rw [List.cons_append, splitBlanksList, splitBlanksList, ih]
      cases cs with
      | nil => rfl
      | cons d cs => rfl

/-- The blanks at either end make no words. -/
theorem splitBlanksList_trimList (cs : List Char) :
    splitBlanksList (trimList isBlank cs) = splitBlanksList cs := by
  obtain ⟨front, back, whole, before, behind⟩ := exists_append_trimList isBlank cs
  conv_rhs => rw [whole, List.append_assoc, splitBlanksList_blanks before,
    splitBlanksList_append_blanks _ behind]

/-- A word that a blank or the end follows is the first of the words. -/
theorem splitBlanksList_word {word : List Char} (h : IsWord word) {cs : List Char} (apart : Breaks cs) :
    splitBlanksList (word ++ cs) = word :: splitBlanksList cs := by
  obtain ⟨filled, solid⟩ := h
  induction word with
  | nil => exact (filled rfl).elim
  | cons c word ih =>
      simp only [List.forall_mem_cons] at solid
      rw [List.cons_append, splitBlanksList, if_neg (by simp [solid.1])]
      cases word with
      | nil =>
          -- the one character is a word of its own, as a blank or nothing follows
          cases cs with
          | nil => rfl
          | cons d cs =>
              have blank : isBlank d = true := apart d rfl
              rw [List.nil_append]
              cases words : splitBlanksList (d :: cs) with
              | nil => rfl
              | cons first rest => simp only [blank, if_true]
      | cons d word =>
          have solid' : isBlank d = false := solid.2 d (List.mem_cons_self ..)
          rw [ih (List.cons_ne_nil _ _) solid.2]
          simp only [List.cons_append, solid', Bool.false_eq_true, if_false]

end TableMapper.Text
