import Mathlib.Data.List.Basic
import TableMapper.Text.Basic

/-! # Cutting at a character

A text is cut around the first or the last occurrence of a character, or at all of them. The pieces between dots
have no dots in them, and with dots between them they are the text again.
-/

namespace TableMapper.Text

variable {c : Char} {cs before behind : List Char}

/-! ## Around one occurrence -/

theorem splitFirst_append (absent : c ∉ before) (behind : List Char) :
    splitFirst c (before ++ c :: behind) = some (before, behind) := by
  induction before with
  | nil => simp [splitFirst]
  | cons d before ih =>
      simp only [List.mem_cons, not_or] at absent
      rw [List.cons_append, splitFirst, if_neg (Ne.symm absent.1), ih absent.2]
      rfl

theorem splitFirst_of_not_mem (absent : c ∉ cs) : splitFirst c cs = none := by
  induction cs with
  | nil => rfl
  | cons d cs ih =>
      simp only [List.mem_cons, not_or] at absent
      rw [splitFirst, if_neg (Ne.symm absent.1), ih absent.2]
      rfl

theorem splitFirst_eq_some_iff :
    splitFirst c cs = some (before, behind) ↔ cs = before ++ c :: behind ∧ c ∉ before := by
  constructor
  · intro cut
    by_cases member : c ∈ cs
    · obtain ⟨front, back, rfl, absent⟩ := List.eq_append_cons_of_mem member
      rw [splitFirst_append absent] at cut
      cases cut
      exact ⟨rfl, absent⟩
    · rw [splitFirst_of_not_mem member] at cut
      cases cut
  · rintro ⟨rfl, absent⟩
    exact splitFirst_append absent behind

/-- The last occurrence of a character is the one with no other behind it. -/
theorem splitLast_eq_some_iff :
    splitLast c cs = some (before, behind) ↔ cs = before ++ c :: behind ∧ c ∉ behind := by
  have mirrored : splitLast c cs = some (before, behind) ↔
      splitFirst c cs.reverse = some (behind.reverse, before.reverse) := by
    simp only [splitLast, Option.map_eq_some_iff, Prod.exists, Prod.mk.injEq]
    constructor
    · rintro ⟨back, front, cut, rfl, rfl⟩
      rw [cut, List.reverse_reverse, List.reverse_reverse]
    · intro cut
      exact ⟨_, _, cut, List.reverse_reverse _, List.reverse_reverse _⟩
  rw [mirrored, splitFirst_eq_some_iff, List.mem_reverse, List.reverse_eq_iff]
  simp

/-! ## Pieces between dots -/

theorem not_mem_of_mem_splitOn {α : Type} [DecidableEq α] {a : α} {l piece : List α} (member : piece ∈ l.splitOn a) :
    a ∉ piece := by
  induction l generalizing piece with
  | nil =>
      rw [List.splitOn_nil, List.mem_singleton] at member
      exact member ▸ List.not_mem_nil
  | cons b l ih =>
      obtain ⟨first, others, pieces⟩ := List.exists_cons_of_ne_nil (List.splitOn_ne_nil a l)
      rw [pieces] at ih
      rw [List.splitOn_cons_eq_if_modifyHead, pieces] at member
      split at member
      · obtain rfl | member := List.mem_cons.mp member
        · exact List.not_mem_nil
        · exact ih member
      · next differ =>
        obtain rfl | member := List.mem_cons.mp member
        · have apart : a ≠ b := fun same => differ (beq_iff_eq.mpr same.symm)
          exact List.not_mem_cons_of_ne_of_not_mem apart (ih (List.mem_cons_self ..))
        · exact ih (List.mem_cons_of_mem _ member)

/-- Pieces but the first have a separator in front. -/
theorem intercalate_cons_eq {α : Type} (a : α) (piece : List α) (pieces : List (List α)) :
    [a].intercalate (piece :: pieces) = piece ++ (pieces.map (a :: ·)).flatten := by
  induction pieces generalizing piece with
  | nil => simp
  | cons next pieces ih =>
      rw [List.intercalate_cons_cons, ih, List.append_assoc, List.map_cons, List.flatten_cons]
      rfl

/-- Something holds of all pieces of a list when the list is one such piece, and rounds of a separator and one more. -/
theorem forall_mem_splitOn_iff {α : Type} [DecidableEq α] {a : α} {l : List α} {P : List α → Prop}
    (whole : ∀ piece, P piece → a ∉ piece) : (∀ piece ∈ l.splitOn a, P piece) ↔
      ∃ first back, l = first ++ back ∧ P first ∧ ∃ rounds : List (List α), back = rounds.flatten ∧
        ∀ round ∈ rounds, ∃ piece, round = a :: piece ∧ P piece := by
  constructor
  · intro each
    obtain ⟨first, others, pieces⟩ := List.exists_cons_of_ne_nil (List.splitOn_ne_nil a l)
    rw [pieces, List.forall_mem_cons] at each
    refine ⟨first, _, ?_, each.1, others.map (a :: ·), rfl, ?_⟩
    · rw [← intercalate_cons_eq, ← pieces, List.intercalate_splitOn]
    · exact List.forall_mem_map.mpr fun piece member => ⟨piece, rfl, each.2 piece member⟩
  · rintro ⟨first, _, rfl, front, rounds, rfl, each⟩
    have behind : ∀ round ∈ rounds, a :: round.tail = round ∧ P round.tail := by
      intro round member
      obtain ⟨piece, rfl, held⟩ := each round member
      exact ⟨rfl, held⟩
    have tails : (rounds.map List.tail).map (a :: ·) = rounds := by
      rw [List.map_map]
      exact (List.map_congr_left fun round member => (behind round member).1).trans (List.map_id _)
    have all : ∀ piece ∈ first :: rounds.map List.tail, P piece :=
      List.forall_mem_cons.mpr ⟨front, List.forall_mem_map.mpr fun round member => (behind round member).2⟩
    rwa [← tails, ← intercalate_cons_eq, List.splitOn_intercalate a (fun piece member => whole piece (all piece member))
      (List.cons_ne_nil _ _)]

theorem intercalate_splitChar (s : String) : ".".intercalate (splitChar '.' s) = s := by
  apply String.toList_injective
  have same : (splitChar '.' s).map String.toList = s.toList.splitOn '.' := by simp [splitChar, Function.comp_def]
  rw [String.toList_intercalate, same]
  exact List.intercalate_splitOn '.'

theorem splitChar_intercalate {pieces : List String} (some : pieces ≠ [])
    (whole : ∀ piece ∈ pieces, '.' ∉ piece.toList) : splitChar '.' (".".intercalate pieces) = pieces := by
  have split : (['.'].intercalate (pieces.map String.toList)).splitOn '.' = pieces.map String.toList :=
    List.splitOn_intercalate '.' (List.forall_mem_map.mpr whole) (by simpa using some)
  rw [splitChar, String.toList_intercalate]
  change ((['.'].intercalate (pieces.map String.toList)).splitOn '.').map String.ofList = pieces
  rw [split]
  simp [Function.comp_def]

theorem splitChar_append_dot (s : String) : splitChar '.' (s ++ ".") = splitChar '.' s ++ [""] := by
  rw [splitChar, String.toList_append]
  change ((s.toList ++ ['.']).splitOn '.').map String.ofList = _
  rw [List.splitOn_append_cons_self, List.splitOn_nil, List.map_append]
  rfl

theorem not_mem_of_mem_splitChar {s piece : String} (member : piece ∈ splitChar '.' s) : '.' ∉ piece.toList := by
  obtain ⟨cs, piece', rfl⟩ := List.mem_map.mp member
  rw [String.toList_ofList]
  exact not_mem_of_mem_splitOn piece'

theorem mem_of_mem_intercalate {α : Type} {separator : α} {words : List (List α)} {d : α}
    (member : d ∈ [separator].intercalate words) : d = separator ∨ ∃ word ∈ words, d ∈ word := by
  induction words with
  | nil => cases member
  | cons word words ih =>
      cases words with
      | nil => exact .inr ⟨word, List.mem_singleton_self _, by simpa using member⟩
      | cons other others =>
          rw [List.intercalate_cons_cons, List.append_assoc, List.mem_append] at member
          rcases member with own | member
          · exact .inr ⟨word, List.mem_cons_self .., own⟩
          · rcases List.mem_cons.mp member with between | later
            · exact .inl between
            · refine (ih later).imp_right ?_
              rintro ⟨w, held, inside⟩
              exact ⟨w, List.mem_cons_of_mem word held, inside⟩

end TableMapper.Text
