import Mathlib.Data.List.Basic
import TableMapper.Text.Hex
import TableMapper.Text.Quoted

/-! # Quotations read back

A quotation in code ends at the first quote that no backslash takes with it. A backslash begins an escape: of a
character that has a short one, or of any character by its number. What is quoted is read back, whatever characters
it has and whatever stands behind the quotation. Main statement: `read_escapeList`.
-/

namespace TableMapper.Text

/-! ## Numbers in base sixteen -/

namespace Hex

theorem hexValue?_digitChar {d : Nat} (small : d < 16) : hexValue? (Nat.digitChar d) = some d :=
  hexValue_digitChar ⟨d, small⟩

/-- A number is read back from its digits. -/
theorem readNat?_toDigits (n : Nat) : readNat? (Nat.toDigits 16 n) = some n := by
  induction n using Nat.strongRecOn with
  | ind n ih =>
      by_cases small : n < 16
      · rw [Nat.toDigits_of_lt_base small, readNat?, List.mapM_cons, hexValue?_digitChar small]
        simp
      · have front := ih (n / 16) (by omega)
        rw [readNat?, Option.map_eq_some_iff] at front
        obtain ⟨ds, read, value⟩ := front
        rw [Nat.toDigits_of_base_le (by decide) (by omega), readNat?, List.mapM_append, List.mapM_cons, read,
          hexValue?_digitChar (Nat.mod_lt n (by decide))]
        simp [value]
        omega

/-- What is read as a number is made of digits. -/
theorem isSome_hexValue?_of_mem {cs : List Char} {n : Nat} (read : readNat? cs = some n) {c : Char}
    (member : c ∈ cs) : (hexValue? c).isSome = true := by
  rw [readNat?, Option.map_eq_some_iff] at read
  obtain ⟨ds, read, -⟩ := read
  induction cs generalizing ds with
  | nil => cases member
  | cons d cs ih =>
      rw [List.mapM_cons] at read
      cases first : hexValue? d with
      | none => simp [first] at read
      | some v =>
          obtain rfl | later := List.mem_cons.mp member
          · rw [first]
            rfl
          · cases rest : cs.mapM hexValue? with
            | none => simp [first, rest] at read
            | some vs => exact ih later vs rest

end Hex

/-! ## Escapes -/

namespace Quoted

/-- The character of a number that is written with one to six digits. -/
def numbered? (ds : List Char) : Option Char :=
  if 1 ≤ ds.length ∧ ds.length ≤ 6 then
    (Hex.readNat? ds).bind fun n => if n.isValidChar then some (Char.ofNat n) else none
  else none

/-- Reads what follows a backslash. -/
def readEscape : List Char → Option (Char × List Char)
  | '\\' :: cs => some ('\\', cs)
  | '"' :: cs => some ('"', cs)
  | '\'' :: cs => some ('\'', cs)
  | 't' :: cs => some ('\t', cs)
  | 'n' :: cs => some ('\n', cs)
  | 'r' :: cs => some ('\r', cs)
  | '0' :: cs => some ('\x00', cs)
  | 'x' :: a :: b :: cs => (numbered? [a, b]).bind fun c => if c.toNat < 128 then some (c, cs) else none
  | 'u' :: '\x7b' :: cs =>
    match cs.dropWhile (· != '\x7d') with
    | [] => none
    | _ :: rest => (numbered? (cs.takeWhile (· != '\x7d'))).map (·, rest)
  | _ => none

theorem readEscape_shorter {c : Char} {cs rest : List Char} (read : readEscape cs = some (c, rest)) :
    rest.length < cs.length := by
  unfold readEscape at read
  split at read
  case h_8 =>
    obtain ⟨d, -, read⟩ := Option.bind_eq_some_iff.mp read
    split at read <;> cases read
    simp only [List.length_cons]
    omega
  case h_9 cs =>
    have shorter := (List.dropWhile_suffix (l := cs) (· != '\x7d')).length_le
    split at read
    · cases read
    · next closing =>
      obtain ⟨d, -, read⟩ := Option.map_eq_some_iff.mp read
      cases read
      rw [closing] at shorter
      simp only [List.length_cons] at shorter ⊢
      omega
  all_goals cases read <;> simp

/-- Reads what stands between quotes, up to the closing one, with what stands behind. -/
def read : List Char → Option (List Char × List Char)
  | [] => none
  | '"' :: cs => some ([], cs)
  | '\\' :: cs =>
    match _taken : readEscape cs with
    | none => none
    | some (c, rest) => (read rest).map fun (text, behind) => (c :: text, behind)
  | '\r' :: _ => none
  | c :: cs => (read cs).map fun (text, behind) => (c :: text, behind)
termination_by cs => cs.length
decreasing_by
  · have := readEscape_shorter _taken
    simp only [List.length_cons]
    omega
  · simp

theorem read_shorter {cs text rest : List Char} (h : read cs = some (text, rest)) : rest.length < cs.length := by
  fun_induction read cs generalizing text with
  | case1 => cases h
  | case2 => cases h; simp
  | case3 => cases h
  | case4 cs c rest' taken ih =>
    obtain ⟨⟨text', behind⟩, inner, same⟩ := Option.map_eq_some_iff.mp h
    cases same
    have first := readEscape_shorter taken
    have later := ih inner
    simp only [List.length_cons]
    omega
  | case5 => cases h
  | case6 c cs _ _ _ ih =>
    obtain ⟨⟨text', behind⟩, inner, same⟩ := Option.map_eq_some_iff.mp h
    cases same
    have later := ih inner
    simp only [List.length_cons]
    omega

/-! ## Text as it stands -/

/-- The characters that do not stand for themselves between quotes. -/
def marks : List Char := ['"', '\\', '\r']

theorem read_cons {c : Char} (plain : c ∉ marks) (cs : List Char) :
    read (c :: cs) = (read cs).map fun (text, behind) => (c :: text, behind) := by
  simp only [marks, List.mem_cons, List.not_mem_nil, or_false, not_or] at plain
  obtain ⟨quote, slash, carriage⟩ := plain
  rw [read]
  · exact fun same => quote same
  · exact fun same => slash same
  · exact fun same => carriage same

theorem read_of_plain {text : List Char} (plain : ∀ c ∈ text, c ∉ marks) (rest : List Char) :
    read (text ++ '"' :: rest) = some (text, rest) := by
  induction text with
  | nil => rw [List.nil_append, read]
  | cons c text ih =>
      obtain ⟨first, others⟩ := List.forall_mem_cons.mp plain
      rw [List.cons_append, read_cons first, ih others]
      rfl

/-- Text between quotes stands there as it is, or is shorter than what stands there. -/
theorem read_cases {cs text rest : List Char} (taken : read cs = some (text, rest)) :
    (cs = text ++ '"' :: rest ∧ ∀ c ∈ text, c ∉ marks) ∨ text.length + 1 + rest.length < cs.length := by
  fun_induction read cs generalizing text with
  | case1 => cases taken
  | case2 cs =>
    cases taken
    exact .inl ⟨rfl, by simp⟩
  | case3 => cases taken
  | case4 cs c rest' escape ih =>
    obtain ⟨⟨text', behind⟩, inner, same⟩ := Option.map_eq_some_iff.mp taken
    cases same
    have first := readEscape_shorter escape
    refine .inr ?_
    obtain ⟨rfl, -⟩ | shorter := ih inner <;> simp only [List.length_append, List.length_cons] at * <;> omega
  | case5 => cases taken
  | case6 c cs quote slash carriage ih =>
    obtain ⟨⟨text', behind⟩, inner, same⟩ := Option.map_eq_some_iff.mp taken
    cases same
    obtain ⟨rfl, plain⟩ | shorter := ih inner
    · refine .inl ⟨rfl, List.forall_mem_cons.mpr ⟨?_, plain⟩⟩
      simp only [marks, List.mem_cons, List.not_mem_nil, or_false, not_or]
      exact ⟨fun same => quote same, fun same => slash same, fun same => carriage same⟩
    · refine .inr ?_
      simp only [List.length_cons]
      omega

/-! ## Reading back -/

/-- The number of a character has one to six digits. -/
theorem numbered?_hexDigits (c : Char) : numbered? (hexDigits c.toNat) = some c := by
  have valid : c.toNat.isValidChar := c.valid
  have small : c.toNat < 16 ^ 6 := by
    unfold Nat.isValidChar at valid
    omega
  have few : (hexDigits c.toNat).length ≤ 6 := (Nat.length_toDigits_le_iff (by decide) (by decide)).mpr small
  have filled : 1 ≤ (hexDigits c.toNat).length := Nat.length_toDigits_pos
  rw [numbered?, if_pos ⟨filled, few⟩, hexDigits, Hex.readNat?_toDigits, Option.bind_some, if_pos valid,
    Char.ofNat_toNat]

theorem readEscape_number (c : Char) (rest : List Char) :
    readEscape ('u' :: '\x7b' :: (hexDigits c.toNat ++ '\x7d' :: rest)) = some (c, rest) := by
  have digits : ∀ d ∈ hexDigits c.toNat, (d != '\x7d') = true := by
    intro d member
    have value := Hex.isSome_hexValue?_of_mem (Hex.readNat?_toDigits c.toNat) member
    rw [bne_iff_ne]
    rintro rfl
    exact absurd value (by decide)
  have inner : (hexDigits c.toNat ++ '\x7d' :: rest).takeWhile (· != '\x7d') = hexDigits c.toNat := by
    rw [List.takeWhile_append_of_pos digits]
    simp
  have behind : (hexDigits c.toNat ++ '\x7d' :: rest).dropWhile (· != '\x7d') = '\x7d' :: rest := by
    rw [List.dropWhile_append_of_pos digits]
    simp
  simp only [readEscape, behind, inner, numbered?_hexDigits, Option.map_some]

/-- A character stands between quotes as it is, or as an escape of it. -/
theorem escapeChar_cases (c : Char) :
    (escapeChar c = [c] ∧ c ≠ '"' ∧ c ≠ '\\' ∧ c ≠ '\r') ∨
      ∃ escape, escapeChar c = '\\' :: escape ∧ ∀ rest, readEscape (escape ++ rest) = some (c, rest) := by
  unfold escapeChar
  split
  case h_7 slash quote _ _ carriage _ =>
    split
    · refine .inr ⟨_, rfl, fun rest => ?_⟩
      simpa using readEscape_number c rest
    · exact .inl ⟨rfl, quote, slash, carriage⟩
  all_goals exact .inr ⟨_, rfl, fun _ => rfl⟩

theorem read_escapeChar (c : Char) (rest : List Char) :
    read (escapeChar c ++ rest) = (read rest).map fun (text, behind) => (c :: text, behind) := by
  obtain ⟨plain, quote, slash, carriage⟩ | ⟨escape, escaped, taken⟩ := escapeChar_cases c
  · exact plain ▸ read_cons (by simp [marks, quote, slash, carriage]) rest
  · rw [escaped, List.cons_append, read]
    split
    · next none => rw [taken] at none; cases none
    · next found =>
      rw [taken] at found
      cases found
      rfl

/-- A quoted text is read back, whatever stands behind it. -/
theorem read_escapeList (text rest : List Char) : read (escapeList text ++ '"' :: rest) = some (text, rest) := by
  induction text with
  | nil => rw [escapeList, List.flatMap_nil, List.nil_append, read]
  | cons c text ih =>
      rw [escapeList, List.flatMap_cons, List.append_assoc, read_escapeChar, ← escapeList, ih]
      rfl

end Quoted

end TableMapper.Text
