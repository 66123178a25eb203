import Mathlib.Data.List.Basic
import TableMapper.Query.Bindings
import TableMapper.Query.Fragment

/-! # Names of placeholders and quoted names

A placeholder's name is a letter or underscore with letters, digits and underscores behind it, and what
`allocate` hands out is always such a name. A column or table that is itself named in that way stands
between backticks as it is, and is the base of its own placeholder.
-/

namespace TableMapper

namespace Identifier

/-- A letter or underscore, with letters, digits and underscores behind it. -/
def IsName (cs : List Char) : Prop :=
  match cs with
  | [] => False
  | c :: rest => c.isDigit = false ∧ (c :: rest).all Fragment.isNameChar = true

instance (cs : List Char) : Decidable (IsName cs) := by
  cases cs <;> unfold IsName <;> infer_instance

theorem IsName.all {cs : List Char} (h : IsName cs) : cs.all Fragment.isNameChar = true := by
  cases cs with
  | nil => exact h.elim
  | cons c rest => exact h.2

theorem IsName.ne_nil {cs : List Char} (h : IsName cs) : cs ≠ [] := by
  rintro rfl
  exact h

theorem IsName.not_mem {cs : List Char} (h : IsName cs) {c : Char} (hc : Fragment.isNameChar c = false) :
    c ∉ cs := by
  intro member
  have named := List.all_eq_true.1 h.all c member
  rw [hc] at named
  exact Bool.false_ne_true named

/-- More name characters at the end leave a name a name. -/
theorem IsName.append {cs ds : List Char} (h : IsName cs) (hd : ds.all Fragment.isNameChar = true) :
    IsName (cs ++ ds) := by
  cases cs with
  | nil => exact h.elim
  | cons c rest =>
      refine ⟨h.1, ?_⟩
      change ((c :: rest) ++ ds).all Fragment.isNameChar = true
      rw [List.all_append, h.2, hd]
      rfl

theorem isNameChar_placeholderChar (c : Char) : Fragment.isNameChar (placeholderChar c) = true := by
  unfold placeholderChar
  split
  · next alnum => rw [Fragment.isNameChar, alnum, Bool.true_or]
  · rfl

theorem all_map_placeholderChar (cs : List Char) :
    (cs.map placeholderChar).all Fragment.isNameChar = true := by
  simp only [List.all_map, List.all_eq_true]
  exact fun c _ => isNameChar_placeholderChar c

/-- Whatever the field, its placeholder starts as a name. -/
theorem isName_placeholderBase (field : String) : IsName (placeholderBase field).toList := by
  have named := all_map_placeholderChar field.toList
  unfold placeholderBase
  cases h : field.toList.map placeholderChar with
  | nil => decide
  | cons c cs =>
      rw [h] at named
      cases hd : c.isDigit with
      | true =>
          simp only [hd, if_true, String.toList_ofList]
          exact ⟨by decide, by rw [List.all_cons, named]; rfl⟩
      | false =>
          simp only [hd, Bool.false_eq_true, if_false, String.toList_ofList]
          exact ⟨hd, named⟩

theorem map_placeholderChar {cs : List Char} (h : cs.all Fragment.isNameChar = true) :
    cs.map placeholderChar = cs := by
  refine (List.map_congr_left fun c hc => ?_).trans (List.map_id cs)
  have named := List.all_eq_true.1 h c hc
  unfold placeholderChar
  split
  · rfl
  · next other =>
    rw [Fragment.isNameChar, Bool.eq_false_iff.2 other, Bool.false_or] at named
    exact (eq_of_beq named).symm

theorem placeholderBase_of_map {field : String} {cs : List Char}
    (h : field.toList.map placeholderChar = cs) (named : IsName cs) :
    placeholderBase field = String.ofList cs := by
  cases cs with
  | nil => exact named.elim
  | cons c rest => simp only [placeholderBase, h, named.1, Bool.false_eq_true, if_false]

/-- A field that is a name is the base of its placeholder. -/
theorem placeholderBase_eq_self {field : String} (h : IsName field.toList) :
    placeholderBase field = field := by
  rw [placeholderBase_of_map (map_placeholderChar h.all) h, String.ofList_toList]

/-- The base of a qualified field has an underscore for the dot. -/
theorem placeholderBase_qualified {table field : String} (ht : IsName table.toList)
    (hf : IsName field.toList) : placeholderBase (table ++ "." ++ field) = table ++ "_" ++ field := by
  have mapped : (table ++ "." ++ field).toList.map placeholderChar = (table ++ "_" ++ field).toList := by
    simp only [String.toList_append, List.map_append, map_placeholderChar ht.all,
      map_placeholderChar hf.all]
    rfl
  have named : IsName (table ++ "_" ++ field).toList := by
    simp only [String.toList_append, List.append_assoc]
    refine ht.append ?_
    rw [List.all_append, hf.all]
    rfl
  rw [placeholderBase_of_map mapped named, String.ofList_toList]

/-- A name between backticks. -/
def quoted (name : String) : String := "\x60" ++ name ++ "\x60"

theorem trimList_of_not_mem {cs : List Char} {c : Char} (h : c ∉ cs) :
    Text.trimList (· == c) cs = cs := by
  have keep : ∀ ds : List Char, c ∉ ds → ds.dropWhile (· == c) = ds := by
    intro ds hd
    cases ds with
    | nil => rfl
    | cons d ds =>
        have other : (d == c) = false := beq_false_of_ne fun same => hd (same ▸ List.mem_cons_self ..)
        rw [List.dropWhile_cons_of_neg (by rw [other]; exact Bool.false_ne_true)]
  have reversed : c ∉ cs.reverse := fun member => h (List.mem_reverse.1 member)
  simp only [Text.trimList, Text.trimStartList, Text.trimEndList, keep cs h, keep _ reversed,
    List.reverse_reverse]

theorem escapePart_of_isName {cs : List Char} (h : IsName cs) :
    escapePart cs = quote :: cs ++ [quote] := by
  have noStar : cs ≠ ['*'] := by
    rintro rfl
    exact absurd h (by decide)
  have noQuote : quote ∉ cs := h.not_mem (by decide)
  have same : cs.flatMap (fun c => if c = quote then [c, c] else [c]) = cs := by
    refine Eq.trans ?_ (List.flatMap_singleton' cs)
    refine List.flatMap_congr fun c hc => ?_
    exact if_neg fun same : c = quote => noQuote (same ▸ hc)
  rw [escapePart, if_neg noStar, trimList_of_not_mem noQuote, same]

theorem splitOn_of_isName {cs : List Char} (h : IsName cs) : cs.splitOn '.' = [cs] :=
  List.splitOn_eq_singleton (h.not_mem (by decide))

/-- A name is escaped by the backticks around it alone. -/
theorem escape_eq_quoted {name : String} (h : IsName name.toList) : escape name = quoted name := by
  rw [escape, splitOn_of_isName h, List.map_singleton, List.intercalate_singleton, escapePart_of_isName h]
  apply String.toList_injective
  simp only [String.toList_ofList, quoted, String.toList_append]
  rfl

/-- A qualified name is escaped part by part. -/
theorem escape_qualified {table field : String} (ht : IsName table.toList) (hf : IsName field.toList) :
    escape (table ++ "." ++ field) = quoted table ++ "." ++ quoted field := by
  have parts : (table ++ "." ++ field).toList.splitOn '.' = [table.toList, field.toList] := by
    have cut : (table ++ "." ++ field).toList = table.toList ++ '.' :: field.toList := by
      simp only [String.toList_append, List.append_assoc]
      rfl
    rw [cut, List.splitOn_append_cons_self, splitOn_of_isName ht, splitOn_of_isName hf]
    rfl
  rw [escape, parts]
  apply String.toList_injective
  simp only [List.map_cons, List.map_nil, escapePart_of_isName ht, escapePart_of_isName hf,
    String.toList_ofList, quoted, String.toList_append]
  simp [List.intercalate, quote]

end Identifier

namespace Bindings

theorem contains_iff {b : Bindings} {placeholder : String} :
    b.contains placeholder = true ↔ placeholder ∈ b.placeholders := by
  simp only [contains, placeholders, List.any_eq_true, List.mem_map, beq_iff_eq]

theorem isName_candidate {base : String} (h : Identifier.IsName base.toList) (n : Nat) :
    Identifier.IsName (candidate base n).toList := by
  have digits : (toString n).toList.all Fragment.isNameChar = true := by
    refine List.all_eq_true.2 fun c hc => ?_
    have member : c ∈ Nat.toDigits 10 n := Nat.toList_repr ▸ hc
    have digit : c.isDigit = true := Nat.isDigit_of_mem_toDigits (by decide) (by decide) member
    rw [Fragment.isNameChar, Char.isAlphanum, digit, Bool.or_true, Bool.true_or]
  simp only [candidate, String.toList_append, List.append_assoc]
  refine h.append ?_
  rw [List.all_append, digits]
  rfl

theorem isName_firstFree {b : Bindings} {base : String} (h : Identifier.IsName base.toList) (fuel n : Nat) :
    Identifier.IsName (b.firstFree base fuel n).toList := by
  induction fuel generalizing n with
  | zero => exact h
  | succ fuel ih =>
      unfold firstFree
      split
      · exact ih (n + 1)
      · exact isName_candidate h n

/-- What is handed out as a placeholder is a name. -/
theorem isName_allocate (b : Bindings) {base : String} (h : Identifier.IsName base.toList) :
    Identifier.IsName (b.allocate base).toList := by
  unfold allocate
  split
  · exact isName_firstFree h _ _
  · exact h

end Bindings

end TableMapper
