import TableMapper.FieldType
import TableMapper.Proofs.Calendar.Text
import TableMapper.Proofs.Number.Shortest

/-! # Values in keys

The text under which a value enters the keys of caches and of indexed results. Values of one type enter alike
when they are equal, and otherwise in four cases: bytes are only counted, all numbers that are none are
one, a leap second may look like the second behind it, and documents stand for their compact text. Where NULL is admitted, it enters like the text without
characters, as nothing else does.
-/

namespace TableMapper

/-! ## Texts are not empty -/

theorem Number.Decimals.positional_ne_nil (d : Number.Decimals) : d.positional ≠ [] := by
  unfold positional
  dsimp only
  split
  · simp
  · next behind =>
    split
    · next short =>
      -- there are as many characters as stand before the point
      intro none
      have long := congrArg List.length none
      simp only [List.length_append, List.length_replicate, List.length_nil] at long
      omega
    · simp

theorem Number.Binary.text_ne_empty {f : Number.BinaryFormat} (x : Number.Binary f) : x.text ≠ "" := by
  unfold Number.Binary.text
  split
  · decide
  · rw [ne_eq, String.ofList_eq_empty_iff]
    split
    · simp
    · split
      · simp
      · exact x.shortest.positional_ne_nil

theorem Number.Decimal.text_ne_empty (d : Number.Decimal) : d.text ≠ "" := by
  intro none
  have chars := d.toList_text
  rw [none] at chars
  have rest := (List.append_eq_nil_iff.mp chars.symm).2
  exact d.length_fraction.2 (List.append_eq_nil_iff.mp rest).1

theorem Number.toString_ne_empty (n : Int) : toString n ≠ "" := by
  rw [Int.toString_eq_repr, Int.repr_eq_if]
  split
  · rw [← String.toList_inj.ne]
    exact Nat.toList_repr ▸ Number.digits_ne_nil n.toNat
  · simp

theorem Json.realDigits_ne_nil (d : Number.Decimals) : realDigits d ≠ [] := by
  unfold realDigits
  dsimp only
  split
  · split
    · simp
    · exact d.positional_ne_nil
  · simp

theorem Json.print_ne_nil (j : Json) : j.print ≠ [] := by
  cases j with
  | null => simp [print]
  | bool b => cases b <;> simp [print]
  | number n =>
      cases n with
      | whole n => simpa [print, numberText] using Number.toString_ne_empty n
      | real x => simp [print, numberText, realText, realDigits_ne_nil]
  | text s => simp [print, quote]
  | array items => simp [print]
  | object members => simp [print]

namespace Value

theorem display_ne_empty (v : Value) : v.display ≠ "" := by
  cases v with
  | null => decide
  | bool b => cases b <;> decide
  | integer n => exact Number.toString_ne_empty n.val
  | single x | double x => exact x.text_ne_empty
  | text s => simp [display, Text.Quoted.encode]
  | bytes b => simp [display]
  | date d => simp [display, Date.text]
  | dateTime t => simp [display, DateTime.text]
  | time t => simp [display, Time.text]
  | decimal d => exact d.text_ne_empty
  | json j => simp [display, Json.compact, Json.print_ne_nil j]

theorem keyText_eq_empty_iff {v : Value} : v.keyText = "" ↔ v = .null ∨ v = .text "" := by
  cases v with
  | null => exact iff_of_true rfl (.inl rfl)
  | text s => simp [keyText]
  | _ => simp [keyText, display_ne_empty]

/-! ## Values that enter alike -/

/-- Two values of one type that enter keys as the same text. -/
def Alike : Value → Value → Prop
  | .single x, .single y => x = y ∨ x.isNaN = true ∧ y.isNaN = true
  | .double x, .double y => x = y ∨ x.isNaN = true ∧ y.isNaN = true
  | .bytes a, .bytes b => a.size = b.size
  | .dateTime t, .dateTime u => t.date = u.date ∧ t.time.Alike u.time
  | .time t, .time u => t.Alike u
  | .json a, .json b => a.compact = b.compact
  | v, w => v = w

theorem keyText_bytes_eq_iff {a b : ByteArray} :
    (Value.bytes a).keyText = (Value.bytes b).keyText ↔ a.size = b.size := by
  have shown : ∀ a : ByteArray, (Value.bytes a).keyText.toList =
      '<' :: (Number.digits a.size ++ " bytes>".toList) := by
    intro a
    have joined : (Value.bytes a).keyText = "<" ++ a.size.repr ++ " bytes>" := rfl
    rw [joined, String.toList_append, String.toList_append, Nat.toList_repr]
    rfl
  constructor
  · intro same
    have chars := congrArg String.toList same
    rw [shown, shown] at chars
    exact Number.digits_injective (List.append_cancel_right (List.cons.inj chars).2)
  · intro same
    apply String.toList_injective
    rw [shown, shown, same]

/-- The formats of floating-point numbers show what is no number as one word, and all others apart. -/
theorem text_eq_iff {f : Number.BinaryFormat} (bits : 0 < f.fractionBits)
    (small : 2 * 2 ^ f.fractionBits ≤ 5 * 10 ^ 16) {x y : Number.Binary f} :
    x.text = y.text ↔ x = y ∨ x.isNaN = true ∧ y.isNaN = true := by
  have word : ∀ {x : Number.Binary f}, x.isNaN = true → x.text = "NaN" := fun h => if_pos h
  have apart : ∀ {x : Number.Binary f}, x.isNaN = false → x.text ≠ "NaN" := by
    intro x h same
    have letter : 'N' ∈ x.text.toList := by rw [same]; decide
    rw [Number.Binary.toList_text h] at letter
    have magnitude : 'N' ∉ x.magnitude := by
      unfold Number.Binary.magnitude
      split
      · decide
      · exact Number.Decimals.not_mem_positional (fun _ => Number.Binary.isDigit_of_mem_shortest)
          (by decide) (by decide)
    split at letter
    · exact magnitude ((List.mem_cons.1 letter).resolve_left (by decide))
    · exact magnitude letter
  constructor
  · intro same
    cases hx : x.isNaN <;> cases hy : y.isNaN
    · exact .inl (Number.Binary.text_injective bits small hx hy same)
    · exact absurd (same.trans (word hy)) (apart hx)
    · exact absurd (same.symm.trans (word hx)) (apart hy)
    · exact .inr ⟨rfl, rfl⟩
  · rintro (rfl | ⟨hx, hy⟩)
    · rfl
    · rw [word hx, word hy]

/-- Values of a type enter keys as the same text exactly when they are alike. -/
theorem keyText_eq_iff {t : ScalarType} (given : t ≠ .any) {v w : Value} (hv : t.holds v = true)
    (hw : t.holds w = true) : v.keyText = w.keyText ↔ v.Alike w := by
  cases t with
  | bool =>
      cases v with
      | bool a =>
          cases w with
          | bool b =>
              have apart : ∀ a b : Bool, (Value.bool a).keyText = (Value.bool b).keyText → a = b := by decide
              exact ⟨fun same => congrArg Value.bool (apart a b same), congrArg keyText⟩
          | _ => simp [ScalarType.holds] at hw
      | _ => simp [ScalarType.holds] at hv
  | integer kind =>
      cases v with
      | integer m =>
          cases w with
          | integer n =>
              have kinds : m.kind = n.kind := by
                simp only [ScalarType.holds, beq_iff_eq] at hv hw
                rw [hv, hw]
              exact ⟨fun same => congrArg Value.integer (Integer.text_injective kinds same), congrArg keyText⟩
          | _ => simp [ScalarType.holds] at hw
      | _ => simp [ScalarType.holds] at hv
  | single =>
      cases v with
      | single x =>
          cases w with
          | single y => exact text_eq_iff (by decide) (by decide)
          | _ => simp [ScalarType.holds] at hw
      | _ => simp [ScalarType.holds] at hv
  | double =>
      cases v with
      | double x =>
          cases w with
          | double y => exact text_eq_iff (by decide) (by decide)
          | _ => simp [ScalarType.holds] at hw
      | _ => simp [ScalarType.holds] at hv
  | text =>
      cases v with
      | text a =>
          cases w with
          | text b => exact ⟨congrArg Value.text, congrArg keyText⟩
          | _ => simp [ScalarType.holds] at hw
      | _ => simp [ScalarType.holds] at hv
  | bytes =>
      cases v with
      | bytes a =>
          cases w with
          | bytes b => exact keyText_bytes_eq_iff
          | _ => simp [ScalarType.holds] at hw
      | _ => simp [ScalarType.holds] at hv
  | date =>
      cases v with
      | date a =>
          cases w with
          | date b => exact ⟨fun same => congrArg Value.date (Date.text_injective same), congrArg keyText⟩
          | _ => simp [ScalarType.holds] at hw
      | _ => simp [ScalarType.holds] at hv
  | dateTime =>
      cases v with
      | dateTime a =>
          cases w with
          | dateTime b => exact DateTime.text_eq_iff
          | _ => simp [ScalarType.holds] at hw
      | _ => simp [ScalarType.holds] at hv
  | time =>
      cases v with
      | time a =>
          cases w with
          | time b => exact Time.text_eq_iff
          | _ => simp [ScalarType.holds] at hw
      | _ => simp [ScalarType.holds] at hv
  | decimal =>
      cases v with
      | decimal a =>
          cases w with
          | decimal b =>
              exact ⟨fun same => congrArg Value.decimal (Number.Decimal.text_injective same), congrArg keyText⟩
          | _ => simp [ScalarType.holds] at hw
      | _ => simp [ScalarType.holds] at hv
  | json =>
      cases v with
      | json a =>
          cases w with
          | json b => exact Iff.rfl
          | _ => simp [ScalarType.holds] at hw
      | _ => simp [ScalarType.holds] at hv
  | any => exact absurd rfl given

/-- Two values of a field that enter keys as the same text. -/
def SameEntry (v w : Value) : Prop := v.Alike w ∨ v = .null ∧ w = .text "" ∨ v = .text "" ∧ w = .null

theorem null_alike_iff {v : Value} : Value.null.Alike v ↔ v = .null := eq_comm

theorem alike_null_iff {v : Value} : v.Alike .null ↔ v = .null := by
  cases v <;> exact Iff.rfl

theorem holds_of_ne_null {t : FieldType} {v : Value} (holds : t.holds v = true) (some : v ≠ .null) :
    t.scalar.holds v = true := by
  cases v with
  | null => exact absurd rfl some
  | _ => simpa [FieldType.holds, isNull] using holds

/-- Values that a field may have enter keys as the same text exactly when they are the same entry. -/
theorem keyText_eq_iff_of_field {t : FieldType} (given : t.scalar ≠ .any) {v w : Value} (hv : t.holds v = true)
    (hw : t.holds w = true) : v.keyText = w.keyText ↔ v.SameEntry w := by
  by_cases none : v = .null
  · subst none
    rw [eq_comm, show Value.null.keyText = "" from rfl, keyText_eq_empty_iff, SameEntry, null_alike_iff]
    simp
  · by_cases none' : w = .null
    · subst none'
      rw [show Value.null.keyText = "" from rfl, keyText_eq_empty_iff, SameEntry, alike_null_iff]
      simp
    · rw [keyText_eq_iff given (holds_of_ne_null hv none) (holds_of_ne_null hw none'), SameEntry]
      simp [none, none']

end Value

end TableMapper
