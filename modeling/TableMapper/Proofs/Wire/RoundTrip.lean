import TableMapper.Proofs.Mapper.RecordKey
import TableMapper.Proofs.Number.Decimal
import TableMapper.Proofs.Row
import TableMapper.Shop
import TableMapper.Wire

/-! # Records sent and received

On the wire a value loses its type: integers are 64 bits wide, truth values are integers, decimals and
documents are text, bytes may look like text, and midnight has no time. The type of its column undoes that,
so that a record comes back from the row of its values. Only a time with the fraction of a leap second that is not at
the end of a minute is sent as a clock reading that is refused. Main statement: `ofRow_toWire_values`.
-/

namespace TableMapper

namespace Value

/-- What the wire tells apart: years of 16 bits, microseconds, and documents that their text gives back. -/
def Sendable : Value → Prop
  | .date d => 0 ≤ d.year ∧ d.year < WireValue.yearLimit
  | .dateTime t => (0 ≤ t.date.year ∧ t.date.year < WireValue.yearLimit) ∧ t.time.nano % 1000 = 0
  | .time t => t.nano % 1000 = 0
  | .json j => Json.parse? j.compact = some j
  | _ => True

instance : (v : Value) → Decidable v.Sendable
  | .date _ => inferInstanceAs (Decidable (_ ∧ _))
  | .dateTime _ => inferInstanceAs (Decidable (_ ∧ _))
  | .time _ => inferInstanceAs (Decidable (_ = _))
  | .json _ => inferInstanceAs (Decidable (_ = _))
  | .null | .bool _ | .integer _ | .single _ | .double _ | .text _ | .bytes _ | .decimal _ => .isTrue trivial

end Value

namespace Value

/-- What a clock shows: no fraction of a leap second but at the end of a minute. -/
def OnClock : Value → Prop
  | .dateTime t => LeapsAtEnd t.time.second t.time.nano
  | .time t => LeapsAtEnd t.second t.nano
  | _ => True

instance : (v : Value) → Decidable v.OnClock
  | .dateTime _ | .time _ => inferInstanceAs (Decidable (LeapsAtEnd _ _))
  | .null | .bool _ | .integer _ | .single _ | .double _ | .text _ | .bytes _ | .date _ | .decimal _ | .json _ =>
      .isTrue trivial

end Value

/-! ## Values -/

namespace WireValue

theorem toValue_text (s : String) : (bytes s.toUTF8).toValue = .ok (.text s) := by
  have read : String.fromUTF8? s.toUTF8 = some s := Value.text?_bytes_eq_some_iff.mpr rfl
  rw [toValue, read]

/-- Bytes come back as text or as they are; either has the same bytes. -/
theorem convertBytes_toValue (b : ByteArray) :
    ∃ w, (bytes b).toValue = .ok w ∧ ScalarType.convertBytes w = .ok (.bytes b) := by
  cases read : String.fromUTF8? b with
  | none => exact ⟨.bytes b, by rw [toValue, read], rfl⟩
  | some s =>
      have same : b = s.toUTF8 := Value.text?_bytes_eq_some_iff.mp read
      exact ⟨.text s, by rw [toValue, read], by rw [ScalarType.convertBytes, same]⟩

theorem wholeValue_of_fits {kind : IntKind} {n : Int} (h : kind.Fits n) :
    wholeValue kind n = .ok (.integer ⟨kind, n, h⟩) := by
  rw [wholeValue, Integer.ofInt?_of_fits h]

/-- Integers of every kind fit into 64 bits, with a sign if the kind has one. -/
theorem exists_toValue_integer (n : Integer) :
    ∃ m : Integer, (ofValue (.integer n)).toValue = .ok (.integer m) ∧ m.val = n.val := by
  have bounds : n.kind.least ≤ n.val ∧ n.val ≤ n.kind.greatest := n.fits
  cases signed : n.kind.signed with
  | true =>
      have fits : IntKind.int64.Fits n.val := by
        have low : IntKind.int64.least ≤ n.kind.least := by
          cases kind : n.kind with
          | int8 | int16 | int32 | int64 => decide
          | uint8 | uint16 | uint32 | uint64 => rw [kind] at signed; cases signed
        have high : n.kind.greatest ≤ IntKind.int64.greatest := by
          cases kind : n.kind with
          | int8 | int16 | int32 | int64 => decide
          | uint8 | uint16 | uint32 | uint64 => rw [kind] at signed; cases signed
        exact ⟨Int.le_trans low bounds.1, Int.le_trans bounds.2 high⟩
      refine ⟨⟨.int64, n.val, fits⟩, ?_, rfl⟩
      rw [ofValue, signed, if_pos rfl, toValue, wholeValue_of_fits fits]
  | false =>
      have low : 0 ≤ n.val := by
        have least : n.kind.least = 0 := by rw [IntKind.least, signed, if_neg Bool.false_ne_true]
        exact least ▸ bounds.1
      have fits : IntKind.uint64.Fits n.val := by
        have high : n.kind.greatest ≤ IntKind.uint64.greatest := by
          cases kind : n.kind with
          | uint8 | uint16 | uint32 | uint64 => decide
          | int8 | int16 | int32 | int64 => rw [kind] at signed; cases signed
        exact ⟨low, Int.le_trans bounds.2 high⟩
      refine ⟨⟨.uint64, n.val, fits⟩, ?_, rfl⟩
      rw [ofValue, signed, if_neg Bool.false_ne_true, toValue, Int.toNat_of_nonneg low, wholeValue_of_fits fits]

theorem clock_of_micro (t : Time) (micro : t.nano % 1000 = 0) (leaps : LeapsAtEnd t.second t.nano) :
    clock t.hour t.minute t.second (t.nano / 1000) = .ok t := by
  have nano : t.nano / 1000 * 1000 = t.nano := by omega
  have read : Time.ofParts? t.hour t.minute t.second (t.nano / 1000 * 1000) = some t := by
    rw [nano]
    exact dif_pos ⟨t.isTime, leaps⟩
  rw [clock, read]

theorem clock_of_not_leaps (t : Time) (micro : t.nano % 1000 = 0) (leaps : ¬ LeapsAtEnd t.second t.nano) :
    clock t.hour t.minute t.second (t.nano / 1000) =
      .error (.typeConversion (.badClock t.hour t.minute t.second (t.nano / 1000))) := by
  have nano : t.nano / 1000 * 1000 = t.nano := by omega
  have read : Time.ofParts? t.hour t.minute t.second (t.nano / 1000 * 1000) = none := by
    rw [nano]
    exact dif_neg fun named => leaps named.2
  rw [clock, read]

theorem ofParts?_of_years (d : Date) (years : 0 ≤ d.year ∧ d.year < yearLimit) :
    Date.ofParts? ((d.year % yearLimit).toNat : Int) d.month d.day = some d := by
  have year : ((d.year % yearLimit).toNat : Int) = d.year := by
    rw [Int.emod_eq_of_lt years.1 years.2]
    exact Int.toNat_of_nonneg years.1
  rw [year]
  exact dif_pos d.isDay

/-- A day and a time come back as they are, or as the day alone at midnight. -/
theorem toValue_ofDateTime (d : Date) (t : Time) (years : 0 ≤ d.year ∧ d.year < yearLimit)
    (micro : t.nano % 1000 = 0) (leaps : LeapsAtEnd t.second t.nano) :
    (ofDateTime d t).toValue = .ok (if t = .midnight then .date d else .dateTime ⟨d, t⟩) := by
  have midnight : t = .midnight ↔ t.hour = 0 ∧ t.minute = 0 ∧ t.second = 0 ∧ t.nano / 1000 = 0 := by
    constructor
    · rintro rfl
      exact ⟨rfl, rfl, rfl, rfl⟩
    · intro parts
      obtain ⟨hour, minute, second, nano, isTime⟩ := t
      obtain ⟨rfl, rfl, rfl, none⟩ := parts
      change nano % 1000 = 0 at micro
      change nano / 1000 = 0 at none
      obtain rfl : nano = 0 := by omega
      rfl
  rw [ofDateTime, toValue, ofParts?_of_years d years, clock_of_micro t micro leaps]
  simp only [← midnight]
  split <;> rfl

/-- What no clock shows is sent as a clock reading that is refused. -/
theorem toValue_of_not_onClock {v : Value} (sendable : v.Sendable) (off : ¬ v.OnClock) :
    ∃ hour minute second micro,
      (ofValue v).toValue = .error (.typeConversion (.badClock hour minute second micro)) := by
  cases v with
  | dateTime t =>
      have leap : nanosPerSecond ≤ t.time.nano := (Classical.not_imp.mp off).1
      have later : ¬ (t.time.hour = 0 ∧ t.time.minute = 0 ∧ t.time.second = 0 ∧ t.time.nano / 1000 = 0) := by
        unfold nanosPerSecond at leap
        omega
      refine ⟨t.time.hour, t.time.minute, t.time.second, t.time.nano / 1000, ?_⟩
      rw [ofValue, ofDateTime, toValue, ofParts?_of_years t.date sendable.1, clock_of_not_leaps t.time sendable.2 off]
      simp only [if_neg later]
  | time t =>
      have inside : ¬ (false = true ∨ 0 < 0 ∨ 24 ≤ t.hour) := by
        have hour : t.hour < 24 := t.isTime.1
        simpa using hour
      refine ⟨t.hour, t.minute, t.second, t.nano / 1000, ?_⟩
      rw [ofValue, toValue, if_neg inside, clock_of_not_leaps t sendable off]
  | _ => exact (off trivial).elim

end WireValue

/-! ## Types -/

/-- A type takes back what a value of it became on the wire. -/
theorem ScalarType.convert_toValue {t : ScalarType} (typed : t ≠ .any) {v : Value} (h : t.holds v = true)
    (sendable : v.Sendable) (shown : v.OnClock) :
    ∃ w, (WireValue.ofValue v).toValue = .ok w ∧ t.convert w = .ok v := by
  unfold holds at h
  split at h
  · next b => cases b <;> exact ⟨_, rfl, rfl⟩
  · next kind n =>
    obtain ⟨m, received, same⟩ := WireValue.exists_toValue_integer n
    have kinds : n.kind = kind := beq_iff_eq.mp h
    refine ⟨.integer m, received, ?_⟩
    rw [convert, convertInteger, same, ← kinds, Integer.ofInt?_val]
  · exact ⟨_, rfl, rfl⟩
  · exact ⟨_, rfl, rfl⟩
  · next s => exact ⟨.text s, WireValue.toValue_text s, rfl⟩
  · next b => exact WireValue.convertBytes_toValue b
  · next d => exact ⟨_, WireValue.toValue_ofDateTime d .midnight sendable rfl (by decide), rfl⟩
  · next t =>
    refine ⟨_, WireValue.toValue_ofDateTime t.date t.time sendable.1 sendable.2 shown, ?_⟩
    -- the day alone stands for its midnight
    split
    · next midnight => rw [convert, convertDateTime, ← midnight]
    · rfl
  · next t =>
    have inside : ¬ (false = true ∨ 0 < 0 ∨ 24 ≤ t.hour) := by
      have hour : t.hour < 24 := t.isTime.1
      simpa using hour
    refine ⟨.time t, ?_, rfl⟩
    rw [WireValue.ofValue, WireValue.toValue, if_neg inside, WireValue.clock_of_micro t sendable shown]
  · next d =>
    refine ⟨.text d.text, WireValue.toValue_text d.text, ?_⟩
    rw [convert, convertDecimal, Number.Decimal.read?_text]
  · next j =>
    have read : Json.parse? j.compact = some j := sendable
    refine ⟨.text j.compact, WireValue.toValue_text j.compact, ?_⟩
    rw [convert, convertJson, read]
  · exact (typed rfl).elim
  · cases h

theorem ScalarType.convert_null {t : ScalarType} (typed : t ≠ .any) (v : Value) : t.convert .null ≠ .ok v := by
  cases t with
  | any => exact (typed rfl).elim
  | _ => exact mismatch_ne_ok

theorem FieldType.convert_toValue {t : FieldType} (typed : t.scalar ≠ .any) {v : Value} (h : t.holds v = true)
    (sendable : v.Sendable) (shown : v.OnClock) :
    ∃ w, (WireValue.ofValue v).toValue = .ok w ∧ t.convert w = .ok v := by
  unfold holds at h
  obtain none | held := (Bool.or_eq_true _ _).mp h
  · obtain ⟨nullable, isNull⟩ := (Bool.and_eq_true _ _).mp none
    cases v with
    | null => exact ⟨.null, rfl, by rw [convert, nullable]; rfl⟩
    | _ => cases isNull
  · obtain ⟨w, received, converted⟩ := ScalarType.convert_toValue typed held sendable shown
    refine ⟨w, received, ?_⟩
    have some : w.isNull = false := by
      cases w with
      | null => exact (ScalarType.convert_null typed v converted).elim
      | _ => rfl
    rw [convert, some, Bool.and_false, if_neg Bool.false_ne_true, converted]

/-! ## Rows -/

/-- The cells of a row as they are sent. -/
def Row.toWire (cells : List (String × Value)) : List (String × WireValue) :=
  cells.map fun (column, v) => (column, .ofValue v)

def Row.receive (cell : String × WireValue) : Except Error (String × Value) := cell.2.toValue.map (cell.1, ·)

theorem Row.ofWire_eq (cells : List (String × WireValue)) : ofWire cells = (cells.mapM receive).map Row.mk := by
  have each : (fun cell : String × WireValue => do pure (cell.1, ← cell.2.toValue)) = receive := by
    funext cell
    unfold receive
    cases cell.2.toValue <;> rfl
  change (cells.mapM (fun cell => do pure (cell.1, ← cell.2.toValue)) >>= fun values => pure (ofList values)) = _
  rw [each]
  cases cells.mapM receive with
  | error e => rfl
  | ok values => exact congrArg Except.ok (ofList_eq values)

theorem Row.ofWire_cons {column : String} {w : WireValue} {v : Value} {rest : List (String × WireValue)}
    {cells : List (String × Value)} (received : w.toValue = .ok v) (others : ofWire rest = .ok ⟨cells⟩) :
    ofWire ((column, w) :: rest) = .ok ⟨(column, v) :: cells⟩ := by
  have first : receive (column, w) = .ok (column, v) := by rw [receive, received]; rfl
  rw [ofWire_eq] at others ⊢
  rw [List.mapM_cons, first]
  cases values : rest.mapM receive with
  | error e => rw [values] at others; cases others
  | ok vs =>
      rw [values] at others
      cases others
      rfl

theorem Row.ofWire_cons_of_error {column : String} {w : WireValue} {rest : List (String × WireValue)} {e : Error}
    (refused : w.toValue = .error e) : ofWire ((column, w) :: rest) = .error e := by
  have first : receive (column, w) = .error e := by rw [receive, refused]; rfl
  rw [ofWire_eq, List.mapM_cons, first]
  rfl

theorem Row.ofWire_cons_of_rest {column : String} {w : WireValue} {v : Value} {rest : List (String × WireValue)}
    {e : Error} (received : w.toValue = .ok v) (others : ofWire rest = .error e) :
    ofWire ((column, w) :: rest) = .error e := by
  have first : receive (column, w) = .ok (column, v) := by rw [receive, received]; rfl
  rw [ofWire_eq] at others ⊢
  rw [List.mapM_cons, first]
  cases values : rest.mapM receive with
  | error e' =>
      rw [values] at others
      cases others
      rfl
  | ok vs => rw [values] at others; cases others

/-- Fields read back their values from the columns that they were sent in, also behind columns of other
names. -/
theorem RecordField.readAll_of_sent {fs : List RecordField} {vs : List Value} (typed : Typed fs vs)
    (given : ∀ f ∈ fs, f.type.scalar ≠ .any) (distinct : (fs.map (·.column)).Nodup)
    (sendable : ∀ v ∈ vs, v.Sendable) (shown : ∀ v ∈ vs, v.OnClock) :
    ∃ cells, Row.ofWire (Row.toWire ((fs.map (·.column)).zip vs)) = .ok ⟨cells⟩ ∧
      ∀ before : List (String × Value), (∀ f ∈ fs, before.lookup f.column = none) →
        readAll fs ⟨before ++ cells⟩ = .ok vs := by
  -- each field finds its own column behind those of the fields before it
  induction fs generalizing vs with
  | nil =>
      cases vs with
      | nil => exact ⟨[], rfl, fun _ _ => rfl⟩
      | cons v vs => exact typed.elim
  | cons f fs ih =>
      cases vs with
      | nil => exact typed.elim
      | cons v vs =>
          rw [List.forall_mem_cons] at given sendable shown
          rw [List.map_cons, List.nodup_cons] at distinct
          obtain ⟨w, received, converted⟩ := FieldType.convert_toValue given.1 typed.1 sendable.1 shown.1
          obtain ⟨cells, others, read⟩ := ih typed.2 given.2 distinct.2 sendable.2 shown.2
          refine ⟨(f.column, w) :: cells, Row.ofWire_cons received others, ?_⟩
          intro before free
          rw [List.forall_mem_cons] at free
          have found : (before ++ (f.column, w) :: cells).lookup f.column = some w := by
            rw [List.lookup_append, free.1, Option.none_or, List.lookup_cons_self]
          have rest := read (before ++ [(f.column, w)]) ?_
          · rw [List.append_assoc, List.singleton_append] at rest
            simp only [readAll, Row.get, Row.value, Row.find?, found, bind, Except.bind, converted, rest]
          · intro g member
            have other : g.column ≠ f.column := fun same => distinct.1 (same ▸ List.mem_map_of_mem member)
            rw [List.lookup_append, free.2 g member, Option.none_or, List.lookup_cons,
              beq_eq_false_iff_ne.mpr other]
            rfl

/-- A row of fields is refused for the first of its values that no clock shows. -/
theorem RecordField.ofWire_of_not_onClock {fs : List RecordField} {vs : List Value} (typed : Typed fs vs)
    (given : ∀ f ∈ fs, f.type.scalar ≠ .any) (sendable : ∀ v ∈ vs, v.Sendable) (off : ∃ v ∈ vs, ¬ v.OnClock) :
    ∃ hour minute second micro, Row.ofWire (Row.toWire ((fs.map (·.column)).zip vs)) =
      .error (.typeConversion (.badClock hour minute second micro)) := by
  induction fs generalizing vs with
  | nil =>
      cases vs with
      | nil => simp at off
      | cons v vs => exact typed.elim
  | cons f fs ih =>
      cases vs with
      | nil => exact typed.elim
      | cons v vs =>
          rw [List.forall_mem_cons] at given sendable
          by_cases shown : v.OnClock
          · have later : ∃ v ∈ vs, ¬ v.OnClock := by simpa [shown] using off
            obtain ⟨w, received, -⟩ := FieldType.convert_toValue given.1 typed.1 sendable.1 shown
            obtain ⟨hour, minute, second, micro, others⟩ := ih typed.2 given.2 sendable.2 later
            exact ⟨hour, minute, second, micro, Row.ofWire_cons_of_rest received others⟩
          · obtain ⟨hour, minute, second, micro, refused⟩ := WireValue.toValue_of_not_onClock sendable.1 shown
            exact ⟨hour, minute, second, micro, Row.ofWire_cons_of_error refused⟩

/-- A record of distinct, typed columns comes back from the row of its values. -/
theorem Record.ofRow_toWire {t : RecordType} (given : ∀ f ∈ t.fields, f.type.scalar ≠ .any)
    (distinct : t.columns.Nodup) (r : Record t) (sendable : ∀ v ∈ r.values, v.Sendable)
    (shown : ∀ v ∈ r.values, v.OnClock) :
    ∃ row, Row.ofWire (Row.toWire (Entity.values r)) = .ok row ∧ Record.ofRow t row = .ok r := by
  obtain ⟨cells, received, read⟩ := RecordField.readAll_of_sent r.typed given distinct sendable shown
  have same : RecordField.readAll t.fields ⟨cells⟩ = .ok r.values := read [] fun _ _ => rfl
  refine ⟨⟨cells⟩, received, ?_⟩
  unfold Record.ofRow
  split
  · next vs values =>
    obtain rfl : vs = r.values := Except.ok.inj (values.symm.trans same)
    rfl
  · next e failed => cases failed.symm.trans same

namespace Shop

theorem columns_of_mem_tables {t : RecordType} (member : t ∈ tables) :
    (∀ f ∈ t.fields, f.type.scalar ≠ .any) ∧ t.columns.Nodup := by
  simp only [tables, List.mem_cons, List.not_mem_nil, or_false] at member
  rcases member with rfl | rfl | rfl | rfl | rfl | rfl <;> decide

/-- A record of each of the tables comes back from the row of its values, if a clock shows all of them. Otherwise
the row is refused for a clock reading. -/
theorem ofRow_toWire_values {t : RecordType} (member : t ∈ tables) (r : Record t)
    (sendable : ∀ v ∈ r.values, v.Sendable) :
    ((∀ v ∈ r.values, v.OnClock) → ∃ row, Row.ofWire (Row.toWire (Entity.values r)) = .ok row ∧
      (Decodable.ofRow row : Except Error (Record t)) = .ok r) ∧
    ((∃ v ∈ r.values, ¬ v.OnClock) → ∃ hour minute second micro, Row.ofWire (Row.toWire (Entity.values r)) =
      .error (.typeConversion (.badClock hour minute second micro))) := by
  obtain ⟨given, distinct⟩ := columns_of_mem_tables member
  exact ⟨r.ofRow_toWire given distinct sendable, RecordField.ofWire_of_not_onClock r.typed given sendable⟩

/-- A sample at the edges of its columns: bytes that look like text, a leap second, no number, and NULL. -/
def edgeSample : Record sample :=
  ⟨[.integer ⟨.uint8, 255, by decide⟩, .bool true, .text "é.example", .null, .integer ⟨.int16, -32768, by decide⟩,
      .single ⟨true, 0x7fc00001, by decide⟩, .double ⟨true, 0, by decide⟩, .bytes "1.50".toUTF8,
      .time ⟨23, 59, 59, 1999999000, by decide⟩, .date ⟨0, 2, 29, by decide⟩,
      .json (.object [("a", .array [.null, .bool true, .text "b"])]),
      .integer ⟨.uint64, 18446744073709551615, by decide⟩],
    ⟨rfl, rfl, rfl, rfl, rfl, rfl, rfl, rfl, rfl, rfl, rfl, rfl, trivial⟩⟩

def midnightUser : Record user :=
  ⟨[.integer ⟨.uint32, 7, by decide⟩, .text "", .integer ⟨.int32, -1, by decide⟩, .text "NULL", .bool false,
      .decimal ⟨true, 150, 2, by decide, by decide, by decide⟩,
      .dateTime ⟨⟨65535, 12, 31, by decide⟩, .midnight⟩, .null],
    ⟨rfl, rfl, rfl, rfl, rfl, rfl, rfl, rfl, trivial⟩⟩

theorem ofRow_toWire_edges :
    (∀ v ∈ edgeSample.values, v.Sendable ∧ v.OnClock) ∧ (∀ v ∈ midnightUser.values, v.Sendable ∧ v.OnClock) ∧
      (∃ row, Row.ofWire (Row.toWire (Entity.values edgeSample)) = .ok row ∧
        (Decodable.ofRow row : Except Error (Record sample)) = .ok edgeSample) ∧
      ∃ row, Row.ofWire (Row.toWire (Entity.values midnightUser)) = .ok row ∧
        (Decodable.ofRow row : Except Error (Record user)) = .ok midnightUser := by
  have sent : ∀ v ∈ edgeSample.values, v.Sendable ∧ v.OnClock := by decide +kernel
  have sent' : ∀ v ∈ midnightUser.values, v.Sendable ∧ v.OnClock := by decide +kernel
  have member : sample ∈ tables := by simp [tables]
  have member' : user ∈ tables := by simp [tables]
  exact ⟨sent, sent', (ofRow_toWire_values member edgeSample fun v held => (sent v held).1).1 fun v held => (sent v held).2,
    (ofRow_toWire_values member' midnightUser fun v held => (sent' v held).1).1 fun v held => (sent' v held).2⟩

/-- A sample whose time is a third of a leap second behind 23:56:04. -/
def leapSample : Record sample :=
  ⟨[.integer ⟨.uint8, 0, by decide⟩, .bool false, .text "", .null, .null, .single ⟨false, 0, by decide⟩,
      .double ⟨false, 0, by decide⟩, .bytes "".toUTF8, .time ⟨23, 56, 4, 1333333000, by decide⟩,
      .date ⟨2024, 1, 1, by decide⟩, .json .null, .integer ⟨.uint64, 0, by decide⟩],
    ⟨rfl, rfl, rfl, rfl, rfl, rfl, rfl, rfl, rfl, rfl, rfl, rfl, trivial⟩⟩

/-- Not every record of sendable values comes back: a leap second that is not at the end of a minute is refused. -/
theorem not_ofRow_toWire_values :
    ¬ ∀ (t : RecordType), t ∈ tables → ∀ r : Record t, (∀ v ∈ r.values, v.Sendable) →
      ∃ row, Row.ofWire (Row.toWire (Entity.values r)) = .ok row ∧
        (Decodable.ofRow row : Except Error (Record t)) = .ok r := by
  intro all
  obtain ⟨row, received, -⟩ := all sample (by simp [tables]) leapSample (by decide +kernel)
  have refused : (Row.ofWire (Row.toWire (Entity.values leapSample))).toOption.isSome = false := by decide +kernel
  rw [received] at refused
  cases refused

end Shop

end TableMapper
