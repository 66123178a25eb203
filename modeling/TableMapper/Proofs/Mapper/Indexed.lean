import TableMapper.Proofs.KeyMap
import TableMapper.Proofs.Mapper.Grouping
import TableMapper.Proofs.Outcome
import TableMapper.Proofs.Value.KeyText

/-! # Indexed results

The entities of an indexed result stand under the texts of a column, and of two rows with one text the later one
stays. So the result has every row exactly when no two rows have one text, which is more than that no two rows have
one value: bytes are only counted, and NULL has the text of the text without characters.
-/

namespace TableMapper.Select

open Decodable (ofRow)

variable {α : Type}

/-- The rows have values in a column and are read as entities. -/
def ReadUnder [Decodable α] (column : String) (rows : List Row) (read : List (Value × α)) : Prop :=
  List.Forall₂ (fun r e => r.find? column = some e.1 ∧ ofRow r = .ok e.2) rows read

/-- Entities under the texts of their values. -/
def entries (read : List (Value × α)) : List (String × α) := read.map fun e => (e.1.keyText, e.2)

theorem decodeIndexed_eq [Decodable α] {column : String} {rows : List Row} {read : List (Value × α)}
    (under : ReadUnder column rows read) (m : KeyMap α) :
    decodeIndexed α column rows m = .ok ((entries read).foldl (fun m (key, e) => m.insert key e) m) := by
  induction under generalizing m with
  | nil => rfl
  | @cons r e rows read first _ ih =>
      have value : r.value column = .ok e.1 := by rw [Row.value, first.1]
      rw [decodeIndexed, value, first.2]
      exact ih (m.insert e.1.keyText e.2)

theorem run_fetchIndexed [Entity α] {σ : Type} {x : Executor σ} {q : Query} {index : String} {st : Statement}
    {s s' : σ} {rows : List Row} {read : List (Value × α)} (indexed : q.listIndex = some index)
    (built : q.build .select = .ok st) (fetched : (x.fetchAll st).run.run s = (.ok rows, s'))
    (under : ReadUnder index rows read) :
    (fetchIndexed α x q).run.run s = (.ok (KeyMap.ofList (entries read)), s') := by
  have rowsFetched : (fetchRows x q).run.run s = (.ok rows, s') := by
    rw [fetchRows, built]
    exact fetched
  rw [fetchIndexed, indexed]
  refine (run_bind_of_ok rowsFetched _).trans ?_
  rw [decodeIndexed_eq under]
  rfl

theorem nodup_entries_iff (read : List (Value × α)) :
    ((entries read).map (·.1)).Nodup ↔ read.Pairwise fun e f => e.1.keyText ≠ f.1.keyText := by
  rw [entries, List.map_map, List.Nodup, List.pairwise_map]
  rfl

/-- An indexed result has under a text the entity of the last row with the text. It has one entry for each row,
with the row's entity, exactly when no two rows have one text. For values that a field may have, that is when no two
of them are the same entry. -/
theorem fetchIndexed_complete_iff [Entity α] {σ : Type} {x : Executor σ} {q : Query} {index : String}
    {st : Statement} {s s' : σ} {rows : List Row} {read : List (Value × α)} (indexed : q.listIndex = some index)
    (built : q.build .select = .ok st) (fetched : (x.fetchAll st).run.run s = (.ok rows, s'))
    (under : ReadUnder index rows read) :
    ∃ m, (fetchIndexed α x q).run.run s = (.ok m, s') ∧
      (∀ key, m.get? key = (entries read).reverse.lookup key) ∧
      (m.toList.Perm (entries read) ↔ read.Pairwise fun e f => e.1.keyText ≠ f.1.keyText) ∧
      ∀ type : FieldType, type.scalar ≠ .any → (∀ e ∈ read, type.holds e.1 = true) →
        (m.toList.Perm (entries read) ↔ read.Pairwise fun e f => ¬ e.1.SameEntry f.1) := by
  have complete := KeyMap.perm_ofList_iff.trans (nodup_entries_iff read)
  refine ⟨_, run_fetchIndexed indexed built fetched under, KeyMap.get?_ofList _, complete, ?_⟩
  intro type given typed
  rw [complete]
  apply List.Pairwise.iff_of_mem
  intro e f he hf
  exact not_congr (Value.keyText_eq_iff_of_field given (typed e he) (typed f hf))

/-! ## Addresses and files by a column -/

/-- A database in which every query has the same rows. -/
def answering (rows : List Row) : Executor Unit := ⟨fun _ => pure ⟨0, none⟩, fun _ => pure rows⟩

/-- Addresses with their zip codes, one of them without any. -/
def zipped : List (Value × Record Shop.address) :=
  [(.text "2000", ⟨[.integer (.one .int64), .text "Sydney", .text "2000"], rfl, rfl, rfl, trivial⟩),
    (.null, ⟨[.integer (.zero .int64), .text "Dublin", .null], rfl, rfl, rfl, trivial⟩),
    (.text "1000", ⟨[.integer (.zero .int64), .text "Sofia", .text "1000"], rfl, rfl, rfl, trivial⟩)]

theorem fetchIndexed_complete_zipped :
    ∃ m, (fetchIndexed (Record Shop.address) (answering (zipped.map fun e => ⟨e.2.cells⟩))
        ((baseQuery (Record Shop.address)).setListIndex "zip")).run.run () = (.ok m, ()) ∧
      m.toList.Perm (entries zipped) := by
  have built : ((baseQuery (Record Shop.address)).setListIndex "zip").build .select =
      .ok ⟨"SELECT \x60id\x60, \x60city\x60, \x60zip\x60 FROM \x60address\x60", []⟩ := by decide +kernel
  have under : ReadUnder "zip" (zipped.map fun e => ⟨e.2.cells⟩) zipped :=
    .cons ⟨by decide +kernel, rfl⟩ (.cons ⟨by decide +kernel, rfl⟩ (.cons ⟨by decide +kernel, rfl⟩ .nil))
  obtain ⟨m, ran, -, -, complete⟩ :=
    fetchIndexed_complete_iff (s := ()) (x := answering (zipped.map fun e => ⟨e.2.cells⟩)) rfl built rfl under
  have apart : zipped.Pairwise fun e f => ¬ e.1.SameEntry f.1 := by
    simp [zipped, Value.SameEntry, Value.Alike]
  exact ⟨m, ran, (complete ⟨.text, true⟩ (by decide) (by decide +kernel)).mpr apart⟩

/-- Two files under their hashes. -/
def hashed : List (Value × Record hashedFile) :=
  [(.bytes ⟨#[0xf0]⟩, fileOf 0xf0 "a"), (.bytes ⟨#[0xf1]⟩, fileOf 0xf1 "c")]

/-- The hashes are different and of one length, and one file is left. -/
theorem fetchIndexed_not_complete :
    ReadUnder "hash" (hashed.map fun e => ⟨e.2.cells⟩) hashed ∧ (hashed.map (·.1)).Nodup ∧
      ∃ m, (fetchIndexed (Record hashedFile) (answering (hashed.map fun e => ⟨e.2.cells⟩))
          ((baseQuery (Record hashedFile)).setListIndex "hash")).run.run () = (.ok m, ()) ∧
        m.toList = [("<1 bytes>", fileOf 0xf1 "c")] := by
  have built : ((baseQuery (Record hashedFile)).setListIndex "hash").build .select =
      .ok ⟨"SELECT \x60hash\x60, \x60name\x60 FROM \x60file\x60", []⟩ := by decide +kernel
  have under : ReadUnder "hash" (hashed.map fun e => ⟨e.2.cells⟩) hashed :=
    .cons ⟨by decide +kernel, rfl⟩ (.cons ⟨by decide +kernel, rfl⟩ .nil)
  exact ⟨under, by decide +kernel, _, run_fetchIndexed (s := ()) rfl built rfl under, rfl⟩

end TableMapper.Select
