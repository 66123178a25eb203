import TableMapper.Proofs.KeyMap
import TableMapper.Proofs.Mapper.Statements
import TableMapper.Proofs.Query.Placeholders
import TableMapper.Proofs.Query.QuotedNames
import TableMapper.Proofs.Row
import TableMapper.Shop

/-! # The fields of a joined select

A join adds the columns of the joined side behind the fields of a query, which are qualified from then on.
The fields stay what they were, and so do the entities that are read from the rows, as long as the query has
any: without fields it selects every column of its source, and no longer does once a join has added some.
-/

namespace TableMapper

open Decodable (ofRow columns)

/-! ## The list of fields as text -/

namespace FieldList

/-- The items of a list of fields as text. -/
def listed (calcFoundRows : Bool) (items : List String) : String :=
  (if calcFoundRows then "SQL_CALC_FOUND_ROWS " else "") ++ ", ".intercalate items

/-- Fields as items that are qualified with a source; all of its columns if there are none. -/
def items (source : String) (fields : List Field) : List String :=
  if fields = [] then [Identifier.escape (source ++ ".*")] else fields.map (·.render (some source))

theorem render_eq_listed (l : FieldList) (source : String) :
    l.render (some source) false = .ok (listed l.calcFoundRows (items source l.fields)) := by
  obtain ⟨fields, counting⟩ := l
  cases fields with
  | nil => simp [render, renderFields, listed, items]
  | cons f fields => simp [render, renderFields, listed, items]

end FieldList

open FieldList (listed items)

/-- The fields as a SELECT lists them, which qualifies them once there are joins. -/
def Query.selectList (q : Query) : Except Error String := q.renderFields (!q.joins.isEmpty) false

theorem Query.renderFields_eq_listed {q : Query} {source : String} (named : q.sourceName = some source) :
    q.renderFields true false = .ok (listed q.fields.calcFoundRows (items source q.fields.fields)) := by
  rw [renderFields, if_pos rfl, named, FieldList.render_eq_listed]

/-! ## Labelled columns as items -/

section Labelled

open Identifier (escape)

variable {start name label : String → String} {columns : List String}

/-- A column as an item: where it comes from, and under what label. -/
def labelled (start label : String → String) (c : String) : String := start c ++ " AS " ++ escape (label c)

theorem endsName_comma (rest : String) : ∀ c ∈ (", " ++ rest).toList.head?, Identifier.EndsName c := by
  rw [String.toList_append]
  rintro _ ⟨⟩
  exact ⟨rfl, by decide, by decide⟩

theorem endsName_as (rest : String) : ∀ c ∈ (" AS " ++ rest).toList.head?, Identifier.EndsName c := by
  rw [String.toList_append]
  rintro _ ⟨⟩
  exact ⟨rfl, by decide, by decide⟩

/-- Lists of the same columns have one text if and only if each column has one label as it is written. -/
theorem intercalate_labelled_inj : ", ".intercalate (columns.map (labelled start name)) =
      ", ".intercalate (columns.map (labelled start label)) ↔ ∀ c ∈ columns, escape (name c) = escape (label c) := by
  induction columns with
  | nil => simp
  | cons c columns ih =>
      rw [List.forall_mem_cons, ← ih]
      simp only [List.map_cons]
      cases columns with
      | nil => simp [labelled]
      | cons d columns =>
          simp only [List.map_cons, String.intercalate_cons_cons, labelled, String.append_assoc,
            String.append_right_inj]
          constructor
          · intro same
            obtain ⟨first, others⟩ := Identifier.escape_append_inj (endsName_comma _) (endsName_comma _) same
            exact ⟨first, (String.append_right_inj _).mp others⟩
          · rintro ⟨first, others⟩
            rw [first, others]

/-- A labelled column does not read as a name without a label. -/
theorem intercalate_labelled_ne {column : String → String} (some : columns ≠ []) {name : String}
    {others : List String} (more : others ≠ []) :
    ", ".intercalate (columns.map (labelled (fun c => escape (column c)) label)) ≠
      ", ".intercalate (escape name :: others) := by
  obtain ⟨c, columns, rfl⟩ := List.exists_cons_of_ne_nil some
  intro same
  have first : ∃ rest, ", ".intercalate ((c :: columns).map (labelled (fun c => escape (column c)) label)) =
      escape (column c) ++ (" AS " ++ rest) := by
    cases columns with
    | nil => exact ⟨escape (label c), by simp [labelled, String.append_assoc]⟩
    | cons d columns =>
        simp only [List.map_cons, String.intercalate_cons_cons, labelled, String.append_assoc]
        exact ⟨_, rfl⟩
  obtain ⟨rest, first⟩ := first
  rw [first, String.intercalate_cons_of_ne_nil more, String.append_assoc] at same
  obtain ⟨-, ends⟩ := Identifier.escape_append_inj (endsName_as _) (endsName_comma _) same
  exact absurd (congrArg (·.toList.head?) ends) (by simp)

end Labelled

namespace EntityJoin

open Identifier (escape qualify)

variable {β : Type} [Decodable β]

/-- The field that a column of the joined side is selected as. -/
def field (j : EntityJoin) (c : String) : Field :=
  { name := c, table := some j.join.remoteAlias, label := some (j.naming c) }

/-- A column of the joined side as it is selected from the joined table. -/
def sideColumn (j : EntityJoin) (c : String) : String := escape (qualify (some j.join.remoteAlias) c)

/-- The columns of the joined side as items, each from the joined table and under its name behind the label. -/
def sideItems (j : EntityJoin) (β : Type) [Decodable β] : List String :=
  (columns β).map (labelled j.sideColumn fun c => start j.label ++ c)

/-- The columns of the joined side as items, each under the name that the join gives it. -/
def addedItems (j : EntityJoin) (β : Type) [Decodable β] : List String :=
  (columns β).map (labelled j.sideColumn j.naming)

theorem map_render_field (j : EntityJoin) (source : Option String) :
    ((columns β).map j.field).map (·.render source) = j.addedItems β := by
  rw [List.map_map]
  rfl

theorem addTo_eq (j : EntityJoin) (q : Query) : j.addTo β q =
    { q with
      fields := { q.fields with fields := q.fields.fields ++ (columns β).map j.field }
      joins := q.joins ++ [j.join] } :=
  Select.addFields_eq j.field (columns β) (q.addJoin j.join)

theorem selectList_addTo (j : EntityJoin) {q : Query} {source : String} (named : q.sourceName = some source) :
    (j.addTo β q).selectList =
      .ok (listed q.fields.calcFoundRows (items source (q.fields.fields ++ (columns β).map j.field))) := by
  have prefixed : (!(j.addTo β q).joins.isEmpty) = true := by simp [addTo_eq]
  have source' : (j.addTo β q).sourceName = some source := by rw [addTo_eq]; exact named
  rw [Query.selectList, prefixed, Query.renderFields_eq_listed source', addTo_eq]

/-- Behind other fields, or if there are none to add, the joined side only adds items. -/
theorem items_append (j : EntityJoin) (source : String) {fields : List Field}
    (kept : fields ≠ [] ∨ columns β = []) :
    items source (fields ++ (columns β).map j.field) = items source fields ++ j.addedItems β := by
  by_cases empty : fields = []
  · have none := kept.resolve_left (not_not_intro empty)
    rw [addedItems, none, List.map_nil, List.map_nil, List.append_nil, List.append_nil]
  · rw [items, items, if_neg empty, if_neg (by simp [empty]), List.map_append, map_render_field]

/-- In place of all columns of the source come those of the joined side. -/
theorem items_of_empty (j : EntityJoin) (source : String) (some : columns β ≠ []) :
    items source ((columns β).map j.field) = j.addedItems β := by
  rw [items, if_neg (by simp [some]), map_render_field]

/-- Behind the same items, the columns of the joined side read the same if and only if their labels do. -/
theorem listed_append_addedItems_iff (j : EntityJoin) (counting : Bool) (own : List String) :
    listed counting (own ++ j.addedItems β) = listed counting (own ++ j.sideItems β) ↔
      ∀ c ∈ columns β, escape (j.naming c) = escape (start j.label ++ c) := by
  rw [listed, listed, String.append_right_inj, ← intercalate_labelled_inj, addedItems, sideItems]
  cases columns β with
  | nil => simp
  | cons c columns =>
      cases own with
      | nil => rfl
      | cons item own =>
          rw [String.intercalate_append_of_ne_nil, String.intercalate_append_of_ne_nil, String.append_right_inj]
            <;> simp

/-- The columns of the joined side are not those of the source with the joined side behind them. -/
theorem listed_addedItems_ne (j : EntityJoin) (counting : Bool) (source : String) (some : columns β ≠ []) :
    listed counting (j.addedItems β) ≠ listed counting ([escape (source ++ ".*")] ++ j.sideItems β) := by
  rw [listed, listed, ne_eq, String.append_right_inj]
  exact intercalate_labelled_ne some (by simp [sideItems, some])

end EntityJoin

/-! ## The rows of a joined select -/

/-- What a database returns of one row: the cells of each selected field, and those of all columns of the
source. -/
structure Returned where
  field : Field → List (String × Value)
  all : List (String × Value)

namespace Returned

/-- The row that is returned for a list of fields. -/
def row (o : Returned) (l : FieldList) : Row := ⟨if l.fields = [] then o.all else l.fields.flatMap o.field⟩

/-- The name of the column that comes back for a label: without the backticks at its ends, which are not written. -/
def nameOf (label : String) : String := String.ofList (Text.trimList (· == Identifier.quote) label.toList)

/-- What is returned of the row once it is joined with another, which has given values in its columns. The
fields of the query and the columns of its source have the values that they had, and each added field has a
value under its label. -/
structure Joins (o : Returned) (j : EntityJoin) (β : Type) [Decodable β] (q : Query) (value : String → Value)
    (o' : Returned) : Prop where
  kept : ∀ f ∈ q.fields.fields, o'.field f = o.field f
  all : o'.all = o.all
  added : ∀ c ∈ columns β, o'.field (j.field c) = [(nameOf (j.naming c), value c)]

/-- The row of the joined side on its own. -/
def sideRow (β : Type) [Decodable β] (value : String → Value) : Row := ⟨(columns β).map fun c => (c, value c)⟩

variable {o o' : Returned} {j : EntityJoin} {β : Type} [Decodable β] {q : Query} {value : String → Value}

theorem Joins.flatMap_field (joins : o.Joins j β q value o') : ((columns β).map j.field).flatMap o'.field =
    (sideRow β value).cells.map fun (c, v) => (nameOf (j.naming c), v) := by
  rw [List.flatMap_map, List.flatMap_congr joins.added, ← List.map_eq_flatMap, sideRow, List.map_map]
  rfl

/-- Behind the cells that it had, the row has those of the joined side. -/
theorem Joins.row_eq (joins : o.Joins j β q value o') (kept : q.fields.fields ≠ [] ∨ columns β = []) :
    o'.row (j.addTo β q).fields = ⟨(o.row q.fields).cells ++
      (sideRow β value).cells.map fun (c, v) => (nameOf (j.naming c), v)⟩ := by
  rw [row, row, EntityJoin.addTo_eq, ← joins.flatMap_field]
  by_cases empty : q.fields.fields = []
  · have none := kept.resolve_left (not_not_intro empty)
    simp [empty, none, joins.all]
  · rw [if_neg (by simp [empty]), if_neg empty, List.flatMap_append, List.flatMap_congr joins.kept]

/-- Without fields of the query's own, the row is the joined side. -/
theorem Joins.row_eq_of_empty (joins : o.Joins j β q value o') (empty : q.fields.fields = [])
    (some : columns β ≠ []) : o'.row (j.addTo β q).fields =
      ⟨(sideRow β value).cells.map fun (c, v) => (nameOf (j.naming c), v)⟩ := by
  rw [row, EntityJoin.addTo_eq, empty, List.nil_append, if_neg (by simp [some]), joins.flatMap_field]

/-- The joined side is read from its own row, as long as no cell of the query's own is named like one of the
joined side. -/
theorem Joins.side_eq (joins : o.Joins j β q value o') (kept : q.fields.fields ≠ [] ∨ columns β = [])
    (apart : ∀ c v, (EntityJoin.start j.label ++ c, v) ∉ (o.row q.fields).cells)
    (found : ∀ c ∈ columns β, nameOf (j.naming c) = EntityJoin.start j.label ++ c) :
    Joined.side β j.label (o'.row (j.addTo β q).fields) =
      if (sideRow β value).allNull then .ok none else (ofRow (sideRow β value)).map some := by
  have names : ((sideRow β value).cells.map fun (c, v) => (nameOf (j.naming c), v)) =
      (sideRow β value).cells.map fun (c, v) => (EntityJoin.start j.label ++ c, v) := by
    rw [sideRow, List.map_map, List.map_map]
    exact List.map_congr_left fun c member => congrArg (·, value c) (found c member)
  have own : (o'.row (j.addTo β q).fields).under (EntityJoin.start j.label) = sideRow β value := by
    rw [joins.row_eq kept, names]
    exact Row.under_append_of_apart apart
  rw [Joined.side, own]

/-- There is no joined side if its columns come back under names that it is not read by. -/
theorem Joins.side_eq_none (joins : o.Joins j β q value o') (kept : q.fields.fields ≠ [] ∨ columns β = [])
    (apart : ∀ c v, (EntityJoin.start j.label ++ c, v) ∉ (o.row q.fields).cells)
    (lost : ∀ c ∈ columns β, ∀ d, nameOf (j.naming c) ≠ EntityJoin.start j.label ++ d) :
    Joined.side β j.label (o'.row (j.addTo β q).fields) = .ok none := by
  have none : (o'.row (j.addTo β q).fields).under (EntityJoin.start j.label) = .empty := by
    rw [joins.row_eq kept, Row.under_eq_empty_iff]
    rintro d v member
    rcases List.mem_append.mp member with own | added
    · exact apart d v own
    · rw [sideRow, List.map_map] at added
      obtain ⟨c, column, same⟩ := List.mem_map.mp added
      exact lost c column d (Prod.mk.inj same).1
  rw [Joined.side, none]
  rfl

end Returned

open Returned (sideRow)

/-- What a join makes of the fields of a query, and of the entities in its rows. The list that the query
selects on its own, qualified with its source, gets the joined side behind it, each column under its name behind
the label, if and only if the query has fields of its own or there is nothing to add, and the join writes these
labels. Without fields of the query's own the joined side comes in the place of the list. Otherwise a row that gave
an entity gives the same one. Unless a cell of the query is named like one of the joined side, that is then what its
own values are, where they come back under the names that it is read by, and none where no value does. Without
fields of the query's own a row gives an entity at most if each of its columns is named like one of the joined
side. -/
theorem selectList_addTo_iff (j : EntityJoin) (t u : RecordType) {q : Query} {source : String}
    (named : q.sourceName = some source) :
    q.renderFields true false = .ok (listed q.fields.calcFoundRows (items source q.fields.fields)) ∧
      ((j.addTo (Record u) q).selectList = .ok (listed q.fields.calcFoundRows
          (items source q.fields.fields ++ j.sideItems (Record u))) ↔
        (q.fields.fields ≠ [] ∨ u.columns = []) ∧
          ∀ c ∈ u.columns, Identifier.escape (j.naming c) = Identifier.escape (EntityJoin.start j.label ++ c)) ∧
      (q.fields.fields ≠ [] ∨ u.columns = [] → (j.addTo (Record u) q).selectList =
        .ok (listed q.fields.calcFoundRows (items source q.fields.fields ++ j.addedItems (Record u)))) ∧
      (q.fields.fields = [] → u.columns ≠ [] → (j.addTo (Record u) q).selectList =
        .ok (listed q.fields.calcFoundRows (j.addedItems (Record u)))) ∧
      ∀ (o o' : Returned) (value : String → Value), o.Joins j (Record u) q value o' →
        (q.fields.fields ≠ [] ∨ u.columns = [] → ∀ e : Record t, ofRow (o.row q.fields) = .ok e →
          ofRow (o'.row (j.addTo (Record u) q).fields) = .ok e ∧
          ((∀ c v, (EntityJoin.start j.label ++ c, v) ∉ (o.row q.fields).cells) →
            ((∀ c ∈ u.columns, Returned.nameOf (j.naming c) = EntityJoin.start j.label ++ c) →
              Joined.side (Record u) j.label (o'.row (j.addTo (Record u) q).fields) =
                if (sideRow (Record u) value).allNull then .ok none
                else (ofRow (sideRow (Record u) value)).map some) ∧
            ((∀ c ∈ u.columns, ∀ d, Returned.nameOf (j.naming c) ≠ EntityJoin.start j.label ++ d) →
              Joined.side (Record u) j.label (o'.row (j.addTo (Record u) q).fields) = .ok none))) ∧
        (q.fields.fields = [] → u.columns ≠ [] →
          ∀ e : Record t, ofRow (o'.row (j.addTo (Record u) q).fields) = .ok e →
            ∀ c ∈ t.columns, ∃ d ∈ u.columns, c = Returned.nameOf (j.naming d)) := by
  have appended : q.fields.fields ≠ [] ∨ u.columns = [] → (j.addTo (Record u) q).selectList =
      .ok (listed q.fields.calcFoundRows (items source q.fields.fields ++ j.addedItems (Record u))) := by
    intro kept
    rw [j.selectList_addTo named, j.items_append source kept]
  have replaced : q.fields.fields = [] → u.columns ≠ [] → (j.addTo (Record u) q).selectList =
      .ok (listed q.fields.calcFoundRows (j.addedItems (Record u))) := by
    intro empty some
    rw [j.selectList_addTo named, empty, List.nil_append, j.items_of_empty source some]
  refine ⟨Query.renderFields_eq_listed named, ?_, appended, replaced, ?_⟩
  · by_cases kept : q.fields.fields ≠ [] ∨ u.columns = []
    · rw [appended kept, Except.ok.injEq, j.listed_append_addedItems_iff]
      exact (and_iff_right kept).symm
    · obtain ⟨empty, some⟩ := not_or.mp kept
      rw [replaced (not_not.mp empty) some, items, if_pos (not_not.mp empty), Except.ok.injEq]
      exact iff_of_false (j.listed_addedItems_ne _ source some) fun both => kept both.1
  · intro o o' value joins
    constructor
    · intro kept e read
      refine ⟨?_, fun apart => ⟨joins.side_eq kept apart, joins.side_eq_none kept apart⟩⟩
      rw [joins.row_eq kept]
      exact Record.ofRow_append read _
    · intro empty some e read c column
      rw [joins.row_eq_of_empty empty some] at read
      obtain ⟨v, found⟩ := Record.exists_find?_of_ofRow read c column
      have member := mem_of_lookup_eq_some found
      rw [sideRow, List.map_map] at member
      obtain ⟨d, named, same⟩ := List.mem_map.mp member
      exact ⟨d, named, (Prod.mk.inj same).1.symm⟩

/-! ## Counted links and whole users -/

open Shop (tagLink address user userAddress)

/-- A row in which each column has a value of its name, and all columns are those of an entity. -/
def Returned.ofValues (all : List (String × Value)) (value : String → Value) : Returned :=
  ⟨fun f => [(nameOf (f.label.getD f.name), value (f.label.getD f.name))], all⟩

/-- Links under an alias, with an expression among the fields, and counted. -/
def countedLinks : Query :=
  ((((Query.empty.setSource "tag_link" (some "l")).setCalcFoundRows true).addField
    { name := "COUNT(*)", raw := true, label := some "n" }).addField { name := "left_id", primary := true }).addField
      { name := "right_id", table := some "l" }

def linkHome : EntityJoin := .plain "home" ⟨.inner, "address", "l", "left_id", "home", "id"⟩

/-- The values of a link with its home. -/
def linkHomeValue : String → Value
  | "home__city" => .text "Lyon"
  | "home__zip" => .null
  | _ => .integer (.one .int64)

/-- Every item of the link is still there, and both sides are read. -/
theorem selectList_addTo_countedLinks :
    countedLinks.sourceName = some "l" ∧
      (linkHome.addTo (Record address) countedLinks).selectList =
        .ok ("SQL_CALC_FOUND_ROWS COUNT(*) AS \x60n\x60, \x60l\x60.\x60left_id\x60, " ++
          "\x60l\x60.\x60right_id\x60, \x60home\x60.\x60id\x60 AS \x60home__id\x60, " ++
          "\x60home\x60.\x60city\x60 AS \x60home__city\x60, " ++
          "\x60home\x60.\x60zip\x60 AS \x60home__zip\x60") ∧
      ofRow ((Returned.ofValues [] linkHomeValue).row (linkHome.addTo (Record address) countedLinks).fields) =
        .ok (⟨[.integer (.one .int64), .integer (.one .int64)], rfl, rfl, trivial⟩ : Record tagLink) ∧
      Joined.side (Record address) "home"
          ((Returned.ofValues [] linkHomeValue).row (linkHome.addTo (Record address) countedLinks).fields) =
        .ok (some ⟨[.integer (.one .int64), .text "Lyon", .null], rfl, rfl, rfl, trivial⟩) := by
  have named : countedLinks.sourceName = some "l" := rfl
  obtain ⟨-, list, -, -, rows⟩ := selectList_addTo_iff linkHome tagLink address named
  have fields : countedLinks.fields.fields ≠ [] := List.cons_ne_nil _ _
  have joins : (Returned.ofValues [] linkHomeValue).Joins linkHome (Record address) countedLinks
      (fun c => linkHomeValue ("home__" ++ c)) (Returned.ofValues [] linkHomeValue) :=
    ⟨fun _ _ => rfl, rfl, fun _ _ => rfl⟩
  obtain ⟨link, home⟩ := (rows _ _ _ joins).1 (.inl fields) _ rfl
  have apart : ∀ c v, ("home__" ++ c, v) ∉
      ((Returned.ofValues [] linkHomeValue).row countedLinks.fields).cells := by
    have none : ∀ cell ∈ ((Returned.ofValues [] linkHomeValue).row countedLinks.fields).cells,
        Text.dropPrefix? "home__" cell.1 = none := by decide +kernel
    intro c v member
    cases (none _ member).symm.trans (Text.dropPrefix?_eq_some_iff.mpr rfl)
  have found : ∀ c ∈ address.columns, Returned.nameOf (linkHome.naming c) = EntityJoin.start "home" ++ c := by
    decide +kernel
  refine ⟨named, ?_, link, ((home apart).1 found).trans rfl⟩
  rw [list.mpr ⟨.inl fields, fun _ _ => rfl⟩]
  exact congrArg Except.ok (by decide +kernel)

/-- Users are selected with all columns, and join helpers are used on such a query. Joined with their
addresses nothing is selected of the users, and no user can be read. -/
theorem selectList_not_addTo :
    let users := Query.empty.setSource "user" none
    let returned := Returned.ofValues (Record.new user).cells fun _ => .integer (.one .int64)
    users.renderFields true false = .ok "\x60user\x60.*" ∧
      (userAddress.addTo (Record address) users).build .select =
        .ok ⟨"SELECT \x60address\x60.\x60id\x60 AS \x60address__id\x60, " ++
          "\x60address\x60.\x60city\x60 AS \x60address__city\x60, " ++
          "\x60address\x60.\x60zip\x60 AS \x60address__zip\x60 FROM \x60user\x60 " ++
          "LEFT OUTER JOIN \x60address\x60 AS \x60address\x60 " ++
          "ON \x60user\x60.\x60usr_address_id\x60 = \x60address\x60.\x60id\x60", []⟩ ∧
      returned.Joins userAddress (Record address) users (fun _ => .integer (.one .int64)) returned ∧
      ofRow (returned.row users.fields) = .ok (Record.new user) ∧
      (ofRow (returned.row (userAddress.addTo (Record address) users).fields) : Except Error (Record user)) =
        .error (.columnNotFound "usr_id") := by
  refine ⟨?_, ?_, ⟨fun _ _ => rfl, rfl, fun _ _ => rfl⟩, rfl, rfl⟩
  · exact congrArg Except.ok (by decide +kernel)
  · exact congrArg Except.ok (by decide +kernel)

end TableMapper
