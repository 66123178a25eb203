import TableMapper.Pattern.Native
import TableMapper.Proofs.Code.Expressions
import TableMapper.Proofs.Code.Rendering
import TableMapper.Proofs.Text.Cutting
import TableMapper.Shop
import TableMapper.Sql.Script

/-! # Joins in generated code

The columns of a joined side are selected under names that come from a template, and the label of the join stands in
it as it is. A quote in a label ends the template, a backslash takes the next character with it, braces are places
for arguments. What is read back starts with the label itself. Main statement: `LinkedJoin.entityJoin?_eq_plain_iff`
says which labels are fit for this.
-/

namespace TableMapper

namespace Code

/-! ## Templates -/

/-- A part of a template: a character, or a place for the column. -/
inductive Part where
  | letter (c : Char)
  /-- Braces with nothing in them, for the next argument. -/
  | next
  /-- Braces with the number of the argument in them, or with its name. -/
  | column
  deriving DecidableEq, Repr

namespace Part

/-- A part with a column in its place. -/
def fill (column : List Char) : Part → List Char
  | letter c => [c]
  | next | .column => column

/-- A part as it is written at its shortest; braces that are text are doubled. -/
def shortest : Part → List Char
  | letter c => [c]
  | next => ['\x7b', '\x7d']
  | column => ['\x7b', '0', '\x7d']

/-- A part that is read back from its shortest form. -/
def IsPlain : Part → Prop
  | letter c => c ≠ '\x7b' ∧ c ≠ '\x7d'
  | next | column => True

/-- The place that braces are for, from what stands in them. Blanks at the end do not count. How an argument is
to be shown, which a colon may say, is not read. -/
def place? (cs : List Char) : Option Part :=
  match Text.trimEndList Text.isBlank cs with
  | [] => some next
  | '0' :: zeros => if zeros.all (· == '0') then some column else none
  | name => if name = "column".toList then some column else none

/-- The first part of a template, with what stands behind. -/
def next? : List Char → Option (Part × List Char)
  | '\x7b' :: '\x7b' :: cs => some (letter '\x7b', cs)
  | '\x7d' :: '\x7d' :: cs => some (letter '\x7d', cs)
  | '\x7b' :: cs => (Text.splitFirst '\x7d' cs).bind fun (inside, behind) => (place? inside).map (·, behind)
  | '\x7d' :: _ => none
  | c :: cs => some (letter c, cs)
  | [] => none

theorem place?_cases {cs : List Char} {p : Part} (found : place? cs = some p) :
    p.IsPlain ∧ (p.shortest = '\x7b' :: cs ++ ['\x7d'] ∨ p.shortest.length < cs.length + 2) := by
  match cs with
  | [] => cases found; exact ⟨trivial, .inl rfl⟩
  | [c] =>
      by_cases blank : Text.isBlank c = true
      · have none : Text.trimEndList Text.isBlank [c] = [] := by simp [Text.trimEndList, blank]
        rw [place?, none] at found
        cases found
        exact ⟨trivial, .inr (Nat.lt_succ_self _)⟩
      · have whole : Text.trimEndList Text.isBlank [c] = [c] := by simp [Text.trimEndList, blank]
        rw [place?, whole] at found
        split at found
        · next empty => cases empty
        · next zero =>
          cases zero
          cases found
          exact ⟨trivial, .inl rfl⟩
        · split at found
          · next word => exact absurd word (by simp)
          · cases found
  | c :: d :: cs =>
      have plain : p.IsPlain ∧ p.shortest.length ≤ 3 := by
        unfold place? at found
        split at found
        · cases found; exact ⟨trivial, by decide⟩
        all_goals split at found <;> cases found; exact ⟨trivial, by decide⟩
      exact ⟨plain.1, .inr (by simp only [List.length_cons]; omega)⟩

/-- A part is written at its shortest, or takes more. -/
theorem next?_cases {cs rest : List Char} {p : Part} (taken : next? cs = some (p, rest)) :
    (cs = p.shortest ++ rest ∧ p.IsPlain) ∨ p.shortest.length + rest.length < cs.length := by
  unfold next? at taken
  split at taken
  · cases taken
    exact .inr (by simp [shortest]; omega)
  · cases taken
    exact .inr (by simp [shortest]; omega)
  · next cs _ =>
    obtain ⟨⟨inside, behind⟩, split, taken⟩ := Option.bind_eq_some_iff.mp taken
    obtain ⟨p', place, same⟩ := Option.map_eq_some_iff.mp taken
    cases same
    obtain ⟨rfl, -⟩ := Text.splitFirst_eq_some_iff.mp split
    obtain ⟨plain, shortest | longer⟩ := place?_cases place
    · exact .inl ⟨by rw [shortest]; simp, plain⟩
    · exact .inr (by simp only [List.length_append, List.length_cons]; omega)
  · cases taken
  · next c cs _ _ opening closing =>
    cases taken
    exact .inl ⟨rfl, opening, closing⟩
  · cases taken

theorem length_shortest_pos (p : Part) : 0 < p.shortest.length := by
  cases p <;> simp [shortest]

theorem next?_shorter {cs rest : List Char} {p : Part} (taken : next? cs = some (p, rest)) :
    rest.length < cs.length := by
  have some := p.length_shortest_pos
  obtain ⟨rfl, -⟩ | longer := next?_cases taken
  · simp only [List.length_append]
    omega
  · omega

theorem next?_shortest {p : Part} (plain : p.IsPlain) (rest : List Char) :
    next? (p.shortest ++ rest) = some (p, rest) := by
  cases p with
  | letter c =>
      obtain ⟨opening, closing⟩ := plain
      rw [shortest, List.singleton_append, next?]
      · exact fun _ same => absurd same opening
      · exact fun _ same => absurd same closing
      · exact opening
      · exact closing
  | next => rfl
  | column => rfl

theorem length_fill_le (p : Part) : (p.fill []).length + 2 * (if p == next then 1 else 0) ≤ p.shortest.length := by
  cases p with
  | letter c => exact Nat.le_of_eq rfl
  | next => decide
  | column => decide

end Part

/-- The parts of a template. -/
def template : List Char → Option (List Part) := Reader.all ⟨Part.next?, Part.next?_shorter⟩

theorem template_shortest {parts : List Part} (plain : ∀ p ∈ parts, p.IsPlain) :
    template (parts.flatMap Part.shortest) = some parts :=
  Reader.all_flatMap fun p member => Part.next?_shortest (plain p member)

/-- A template is written at its shortest, or takes more. -/
theorem template_cases {cs : List Char} {parts : List Part} (read : template cs = some parts) :
    (cs = parts.flatMap Part.shortest ∧ ∀ p ∈ parts, p.IsPlain) ∨
      (parts.flatMap Part.shortest).length < cs.length := by
  unfold template at read
  fun_induction Reader.all generalizing parts with
  | case1 =>
    cases read
    exact .inl ⟨rfl, by simp⟩
  | case2 => cases read
  | case3 c cs p rest taken ih =>
    obtain ⟨others, later, same⟩ := Option.map_eq_some_iff.mp read
    cases same
    rw [List.flatMap_cons, List.length_append]
    obtain ⟨first, plain⟩ | longer := Part.next?_cases taken
    · rw [first, List.length_append]
      obtain ⟨rfl, others⟩ | longer := ih later
      · exact .inl ⟨rfl, List.forall_mem_cons.mpr ⟨plain, others⟩⟩
      · exact .inr (by omega)
    · refine .inr ?_
      obtain ⟨rfl, -⟩ | further := ih later <;> omega

theorem length_shortest_le {cs : List Char} {parts : List Part} (read : template cs = some parts) :
    (parts.flatMap Part.shortest).length ≤ cs.length := by
  obtain ⟨rfl, -⟩ | longer := template_cases read
  · exact Nat.le_refl _
  · exact Nat.le_of_lt longer

/-- What is left with nothing in the places are the letters. -/
theorem letter_mem_of_mem_fill {parts : List Part} {c : Char} (member : c ∈ parts.flatMap (·.fill [])) :
    .letter c ∈ parts := by
  obtain ⟨p, among, filled⟩ := List.mem_flatMap.mp member
  cases p with
  | letter d =>
      obtain rfl := List.mem_singleton.mp filled
      exact among
  | next => cases filled
  | column => cases filled

/-- Parts with nothing in their places are shorter than they are written, by the places. -/
theorem length_fill_le (parts : List Part) :
    (parts.flatMap (·.fill [])).length + 2 * parts.count .next ≤ (parts.flatMap Part.shortest).length := by
  induction parts with
  | nil => simp
  | cons p parts ih =>
      have first := p.length_fill_le
      simp only [List.flatMap_cons, List.length_append, List.count_cons]
      omega

/-! ## Labels -/

/-- The name that a template gives to a column. -/
def nameFrom (parts : List Part) (column : String) : String := String.ofList (parts.flatMap (·.fill column.toList))

/-- How the code for a join names columns, if its expression for the names is a template with one argument. -/
def naming? (label : String) : Option (String → String) := do
  let written ← Text.dropPrefixList? "format!(\"".toList (labelExpression label).toList
  let (text, behind) ← Text.Quoted.read written
  let parts ← template text
  if behind = ", column)".toList ∧ parts.count .next = 1 then some (nameFrom parts) else none

/-- A character that stands for itself in a template between quotes. -/
def IsFit (c : Char) : Prop := c ∉ Text.Quoted.marks ∧ c ≠ '\x7b' ∧ c ≠ '\x7d'

instance : DecidablePred IsFit := fun _ => inferInstanceAs (Decidable (_ ∧ _))

theorem naming?_eq_some_iff {label : String} {naming : String → String} : naming? label = some naming ↔
    ∃ text parts, Text.Quoted.read ((label ++ "__\x7b\x7d").toList ++ '"' :: ", column)".toList) =
        some (text, ", column)".toList) ∧
      template text = some parts ∧ parts.count .next = 1 ∧ naming = nameFrom parts := by
  have drops : Text.dropPrefixList? "format!(\"".toList (labelExpression label).toList =
      some ((label ++ "__\x7b\x7d").toList ++ '"' :: ", column)".toList) := by
    rw [Text.dropPrefixList?_eq_some_iff]
    simp [labelExpression]
  rw [naming?, drops]
  generalize ", column)".toList = closing
  simp only [bind, Option.bind_some, Option.bind_eq_some_iff, Prod.exists]
  constructor
  · rintro ⟨text, behind, read, parts, parsed, found⟩
    split at found
    · next fits =>
      obtain ⟨rfl, one⟩ := fits
      cases found
      exact ⟨text, parts, read, parsed, one, rfl⟩
    · cases found
  · rintro ⟨text, parts, read, parsed, one, rfl⟩
    exact ⟨text, _, read, parts, parsed, by rw [if_pos ⟨rfl, one⟩]⟩

/-- The parts of the template for a label of letters that stand for themselves. -/
def nameParts (label : String) : List Part := (EntityJoin.start label).toList.map .letter ++ [.next]

theorem naming?_of_fit {label : String} (fit : ∀ c ∈ label.toList, IsFit c) :
    naming? label = some (EntityJoin.start label ++ ·) := by
  have letters : ∀ c ∈ (EntityJoin.start label).toList, IsFit c := by
    rw [EntityJoin.start, String.toList_append, List.forall_mem_append]
    exact ⟨fit, by simp [IsFit, Text.Quoted.marks]⟩
  have unquoted : ∀ c ∈ (label ++ "__\x7b\x7d").toList, c ∉ Text.Quoted.marks := by
    rw [String.toList_append, List.forall_mem_append]
    exact ⟨fun c member => (fit c member).1, by simp [Text.Quoted.marks]⟩
  have plain : ∀ p ∈ nameParts label, p.IsPlain := by
    rw [nameParts, List.forall_mem_append]
    exact ⟨List.forall_mem_map.mpr fun c member => (letters c member).2, by simp [Part.IsPlain]⟩
  have written : (nameParts label).flatMap Part.shortest = (label ++ "__\x7b\x7d").toList := by
    simp [nameParts, EntityJoin.start, List.flatMap_map, Part.shortest]
  refine naming?_eq_some_iff.mpr ⟨_, nameParts label, Text.Quoted.read_of_plain unquoted _, ?_, ?_, ?_⟩
  · exact written ▸ template_shortest plain
  · simp [nameParts, List.count_append, List.count_eq_zero]
  · funext column
    simp [nameFrom, nameParts, List.flatMap_map, Part.fill]

/-- A label names columns as they are read if and only if every character of it stands for itself. -/
theorem naming?_eq_start_iff (label : String) :
    naming? label = some (EntityJoin.start label ++ ·) ↔ ∀ c ∈ label.toList, IsFit c := by
  refine ⟨fun named => ?_, naming?_of_fit⟩
  obtain ⟨text, parts, read, parsed, one, names⟩ := naming?_eq_some_iff.mp named
  have letters : (label ++ "__").toList = parts.flatMap (·.fill []) := by
    have same := congrArg String.toList (congrFun names "")
    simpa [EntityJoin.start, nameFrom] using same
  have whole : (label ++ "__\x7b\x7d").toList.length = (label ++ "__").toList.length + 2 := by simp
  have filled := length_fill_le parts
  rw [one, ← letters] at filled
  have written := length_shortest_le parsed
  -- the name of a column of no characters is all of the label: neither reading has taken more than it gave
  obtain ⟨same, unquoted⟩ | longer := Text.Quoted.read_cases read
  · obtain rfl := (List.append_inj' same rfl).1
    obtain ⟨-, plain⟩ | longer := template_cases parsed
    · intro c member
      refine ⟨unquoted c (by simp [member]), ?_⟩
      exact plain (.letter c) (letter_mem_of_mem_fill (letters ▸ by simp [member]))
    · omega
  · simp only [List.length_append, List.length_cons] at longer
    omega

/-- A doubled brace in a label is one in the names. -/
example : (naming? "a\x7b\x7bb").map (· "city") = some "a\x7bb__city" := by
  decide +kernel

end Code

namespace LinkedJoin

/-- The join of two tables that the code for a join adds to a query. Its texts stand in the code as quotations, which
are read back as they are. -/
def join (j : LinkedJoin) : Join :=
  ⟨j.type, j.model.table, j.localAlias, j.localField, j.remoteAlias, j.remoteField⟩

/-- What the code for a join adds to a query, and how it is read back. -/
def entityJoin? (j : LinkedJoin) : Option EntityJoin :=
  (Code.naming? j.label).map fun naming => ⟨j.label, naming, j.join⟩

/-- The code for a join selects columns under the names that they are read by if and only if every character of
the label stands for itself. -/
theorem entityJoin?_eq_plain_iff (j : LinkedJoin) :
    j.entityJoin? = some (.plain j.label j.join) ↔ ∀ c ∈ j.label.toList, Code.IsFit c := by
  rw [← Code.naming?_eq_start_iff, entityJoin?, Option.map_eq_some_iff]
  constructor
  · rintro ⟨naming, named, same⟩
    cases same
    exact named
  · intro named
    exact ⟨_, named, rfl⟩

end LinkedJoin

/-! ## The shop -/

namespace Shop

/-- What is configured for every table. -/
def entry (className table cachePrefix : String) : ConfigEntry :=
  { author := some "mapgen"
    copyright := some "mapgen contributors"
    className := some className
    namespaces := { entity := some "crate::entity", mapper := some "crate::mapper" }
    paths := { entity := some "entity", mapper := some "mapper" }
    cachePrefix := some cachePrefix
    table := some table }

/-- A table with a repository. -/
def withRepository (e : ConfigEntry) : ConfigEntry :=
  { e with
    namespaces := { e.namespaces with repository := some "crate::repository" }
    paths := { e.paths with repository := some "repository" } }

/-- The configurations of the tables. -/
def entries : KeyMap ConfigEntry := .ofList
  [("user", { withRepository (entry "User" "user" "Shop_User") with
      cacheEnabled := some true
      prefixes := some (.one "usr")
      rules := .ofList
        [("email", .kind "email"),
         ("score", .detailed { kind := some "integer", least := some 0, greatest := some 100 })]
      joins := .ofList
        [("address", { config := some "address", type := some "left", localField := some "usr_address_id"
                       remoteField := some "id" }),
         ("roles", { config := some "user_role", relation := some "many", type := some "left"
                     localField := some "usr_id", remoteField := some "user_id" })] }),
   ("address", withRepository (entry "Address" "address" "Shop_Address")),
   ("user_role", entry "UserRole" "user_role" "Shop_UserRole"),
   ("audit_log", entry "AuditLog" "audit_log" "Shop_AuditLog"),
   ("tag_link", { entry "TagLink" "tag_link" "Shop_TagLink" with cacheEnabled := some true }),
   ("sample", { entry "Sample" "sample" "My_Sample_X" with
      cacheEnabled := some true
      prefixes := some (.one "s")
      rules := .ofList
        [("flag", .kind "boolean"), ("host", .detailed { kind := some "domain", hostname := some true }),
         ("code", .detailed { kind := some "regexp", pattern := some "^[A-Z]\x7b2\x7d\\d+$"
                              allowNull := some true }),
         ("level", .detailed { kind := some "integer", preset := some "tinyint", allowNull := some true })]
      joins := .ofList
        [("owner", { config := some "user", type := some "inner", localField := some "s_level"
                     remoteField := some "usr_id", remoteAlias := some "own" })] })]

/-- The columns of the tables. -/
def columns : KeyMap (List SchemaColumn) := .ofList
  [("user",
    [{ name := "usr_id", type := "INT UNSIGNED", key := .primary, extra := "auto_increment" },
     { name := "usr_email", type := "VARCHAR(200)", key := .unique },
     { name := "usr_score", type := "INT", defaultText := some "0" },
     { name := "usr_type", type := "ENUM('admin', 'member')", defaultText := some "'member'" },
     { name := "usr_active", type := "BOOLEAN", defaultText := some "true" },
     { name := "usr_balance", type := "DECIMAL(10,2)", nullable := true },
     { name := "usr_created_at", type := "DATETIME" },
     { name := "usr_address_id", type := "BIGINT", nullable := true }]),
   ("address",
    [{ name := "id", type := "BIGINT", key := .primary, extra := "auto_increment" },
     { name := "city", type := "VARCHAR(100)" },
     { name := "zip", type := "VARCHAR(10)", nullable := true }]),
   ("user_role",
    [{ name := "user_id", type := "INT UNSIGNED", key := .primary },
     { name := "role", type := "VARCHAR(20)", key := .primary },
     { name := "granted_at", type := "DATE", nullable := true }]),
   ("audit_log",
    [{ name := "event", type := "VARCHAR(50)" }, { name := "payload", type := "JSON", nullable := true }]),
   ("tag_link",
    [{ name := "left_id", type := "BIGINT", key := .primary },
     { name := "right_id", type := "BIGINT", key := .primary }]),
   ("sample",
    [{ name := "s_id", type := "TINYINT UNSIGNED", key := .primary, extra := "auto_increment" },
     { name := "s_flag", type := "BOOLEAN" }, { name := "s_host", type := "VARCHAR(100)" },
     { name := "s_code", type := "VARCHAR(20)", nullable := true },
     { name := "s_level", type := "SMALLINT", nullable := true },
     { name := "s_ratio", type := "FLOAT", nullable := true }, { name := "s_score", type := "DOUBLE" },
     { name := "s_blob", type := "BLOB", nullable := true }, { name := "s_at", type := "TIME", nullable := true },
     { name := "s_day", type := "DATE" }, { name := "s_doc", type := "JSON" },
     { name := "s_big", type := "BIGINT UNSIGNED", nullable := true }])]

/-- The tables that code is generated for, in the order of their names. -/
def codeTables [PatternEngine] : Except GenerationError (List CodeTable) := do
  let r ← (Resolution.resolve .fail none none entries).result
  r.models.values.mapM (Generation.tableOf (.ofTables columns))

open scoped Pattern in
/-- The records and joins of the shop are those of the code that is generated from its configuration. -/
theorem codeTables_eq : ∃ tables, codeTables = .ok tables ∧
    tables.map (·.recordType) = [address, auditLog, sample, tagLink, user, userRole] ∧
    tables.map (fun t => t.model.joins.map (·.entityJoin?)) =
      [[], [], [some sampleOwner], [], [some userAddress, some userRoles], []] := by
  let joins := fun t : CodeTable => t.model.joins.map fun j => (j.label, j.join)
  have generated : codeTables.toOption.map (fun ts => (ts.map (·.recordType), ts.map joins)) =
      some ([address, auditLog, sample, tagLink, user, userRole],
        [[], [], [(sampleOwner.label, sampleOwner.join)], [],
          [(userAddress.label, userAddress.join), (userRoles.label, userRoles.join)], []]) := by
    decide +kernel
  obtain ⟨tables, built, same⟩ := exists_of_toOption_map generated
  obtain ⟨records, joined⟩ := Prod.mk.inj same
  have plain : ∀ t ∈ tables, ∀ j ∈ t.model.joins, j.entityJoin? = some (.plain j.label j.join) := by
    intro t table j member
    rw [LinkedJoin.entityJoin?_eq_plain_iff]
    have listed : (j.label, j.join) ∈ (tables.map joins).flatten :=
      List.mem_flatten_of_mem (List.mem_map_of_mem table) (List.mem_map_of_mem member)
    rw [joined] at listed
    have fit : ∀ named ∈ [(sampleOwner.label, sampleOwner.join), (userAddress.label, userAddress.join),
        (userRoles.label, userRoles.join)], ∀ c ∈ named.1.toList, Code.IsFit c := by
      simp [sampleOwner, userAddress, userRoles, EntityJoin.plain, Code.IsFit, Text.Quoted.marks]
    exact fit _ listed
  have linked : tables.map (fun t => t.model.joins.map (·.entityJoin?)) =
      (tables.map joins).map (·.map fun named => some (.plain named.1 named.2)) := by
    rw [List.map_map]
    refine List.map_congr_left fun t table => ?_
    rw [Function.comp_apply, List.map_map]
    exact List.map_congr_left (plain t table)
  exact ⟨tables, built, records, by rw [linked, joined]; rfl⟩

end Shop

end TableMapper
