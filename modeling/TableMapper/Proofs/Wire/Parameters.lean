import TableMapper.Proofs.KeyMap
import TableMapper.Proofs.Query.Supplied
import TableMapper.Wire

/-! # Parameters of a statement

A statement has its parameters in a list, and reports under a name the first one of the name. The driver is given
them as a map, in which the last one of a name stays. The two agree when no name stands in the list twice, which
holds of every statement that is rendered from a query. Main statement: `reported_sent_iff`.
-/

namespace TableMapper

/-! ## What the driver is given -/

theorem insertParam_eq (name : String) (w : WireValue) (sent : List (String × WireValue)) :
    insertParam name w sent = insertEntry name w sent := by
  induction sent with
  | nil => rfl
  | cons e rest ih =>
      obtain ⟨other, old⟩ := e
      rw [insertParam, insertEntry, ih]

/-- Parameters are sent as the map of their values in the form that these have on the wire. -/
theorem wireParams_eq (params : List (String × Value)) :
    wireParams params = (KeyMap.ofList (params.map fun p => (p.1, WireValue.ofValue p.2))).toList := by
  induction params using List.reverseRecOn with
  | nil => rfl
  | append_singleton params p ih =>
      rw [List.map_append, List.map_singleton, KeyMap.ofList_concat, wireParams, List.foldl_append]
      exact (insertParam_eq ..).trans (congrArg (insertEntry p.1 (WireValue.ofValue p.2)) ih)

theorem mem_wireParams_iff {params : List (String × Value)} {name : String} {w : WireValue} :
    (name, w) ∈ wireParams params ↔ (params.reverse.lookup name).map WireValue.ofValue = some w := by
  rw [wireParams_eq, ← KeyMap.get?_eq_some_iff, KeyMap.get?_ofList, ← List.map_reverse, lookup_map_values]

namespace Statement

/-- What a statement reports under a name is what the driver is given under it: the value in its form on the wire,
or nothing where there is none. -/
def Reports (s : Statement) (name : String) : Prop :=
  ∀ w, (name, w) ∈ wireParams s.params ↔ ∃ v, s.param? name = some v ∧ WireValue.ofValue v = w

theorem reports_iff {s : Statement} {name : String} :
    s.Reports name ↔
      (s.params.lookup name).map WireValue.ofValue = (s.params.reverse.lookup name).map WireValue.ofValue := by
  simp only [Reports, mem_wireParams_iff, param?, ← Option.map_eq_some_iff]
  rw [eq_comm, Option.ext_iff]

theorem reports_of_nodup {s : Statement} (distinct : (s.params.map (·.1)).Nodup) (name : String) :
    s.Reports name := by
  rw [reports_iff, lookup_reverse_of_nodup distinct]

/-- A statement with one value after the other bound to names. -/
def bindAll (s : Statement) (binds : List (String × Value)) : Statement :=
  binds.foldl (fun s b => s.bind b.1 b.2) s

theorem params_bindAll (s : Statement) (binds : List (String × Value)) :
    (s.bindAll binds).params = s.params ++ binds := by
  induction binds generalizing s with
  | nil => exact (List.append_nil _).symm
  | cons b binds ih => exact (ih (s.bind b.1 b.2)).trans (List.append_assoc ..)

end Statement

namespace Query

theorem Reachable.nodup_params {q : Query} (h : q.Reachable) {kind : StatementKind} {st : Statement}
    (built : q.build kind = .ok st) : (st.params.map (·.1)).Nodup := by
  rw [params_of_build built, List.map_map]
  exact (List.filter_sublist.map _).nodup h.supplied.consistent.distinct

end Query

/-! ## What is reported and what is sent -/

namespace Statement

/-- Something is reported under the names under which something is sent. -/
theorem exists_param?_iff {s : Statement} {name : String} :
    (∃ v, s.param? name = some v) ↔ ∃ w, (name, w) ∈ wireParams s.params := by
  have absent : s.params.lookup name = none ↔ s.params.reverse.lookup name = none := by
    simp [List.lookup_eq_none_iff]
  simp only [mem_wireParams_iff, ← Option.ne_none_iff_exists', ne_eq, Option.map_eq_none_iff, param?, absent]

/-- A statement that is rendered from a query reports what is sent. One that is written by hand has what was bound
in turn as its parameters. Of any parameters something is reported under a name exactly when something is sent, the
first value of the name is reported and the last one sent, so a statement reports what is sent exactly when these
have one form on the wire. -/
theorem reported_sent_iff (st : Statement) (name : String) :
    (∀ (q : Query) (kind : StatementKind), q.Reachable → q.build kind = .ok st → st.Reports name) ∧
      (∀ (sql : String) (binds : List (String × Value)), st = (ofText sql).bindAll binds → st.params = binds) ∧
      ((∃ v, st.param? name = some v) ↔ ∃ w, (name, w) ∈ wireParams st.params) ∧
      (∀ w, (name, w) ∈ wireParams st.params ↔ (st.params.reverse.lookup name).map WireValue.ofValue = some w) ∧
      (st.Reports name ↔
        (st.params.lookup name).map WireValue.ofValue = (st.params.reverse.lookup name).map WireValue.ofValue) := by
  refine ⟨fun q kind reached built => ?_, fun sql binds written => ?_, exists_param?_iff, fun w => mem_wireParams_iff,
    reports_iff⟩
  · exact reports_of_nodup (reached.nodup_params built) name
  · rw [written]
    exact params_bindAll (ofText sql) binds

/-- A query in which a field is assigned again, and a statement in which a name is bound to a text and then to the
bytes of the text. -/
theorem reported_sent_rebound :
    (Query.empty.performAll [.setSource "t" none, .addSet "id" (.text "7"), .addSet "id" (.text "8")]).build .insert =
        .ok ⟨"INSERT INTO \x60t\x60 SET \x60id\x60 = :id", [("id", .text "8")]⟩ ∧
      Reports ⟨"INSERT INTO \x60t\x60 SET \x60id\x60 = :id", [("id", .text "8")]⟩ "id" ∧
      ((ofText "SELECT :id").bindAll [("id", .text "7"), ("id", .bytes ⟨#[55]⟩)]).Reports "id" := by
  have built : (Query.empty.performAll
      [.setSource "t" none, .addSet "id" (.text "7"), .addSet "id" (.text "8")]).build .insert =
        .ok ⟨"INSERT INTO \x60t\x60 SET \x60id\x60 = :id", [("id", .text "8")]⟩ := by decide +kernel
  obtain ⟨rendered, -⟩ := reported_sent_iff ⟨"INSERT INTO \x60t\x60 SET \x60id\x60 = :id", [("id", .text "8")]⟩ "id"
  obtain ⟨-, written, -, -, reports⟩ :=
    reported_sent_iff ((ofText "SELECT :id").bindAll [("id", .text "7"), ("id", .bytes ⟨#[55]⟩)]) "id"
  refine ⟨built, rendered _ _ ⟨_, rfl⟩ built, reports.mpr ?_⟩
  rw [written _ _ rfl]
  decide +kernel

/-- A name that is bound twice: the first value is reported, and the second is sent. -/
theorem reported_not_sent :
    ¬ ∀ (sql : String) (binds : List (String × Value)) (name : String), ((ofText sql).bindAll binds).Reports name := by
  intro every
  have reports := reports_iff.mp (every "SELECT :id" [("id", .text "7"), ("id", .text "8")] "id")
  exact absurd reports (by decide +kernel)

end Statement

end TableMapper
