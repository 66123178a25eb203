import TableMapper.Proofs.Code.Rendering
import TableMapper.Proofs.Config.Filtering
import TableMapper.Proofs.Text.Blanks
import TableMapper.Proofs.Text.Cutting

/-! # Headers of sources

A source starts with a comment that names the table, the author and the copyright, each on a line of its own. A text
is trimmed at its ends but may have several lines, and only its first line stands behind the mark of the comment: the
others become lines of the source as they are. Main statement: `header_commented_iff`.
-/

namespace TableMapper

namespace Code

/-! ## Lines of comments -/

/-- An empty line, or a line that starts with the mark of a comment on the file. -/
def IsComment (line : List Char) : Prop := line = [] ∨ "//!".toList <+: line

instance (line : List Char) : Decidable (IsComment line) := inferInstanceAs (Decidable (_ ∨ _))

/-- Every line is a comment. -/
def Commented (cs : List Char) : Prop := ∀ line ∈ cs.splitOn '\n', IsComment line

/-- Every line but the first is a comment. -/
def CommentedBehind (cs : List Char) : Prop := ∀ line ∈ (cs.splitOn '\n').tail, IsComment line

variable {front back cs : List Char}

theorem commented_append_line (cs ds : List Char) : Commented (cs ++ '\n' :: ds) ↔ Commented cs ∧ Commented ds := by
  rw [Commented, List.splitOn_append_cons_self, List.forall_mem_append]
  rfl

theorem commented_text_iff (lines : Lines) : Commented (text lines).toList ↔ ∀ line ∈ lines, Commented line.toList := by
  induction lines with
  | nil => simp [text, Commented, IsComment]
  | cons line lines ih =>
      have first : (text (line :: lines)).toList = line.toList ++ '\n' :: (text lines).toList := by
        simp [text]
      rw [first, commented_append_line, ih, List.forall_mem_cons]

/-- A text on one line. -/
theorem commented_of_line (absent : '\n' ∉ cs) : Commented cs ↔ IsComment cs := by
  rw [Commented, List.splitOn_eq_singleton absent, List.forall_mem_singleton]

theorem commentedBehind_of_line (absent : '\n' ∉ cs) : CommentedBehind cs := by
  rw [CommentedBehind, List.splitOn_eq_singleton absent]
  exact fun _ member => (List.not_mem_nil member).elim

theorem commentedBehind_append_line (absent : '\n' ∉ front) (ds : List Char) :
    CommentedBehind (front ++ '\n' :: ds) ↔ Commented ds := by
  rw [CommentedBehind, List.splitOn_append_cons_self, List.splitOn_eq_singleton absent, List.singleton_append,
    List.tail_cons, Commented]

/-- Behind the mark of a comment, the first line of a text is a comment whatever it is. -/
theorem commented_append_iff (absent : '\n' ∉ front) (mark : "//!".toList <+: front) (cs : List Char) :
    Commented (front ++ cs) ↔ CommentedBehind cs := by
  have marked : ∀ first : List Char, IsComment (front ++ first) := fun first =>
    .inr (mark.trans (List.prefix_append ..))
  by_cases member : '\n' ∈ cs
  · obtain ⟨first, rest, rfl, absent'⟩ := List.eq_append_cons_of_mem member
    have line : '\n' ∉ front ++ first := by simp [absent, absent']
    rw [commentedBehind_append_line absent', ← List.append_assoc, commented_append_line, commented_of_line line]
    exact and_iff_right (marked first)
  · have line : '\n' ∉ front ++ cs := by simp [absent, member]
    exact iff_of_true ((commented_of_line line).mpr (marked cs)) (commentedBehind_of_line member)

theorem isComment_tick_iff (filled : cs ≠ []) : IsComment (cs ++ ['\x60']) ↔ IsComment cs := by
  have apart : "//!".toList ≠ cs ++ ['\x60'] := fun same => by
    have last := congrArg List.getLast? same
    simp at last
  rw [IsComment, IsComment, List.prefix_concat_iff, or_iff_right apart, or_iff_right filled, or_iff_right (by simp)]

theorem exists_last_line (member : '\n' ∈ cs) : ∃ before last, cs = before ++ '\n' :: last ∧ '\n' ∉ last := by
  obtain ⟨last, before, split, absent⟩ := List.eq_append_cons_of_mem (List.mem_reverse.mpr member)
  refine ⟨before.reverse, last.reverse, ?_, fun inside => absent (List.mem_reverse.mp inside)⟩
  rw [← List.reverse_reverse cs, split]
  simp

/-- A tick behind the last line makes no difference, unless the last line is empty. -/
theorem commented_tick_iff (filled : cs ≠ []) (ends : cs.getLast? ≠ some '\n') :
    Commented (cs ++ ['\x60']) ↔ Commented cs := by
  have ticked : ∀ line : List Char, '\n' ∉ line → line ≠ [] →
      (Commented (line ++ ['\x60']) ↔ Commented line) := by
    intro line absent filled
    have absent' : '\n' ∉ line ++ ['\x60'] := by simp [absent]
    rw [commented_of_line absent', commented_of_line absent, isComment_tick_iff filled]
  by_cases member : '\n' ∈ cs
  · obtain ⟨before, last, rfl, absent⟩ := exists_last_line member
    have filled' : last ≠ [] := by
      rintro rfl
      exact ends (by simp)
    rw [List.append_assoc, List.cons_append, commented_append_line, commented_append_line, ticked last absent filled']
  · exact ticked cs member filled

theorem commentedBehind_tick_iff (ends : cs.getLast? ≠ some '\n') :
    CommentedBehind (cs ++ ['\x60']) ↔ CommentedBehind cs := by
  by_cases member : '\n' ∈ cs
  · obtain ⟨first, rest, rfl, absent⟩ := List.eq_append_cons_of_mem member
    have filled : rest ≠ [] := by
      rintro rfl
      exact ends (by simp)
    have ends' : rest.getLast? ≠ some '\n' := by
      rintro last
      rw [List.getLast?_append_of_ne_nil _ (List.cons_ne_nil _ _), List.getLast?_cons, last] at ends
      exact ends rfl
    rw [List.append_assoc, List.cons_append, commentedBehind_append_line absent, commentedBehind_append_line absent,
      commented_tick_iff filled ends']
  · have absent : '\n' ∉ cs ++ ['\x60'] := by simp [member]
    exact iff_of_true (commentedBehind_of_line absent) (commentedBehind_of_line member)

end Code

/-! ## Headers -/

/-- What a source is called in its header. -/
def Artifact.title : Artifact → String
  | entity => "Entity"
  | mapper => "Mapper"
  | repository => "Repository"

/-- Every source starts with its header. -/
theorem Generation.exists_source_eq (options : EmitOptions) (t : CodeTable) (a : Artifact) :
    ∃ body, source options t a = Code.text (t.header a.title ++ body) := by
  cases a with
  | entity | mapper | repository => exact ⟨_, rfl⟩

theorem TableModel.table_of_build [PatternEngine] {name : String} {entry : ConfigEntry} {m : TableModel}
    (built : TableModel.build name entry = .ok m) : ∃ s, m.table = Text.trim s := by
  iterate 3 obtain ⟨_, -, built⟩ := exists_of_bind built
  obtain ⟨table, present, built⟩ := exists_of_bind built
  iterate 8 obtain ⟨_, -, built⟩ := exists_of_bind built
  dsimp only at built
  split at built
  · cases built
  · cases built
    obtain ⟨s, -, trimmed⟩ := of_required present
    exact ⟨s, trimmed.symm⟩

/-- What is trimmed does not end with the end of a line. -/
theorem Text.getLast?_trim_ne (s : String) : (Text.trim s).toList.getLast? ≠ some '\n' := by
  intro last
  rw [trim, String.toList_ofList] at last
  exact absurd ((tight_trimList isBlank s.toList).stop _ last) (by decide)

namespace CodeTable

open Code

variable {t : CodeTable}

theorem commented_header_iff (ends : t.model.table.toList.getLast? ≠ some '\n') (a : Artifact) :
    Commented (text (t.header a.title)).toList ↔ CommentedBehind t.model.table.toList ∧
      CommentedBehind t.model.author.toList ∧ CommentedBehind t.model.copyright.toList := by
  have marked (front : String) (absent : '\n' ∉ front.toList) (mark : "//!".toList <+: front.toList) (s : String) :
      Commented (front ++ s).toList ↔ CommentedBehind s.toList := by
    rw [String.toList_append, commented_append_iff absent mark]
  have plain (line : String) (absent : '\n' ∉ line.toList) (mark : IsComment line.toList) :
      Commented line.toList := (commented_of_line absent).mpr mark
  have first : "//! " ++ a.title ++ " for table " ++ ticked t.model.table =
      ("//! " ++ a.title ++ " for table \x60") ++ (t.model.table ++ "\x60") := by
    simp only [ticked, String.append_assoc]
    rfl
  have subject : Commented ("//! " ++ a.title ++ " for table " ++ ticked t.model.table).toList ↔
      CommentedBehind t.model.table.toList := by
    rw [first, marked _ (by cases a <;> decide) (by cases a <;> decide), String.toList_append]
    exact commentedBehind_tick_iff ends
  rw [commented_text_iff, header]
  have author := marked "//! @author " (by decide) (by decide) t.model.author
  have copyright := marked "//! @copyright " (by decide) (by decide) t.model.copyright
  have bare := plain "//!" (by decide) (by decide)
  have notice := plain "//! Generated by mapgen-codegen. Do not edit." (by decide) (by decide)
  have none := plain "" (by decide) (by decide)
  simp only [List.forall_mem_cons, List.not_mem_nil, false_implies, implies_true, subject, author, copyright, bare,
    notice, none, true_and, and_true]

/-- Every source starts with its header. The headers of a table are comments and nothing else if and only if each line
of the configured table, author and copyright but the first is empty or starts with the mark of a comment itself:
otherwise it stands in the source as it is configured. -/
theorem header_commented_iff [PatternEngine] {name : String} {entry : ConfigEntry}
    (built : TableModel.build name entry = .ok t.model.toTableModel) :
    (∀ options a, ∃ body, Generation.source options t a = text (t.header a.title ++ body)) ∧
      ((∀ a : Artifact, Commented (text (t.header a.title)).toList) ↔
        ∀ s ∈ [t.model.table, t.model.author, t.model.copyright], CommentedBehind s.toList) := by
  obtain ⟨s, trimmed⟩ := TableModel.table_of_build built
  have ends : t.model.table.toList.getLast? ≠ some '\n' := trimmed ▸ Text.getLast?_trim_ne s
  refine ⟨fun options a => Generation.exists_source_eq options t a, ?_⟩
  simp only [commented_header_iff ends, List.forall_mem_cons, List.not_mem_nil, false_implies, implies_true, and_true]
  exact ⟨fun all => all .entity, fun all _ => all⟩

/-- A table whose author is given in several lines. -/
def signed (author : String) : ConfigEntry := { Resolution.sample [] with author }

open scoped Pattern in
/-- What a table with a given author comes to. -/
theorem exists_build_signed (author : String) (written : String)
    (shown : ((TableModel.build "user" (signed author)).toOption.bind fun base =>
      (build ⟨base, []⟩ [{ name := "id", type := "int" }]).toOption.map fun t =>
        (t.model.table, t.model.author, t.model.copyright)) = some ("t", written, "c")) :
    ∃ t : CodeTable, TableModel.build "user" (signed author) = .ok t.model.toTableModel ∧
      build t.model [{ name := "id", type := "int" }] = .ok t ∧
      t.model.table = "t" ∧ t.model.author = written ∧ t.model.copyright = "c" := by
  obtain ⟨base, configured, shown⟩ := exists_of_toOption_bind shown
  obtain ⟨t, built, shown⟩ := exists_of_toOption_map shown
  obtain ⟨linked, -⟩ := build_eq_ok.mp built
  simp only [Prod.mk.injEq] at shown
  rw [← linked] at built
  exact ⟨t, by rw [linked]; exact configured, built, shown⟩

open scoped Pattern in
/-- Authors on several lines stay in the comment where each line brings the mark of one along. -/
theorem header_commented_authors : ∃ t : CodeTable,
    TableModel.build "user" (signed " jane\n//! and joe\n\n//! and jim\n") = .ok t.model.toTableModel ∧
      t.model.author = "jane\n//! and joe\n\n//! and jim" ∧
      ∀ a : Artifact, Commented (text (t.header a.title)).toList := by
  obtain ⟨t, built, -, table, author, copyright⟩ := exists_build_signed " jane\n//! and joe\n\n//! and jim\n"
    "jane\n//! and joe\n\n//! and jim" (by decide +kernel)
  refine ⟨t, built, author, (header_commented_iff built).2.mpr ?_⟩
  rw [table, author, copyright]
  unfold CommentedBehind
  decide

open scoped Pattern in
/-- The second line of an author becomes an attribute of the generated module. -/
theorem not_header_commented : ∃ t : CodeTable,
    TableModel.build "user" (signed "jane\n#![allow(dead_code)]") = .ok t.model.toTableModel ∧
      build t.model [{ name := "id", type := "int" }] = .ok t ∧
      "#![allow(dead_code)]".toList ∈ (text (t.header Artifact.entity.title)).toList.splitOn '\n' ∧
      ¬ IsComment "#![allow(dead_code)]".toList := by
  obtain ⟨t, configured, built, table, author, copyright⟩ := exists_build_signed "jane\n#![allow(dead_code)]"
    "jane\n#![allow(dead_code)]" (by decide +kernel)
  refine ⟨t, configured, built, ?_, by decide⟩
  rw [header, table, author, copyright]
  decide +kernel

end CodeTable

end TableMapper
