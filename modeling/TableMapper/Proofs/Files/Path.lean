import Mathlib.Data.List.Induction
import Mathlib.Data.List.Lex
import TableMapper.Files.Path

/-! # Paths and their parts

A file in a directory has the parts of the directory and one more, its name. Directories that are put in
order one after the other are those that were put in, each once, however they are written.
-/

namespace TableMapper.Path

/-! ## Files in directories -/

/-- A name that a file can have in a directory. -/
structure IsFileName (name : String) : Prop where
  whole : '/' ∉ name.toList
  shown : isIdle name.toList = false
  ownName : name.toList ≠ ['.', '.']

theorem not_isAbsolute {name : String} (whole : '/' ∉ name.toList) : isAbsolute name = false := by
  unfold isAbsolute
  cases cs : name.toList with
  | nil => rfl
  | cons c rest =>
      rw [cs] at whole
      simp only [List.head?_cons, beq_eq_false_iff_ne, ne_eq, Option.some.injEq]
      rintro rfl
      exact whole (List.mem_cons_self ..)

/-- A path with the pieces of another and a name behind them has the parts of the other and the name. -/
theorem parts_eq_append {path directory name : String} (pieces idle : List (List Char))
    (named : IsFileName name) (start : isAbsolute path = isAbsolute directory)
    (before : directory.toList.splitOn '/' = pieces ++ idle) (skipped : ∀ piece ∈ idle, isIdle piece = true)
    (some : pieces ≠ []) (after : path.toList.splitOn '/' = pieces ++ [name.toList]) :
    parts path = parts directory ++ [.named name] := by
  have nothing : idle.filter (fun piece => !isIdle piece) = [] := by simpa using skipped
  have last : [name.toList].filter (fun piece => !isIdle piece) = [name.toList] := by simp [named.shown]
  have part : partOf name.toList = .named name := by simp [partOf, named.ownName]
  have heads (l : List (List Char)) : (pieces ++ l).head? = pieces.head? := by
    cases pieces with
    | nil => exact absurd rfl some
    | cons => rfl
  simp only [parts, start, before, after, heads, List.filter_append, List.map_append, nothing, last, part,
    List.append_nil, List.map_singleton]
  split
  · rfl
  · split <;> rfl

/-- A file in a directory has one part more than the directory, its name. -/
theorem parts_join {directory name : String} (named : IsFileName name) :
    parts (join directory name) = parts directory ++ [.named name] := by
  rw [join, not_isAbsolute named.whole, if_neg (by decide)]
  by_cases nothing : directory = ""
  · have pieces : name.toList.splitOn '/' = [name.toList] := List.splitOn_eq_singleton named.whole
    have led : name.toList ≠ ['.'] := fun dot => by simpa [dot, isIdle] using named.shown
    have part : partOf name.toList = .named name := by simp [partOf, named.ownName]
    have alone : parts name = [.named name] := by
      simp [parts, not_isAbsolute named.whole, pieces, named.shown, led, part]
    have none : parts "" = [] := by decide +kernel
    rw [nothing, none]
    simpa using alone
  · have written : directory.toList ≠ [] := by simpa using nothing
    have same (rest : String) : isAbsolute (directory ++ rest) = isAbsolute directory := by
      simp only [isAbsolute, String.toList_append, List.head?_append_of_ne_nil _ written]
    split
    · next ends =>
      have closed : directory.toList.getLast? = some '/' := by simpa [nothing] using ends
      obtain ⟨cs, closed⟩ := List.getLast?_eq_some_iff.mp closed
      apply parts_eq_append (cs.splitOn '/') [[]] named (same name)
      · rw [closed, List.splitOn_append_cons_self]
        rfl
      · simp [isIdle]
      · exact (List.splitOn_ne_nil _ _ ·)
      · rw [String.toList_append, closed, List.append_assoc, List.singleton_append,
          List.splitOn_append_cons_self, List.splitOn_eq_singleton named.whole]
    · have cut : (directory ++ "/" ++ name).toList = directory.toList ++ '/' :: name.toList := by simp
      apply parts_eq_append (directory.toList.splitOn '/') [] named
      · rw [String.append_assoc, same]
      · exact (List.append_nil _).symm
      · simp
      · exact (List.splitOn_ne_nil _ _ ·)
      · rw [cut, List.splitOn_append_cons_self, List.splitOn_eq_singleton named.whole]

/-! ## Directories in order -/

theorem Part.before_named {name name' : String} : (named name).before (named name') = true ↔ name < name' :=
  decide_eq_true_iff

/-- Parts are in a total order. -/
instance : IsStrictTotalOrder Part (fun a b => a.before b = true) where
  trichotomous a b notBefore notAfter := by
    cases a <;> cases b
    case named.named name name' =>
      rw [Part.before_named, String.not_lt] at notBefore notAfter
      rw [String.le_antisymm notAfter notBefore]
    all_goals simp_all [Part.before, Part.rank]
  irrefl a := by
    cases a
    case named name =>
      rw [Part.before_named]
      exact String.lt_irrefl name
    all_goals simp [Part.before]
  trans a b c first second := by
    cases a <;> cases b <;> cases c
    case named.named.named =>
      rw [Part.before_named] at first second ⊢
      exact String.lt_trans first second
    all_goals simp_all [Part.before, Part.rank]

/-- Paths are in the order of their parts, the first that differ. -/
theorem partsBefore_iff {l l' : List Part} :
    partsBefore l l' = true ↔ List.Lex (fun a b => a.before b = true) l l' := by
  induction l generalizing l' with
  | nil =>
      cases l' with
      | nil => simp [partsBefore]
      | cons => simp [partsBefore]
  | cons a l ih =>
      cases l' with
      | nil => simp [partsBefore]
      | cons b l' =>
          simp only [partsBefore, Bool.or_eq_true, Bool.and_eq_true, beq_iff_eq, ih, List.cons_lex_cons_iff]

instance : IsStrictTotalOrder (List Part) (fun l l' => partsBefore l l' = true) := by
  have same : (fun l l' => partsBefore l l' = true) = List.Lex (fun a b : Part => a.before b = true) := by
    funext l l'
    exact propext partsBefore_iff
  rw [same]
  exact { isStrictWeakOrder_of_isOrderConnected with }

/-- A path comes before another in order. -/
def Before (path path' : String) : Prop := partsBefore (parts path) (parts path') = true

theorem Before.trans {path path' path'' : String} (first : Before path path') (second : Before path' path'') :
    Before path path'' :=
  trans_of (fun l l' => partsBefore l l' = true) first second

/-- Of two paths with different parts one comes before the other. -/
theorem parts_eq_of_not_before {path path' : String} (first : ¬ Before path path')
    (second : ¬ Before path' path) : parts path = parts path' :=
  Std.Trichotomous.trichotomous (r := fun l l' => partsBefore l l' = true) _ _ first second

/-- Paths in order that are those of a list, each once, in one of its spellings. -/
structure Collects (paths directories : List String) : Prop where
  taken : ∀ d ∈ directories, d ∈ paths
  complete : ∀ p ∈ paths, ∃ d ∈ directories, parts d = parts p
  inOrder : directories.Pairwise Before

theorem mem_of_mem_insertPath {path d : String} {directories : List String}
    (member : d ∈ insertPath path directories) : d = path ∨ d ∈ directories := by
  induction directories with
  | nil => exact .inl (List.mem_singleton.mp member)
  | cons other rest ih =>
      unfold insertPath at member
      split at member
      · exact .inr member
      · split at member
        · exact List.mem_cons.mp member
        · rcases List.mem_cons.mp member with rfl | later
          · exact .inr (List.mem_cons_self ..)
          · exact (ih later).imp_right (List.mem_cons_of_mem _)

theorem subset_insertPath (path : String) (directories : List String) :
    directories ⊆ insertPath path directories := by
  induction directories with
  | nil => exact List.nil_subset _
  | cons other rest ih =>
      unfold insertPath
      split
      · exact List.Subset.refl _
      · split
        · exact List.subset_cons_self ..
        · exact List.cons_subset_cons _ ih

theorem exists_mem_insertPath (path : String) (directories : List String) :
    ∃ d ∈ insertPath path directories, parts d = parts path := by
  induction directories with
  | nil => exact ⟨path, List.mem_singleton_self _, rfl⟩
  | cons other rest ih =>
      unfold insertPath
      split
      · next same => exact ⟨other, List.mem_cons_self .., same.symm⟩
      · split
        · exact ⟨path, List.mem_cons_self .., rfl⟩
        · obtain ⟨d, later, same⟩ := ih
          exact ⟨d, List.mem_cons_of_mem _ later, same⟩

theorem pairwise_insertPath {path : String} {directories : List String}
    (ordered : directories.Pairwise Before) : (insertPath path directories).Pairwise Before := by
  induction directories with
  | nil => exact List.pairwise_singleton ..
  | cons other rest ih =>
      obtain ⟨first, others⟩ := List.pairwise_cons.mp ordered
      unfold insertPath
      split
      · exact ordered
      · next differ =>
        split
        · next early =>
          refine List.pairwise_cons.mpr ⟨?_, ordered⟩
          rintro d (_ | ⟨_, later⟩)
          · exact early
          · exact Before.trans early (first d later)
        · next late =>
          refine List.pairwise_cons.mpr ⟨?_, ih others⟩
          intro d member
          rcases mem_of_mem_insertPath member with rfl | later
          · by_contra notBefore
            exact differ (parts_eq_of_not_before late notBefore)
          · exact first d later

/-- Putting paths in order one after the other collects them. -/
theorem collects_insertPath (paths : List String) :
    Collects paths (paths.foldl (fun directories path => insertPath path directories) []) := by
  induction paths using List.reverseRecOn with
  | nil => exact ⟨fun _ => id, fun _ member => absurd member List.not_mem_nil, .nil⟩
  | append_singleton paths path ih =>
      rw [List.foldl_append]
      refine ⟨?_, ?_, pairwise_insertPath ih.inOrder⟩
      · intro d member
        rcases mem_of_mem_insertPath member with rfl | before
        · exact List.mem_append_right _ (List.mem_singleton_self _)
        · exact List.mem_append_left _ (ih.taken d before)
      · intro p member
        rcases List.mem_append.mp member with before | last
        · obtain ⟨d, held, same⟩ := ih.complete p before
          exact ⟨d, subset_insertPath path _ held, same⟩
        · cases List.mem_singleton.mp last
          exact exists_mem_insertPath ..

end TableMapper.Path
