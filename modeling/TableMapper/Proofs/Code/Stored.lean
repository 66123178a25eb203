import TableMapper.Code.Output
import TableMapper.Proofs.Code.Delivery
import TableMapper.Proofs.Files.Tree

/-! # Files that are stored

The receiver that writes files leaves on disk, for every file that it has taken, what it has written last to
the place of that file, as the formatter lays it out. Main statement: `read_of_run`.
-/

namespace TableMapper

open FileTree (LeavesBut leadsTo)

variable {here : FileTree.Place} {t t' : FileTree here} {path : String} {file : GeneratedFile}
  {files : List GeneratedFile} {format : String → String}

/-! ## Steps on a tree -/

theorem run_attempt {σ α : Type} {wrap : FileFault → GenerationError} {work : ExceptT FileFault (StateM σ) α}
    {s s' : σ} {a : α} (ran : (FileAccess.attempt wrap work).run.run s = (.ok a, s')) :
    work.run.run s = (.ok a, s') := by
  have adapted : (FileAccess.attempt wrap work).run.run s =
      ((work.run.run s).1.mapError wrap, (work.run.run s).2) := rfl
  rw [adapted] at ran
  cases first : work.run.run s with
  | mk result s'' =>
      rw [first] at ran
      cases result with
      | error fault => cases ran
      | ok b =>
          cases ran
          rfl

theorem run_changing {work : FileTree here → Except FileFault (FileTree here)}
    (ran : (FileTree.changing work).run.run t = (.ok (), t')) : work t = .ok t' := by
  change FileTree.changing work t = _ at ran
  cases made : work t with
  | error fault =>
      simp only [FileTree.changing, made] at ran
      cases ran
  | ok changed =>
      simp only [FileTree.changing, made] at ran
      cases ran
      rfl

theorem run_reading {α : Type} {work : FileTree here → Except FileFault α} {a : α}
    (ran : (FileTree.reading work).run.run t = (.ok a, t')) : t' = t :=
  (congrArg Prod.snd ran).symm

/-! ## Written files -/

theorem leavesBut_of_createParent (written : FileTree.Place → Prop)
    (ran : (Sink.createParent FileTree.access path).run.run t = (.ok (), t')) : LeavesBut written t t' := by
  unfold Sink.createParent at ran
  split at ran
  · exact FileTree.leavesBut_of_createDirectories (run_changing (run_attempt ran)) written
  · cases ran
    exact .refl written t

theorem stored_of_write (ran : ((Sink.toFiles format FileTree.access).write file).run.run t = (.ok (), t')) :
    t'.place file.path = .ok (leadsTo here file.path) ∧
      t'.node? (leadsTo here file.path) = some (.file (format file.contents)) ∧
      LeavesBut (· = leadsTo here file.path) t t' := by
  obtain ⟨⟨⟩, t₁, created, ran⟩ := exists_of_run_bind ran
  obtain ⟨place, led, stored, leaves⟩ := FileTree.leavesBut_of_write (run_changing (run_attempt ran))
  cases FileTree.leadsTo_of_place led
  exact ⟨led, stored, (leavesBut_of_createParent _ created).trans leaves⟩

/-- Every file that is taken is stored, laid out, until another is written to its place. -/
theorem stored_of_takes (takes : (Sink.toFiles format FileTree.access).Takes t files t') :
    LeavesBut (fun q => ∃ g ∈ files, leadsTo here g.path = q) t t' ∧
    ∀ before f after, files = before ++ f :: after →
      (∀ g ∈ after, leadsTo here g.path ≠ leadsTo here f.path) →
      t'.place f.path = .ok (leadsTo here f.path) ∧
        t'.node? (leadsTo here f.path) = some (.file (format f.contents)) := by
  induction takes with
  | nil =>
      refine ⟨.refl _ _, ?_⟩
      intro before f after split
      simp at split
  | @cons t₀ t₁ t₂ file files written _ ih =>
      obtain ⟨led, stored, leaves⟩ := stored_of_write written
      obtain ⟨later, kept⟩ := ih
      constructor
      · apply (leaves.mono ?_).trans (later.mono ?_)
        · rintro q rfl
          exact ⟨file, List.mem_cons_self .., rfl⟩
        · rintro q ⟨g, member, leads⟩
          exact ⟨g, List.mem_cons_of_mem file member, leads⟩
      · intro before f after split apart
        cases before with
        | nil =>
            cases split
            refine ⟨later.keeps.place_eq led, later.stays _ _ ?_ stored⟩
            rintro ⟨g, member, leads⟩
            exact apart g member leads
        | cons first before =>
            cases split
            exact kept before f after rfl apart

/-! ## Indexes -/

/-- The path of the index of a directory. -/
def indexPath (directory : String) : String := Path.join directory "mod.rs"

theorem leavesBut_of_writeIndex {directory : String}
    (ran : (Sink.writeIndex FileTree.access directory).run.run t = (.ok (), t')) :
    LeavesBut (fun q => leadsTo here (indexPath directory) = q) t t' := by
  obtain ⟨names, t₁, listed, ran⟩ := exists_of_run_bind ran
  cases run_reading (run_attempt listed)
  obtain ⟨place, led, -, leaves⟩ := FileTree.leavesBut_of_write (run_changing (run_attempt ran))
  apply leaves.mono
  rintro q rfl
  exact FileTree.leadsTo_of_place led

theorem leavesBut_of_writeIndexes {directories : List String}
    (ran : (Sink.writeIndexes FileTree.access directories).run.run t = (.ok (), t')) :
    LeavesBut (fun q => ∃ d ∈ directories, leadsTo here (indexPath d) = q) t t' := by
  induction directories generalizing t with
  | nil =>
      cases ran
      exact .refl _ _
  | cons directory rest ih =>
      obtain ⟨⟨⟩, t₁, first, ran⟩ := exists_of_run_bind ran
      apply ((leavesBut_of_writeIndex first).mono ?_).trans ((ih ran).mono ?_)
      · intro q leads
        exact ⟨directory, List.mem_cons_self .., leads⟩
      · rintro q ⟨d, member, leads⟩
        exact ⟨d, List.mem_cons_of_mem directory member, leads⟩

namespace Generation

variable {schema : Schema} {r : Resolution} {options : EmitOptions} {report : Report}

/-- After a run, a file is read as it was laid out unless another was written to its place later, or the index
of a directory was. -/
theorem read_of_run (planned : (plan schema r options).1 = .ok files)
    (ran : (run (Sink.toFiles format FileTree.access) schema r options).run.run t = (.ok report, t'))
    {before after : List GeneratedFile} (split : files = before ++ file :: after)
    (last : ∀ g ∈ after, leadsTo here g.path ≠ leadsTo here file.path)
    (plain : ∀ d ∈ directories files, leadsTo here (indexPath d) ≠ leadsTo here file.path) :
    t'.read file.path = .ok (format file.contents) := by
  obtain ⟨-, t₁, takes, ended⟩ := takes_of_run planned ran
  obtain ⟨led, stored⟩ := (stored_of_takes takes).2 before file after split last
  have leaves := leavesBut_of_writeIndexes ended
  have led' := leaves.keeps.place_eq led
  have stored' : t'.node? (leadsTo here file.path) = some (.file (format file.contents)) := by
    apply leaves.stays _ _ _ stored
    rintro ⟨d, member, leads⟩
    exact plain d member leads
  simp only [FileTree.read, FileTree.at?, led', stored', bind, Except.bind]

end Generation

end TableMapper
