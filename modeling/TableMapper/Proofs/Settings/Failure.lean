import TableMapper.Proofs.Code.Stored
import TableMapper.Proofs.Files.Directories
import TableMapper.Settings.Run

/-! # Runs that fail

A run asks for directories once its configurations are resolved, and writes files once everything is rendered.
So a run that fails for another reason than files and directories has written nothing; what it may leave
behind are the directories for the files. Main statement: `generate_failed`.
-/

namespace TableMapper

/-- The reason is a file operation or a directory that could not be created. -/
def GenerationError.isOfFiles : GenerationError → Bool
  | .file _ | .outputDirectory _ _ => true
  | _ => false

section Work

variable {σ α β : Type}

/-- Work with files, which fails for no other reason. -/
def OnFiles (work : ExceptT GenerationError (StateM σ) α) : Prop :=
  ∀ s e s', work.run.run s = (.error e, s') → e.isOfFiles = true

namespace OnFiles

theorem pure (a : α) : OnFiles (Pure.pure a : ExceptT GenerationError (StateM σ) α) := by
  intro s e s' ran
  cases ran

theorem bind {step : ExceptT GenerationError (StateM σ) α} {next : α → ExceptT GenerationError (StateM σ) β}
    (first : OnFiles step) (second : ∀ a, OnFiles (next a)) : OnFiles (step >>= next) := by
  intro s e s' ran
  rcases error_of_run_bind ran with failed | ⟨a, s'', -, failed⟩
  · exact first s e s' failed
  · exact second a s'' e s' failed

theorem attempt {wrap : FileFault → GenerationError} (ofFiles : ∀ fault, (wrap fault).isOfFiles = true)
    (work : ExceptT FileFault (StateM σ) α) : OnFiles (FileAccess.attempt wrap work) := by
  intro s e s' ran
  have adapted : (FileAccess.attempt wrap work).run.run s =
      ((work.run.run s).1.mapError wrap, (work.run.run s).2) := rfl
  rw [adapted] at ran
  cases first : (work.run.run s).1 with
  | ok a =>
      rw [first] at ran
      cases ran
  | error fault =>
      rw [first] at ran
      cases ran
      exact ofFiles fault

variable (format : String → String) (fs : FileAccess (StateM σ))

theorem createAll (directories : List String) : OnFiles (Resolution.createAll fs directories) := by
  induction directories with
  | nil => exact pure ()
  | cons directory rest ih => exact (attempt (fun _ => rfl) _).bind fun _ => ih

theorem write (file : GeneratedFile) : OnFiles ((Sink.toFiles format fs).write file) := by
  refine bind ?_ fun _ => attempt (fun _ => rfl) _
  unfold Sink.createParent
  split
  · exact attempt (fun _ => rfl) _
  · exact pure ()

theorem writeAll (files : List GeneratedFile) : OnFiles ((Sink.toFiles format fs).writeAll files) := by
  induction files with
  | nil => exact pure ()
  | cons file rest ih => exact (write format fs file).bind fun _ => ih

theorem finish (directories : List String) : OnFiles ((Sink.toFiles format fs).finish directories) := by
  change OnFiles (Sink.writeIndexes fs directories)
  induction directories with
  | nil => exact pure ()
  | cons directory rest ih =>
      refine bind (bind (attempt (fun _ => rfl) _) fun _ => attempt (fun _ => rfl) _) fun _ => ih

end OnFiles

end Work

variable {σ π : Type} {format : String → String} {fs : FileAccess (StateM σ)} {schema : Schema} {r : Resolution} {s s' : σ}
  {e : GenerationError}

/-- A run that writes files and fails for another reason has no plan, and does nothing. -/
theorem Generation.of_run_error {options : EmitOptions}
    (ran : (run (Sink.toFiles format fs) schema r options).run.run s = (.error e, s')) (other : e.isOfFiles = false) :
    (plan schema r options).1 = .error e ∧ s' = s := by
  cases planned : (plan schema r options).1 with
  | error e' =>
      rw [run_of_error planned] at ran
      cases ran
      exact ⟨rfl, rfl⟩
  | ok files =>
      rw [run, planned] at ran
      have onFiles : OnFiles (write (Sink.toFiles format fs) r files) :=
        (OnFiles.writeAll format fs files).bind fun _ => (OnFiles.finish format fs _).bind fun _ => .pure _
      exact Bool.noConfusion ((onFiles s e s' ran).symm.trans other)

theorem Resolution.laid_of_createAll {view : σ → π → Option FileNode} {along : String → π → Prop}
    (lays : fs.Lays view along) {directories : List String}
    (ran : (createAll fs directories).run.run s = (.ok (), s')) : Laid view along directories s s' := by
  induction directories generalizing s with
  | nil =>
      cases ran
      exact .refl _
  | cons directory rest ih =>
      obtain ⟨⟨⟩, s₁, created, ran⟩ := exists_of_run_bind ran
      exact (lays _ _ _ (run_attempt created)).cons (ih ran)

namespace Settings

variable {settings : Settings} {entries : KeyMap ConfigEntry} {filter : Option String} {w : Warned Report}

/-- The resolution of a run, with all its models. -/
def resolveWide [PatternEngine] (settings : Settings) (filter : Option String) (entries : KeyMap ConfigEntry) :
    Warned Resolution :=
  Resolution.resolveWide settings.danglingJoins (some settings.outputRoot) filter entries

/-- What a run does with files, and what it comes to. -/
theorem run_generate [PatternEngine] (writes : settings.dryRun = false) :
    (generate format fs schema entries filter settings).run s =
      match (settings.resolveWide filter entries).result with
      | .error e => (⟨(settings.resolveWide filter entries).warnings, .error e⟩, s)
      | .ok wide =>
        let ran := (Resolution.createAll fs wide.directories >>= fun _ =>
          Generation.run (Sink.toFiles format fs) schema (wide.keepOnly filter) settings.emit).run.run s
        (⟨(settings.resolveWide filter entries).warnings, ran.1⟩, ran.2) := by
  simp only [generate, resolveWide, writes]
  cases (Resolution.resolveWide settings.danglingJoins (some settings.outputRoot) filter entries).result <;> rfl

/-- A run that fails for another reason than files and directories leaves all files as they are. It leaves
directories as they are, too, where the configurations cannot be resolved; where they can, and a table cannot
be described, typed or checked, the directories for the files of all resolved models are there afterwards. -/
theorem generate_failed [PatternEngine] {view : σ → π → Option FileNode} {along : String → π → Prop} (lays : fs.Lays view along)
    (writes : settings.dryRun = false)
    (ran : (generate format fs schema entries filter settings).run s = (w, s')) (failed : w.result = .error e)
    (other : e.isOfFiles = false) :
    (∀ q contents, view s' q = some (.file contents) ↔ view s q = some (.file contents)) ∧
    ((settings.resolveWide filter entries).result = .error e ∧ s' = s ∨
      ∃ wide, (settings.resolveWide filter entries).result = .ok wide ∧
        (Generation.plan schema (wide.keepOnly filter) settings.emit).1 = .error e ∧
        ∀ q, view s' q = some .directory ↔
          view s q = some .directory ∨ ∃ d ∈ wide.directories, along d q) := by
  rw [run_generate writes] at ran
  cases resolved : (settings.resolveWide filter entries).result with
  | error e' =>
      rw [resolved] at ran
      cases ran
      cases failed
      exact ⟨fun _ _ => .rfl, .inl ⟨rfl, rfl⟩⟩
  | ok wide =>
      rw [resolved] at ran
      cases ran
      rcases error_of_run_bind (Prod.ext failed rfl) with uncreated | ⟨⟨⟩, s₁, created, unrendered⟩
      · exact nomatch (OnFiles.createAll fs _ _ _ _ uncreated).symm.trans other
      · obtain ⟨planned, same⟩ := Generation.of_run_error unrendered other
        have laid := Resolution.laid_of_createAll lays created
        rw [← same] at laid
        exact ⟨laid.files, .inr ⟨wide, rfl, planned, laid.added⟩⟩

/-- Configurations of two tables, the second of which a schema may not have. -/
def withUnknown : KeyMap ConfigEntry :=
  .ofList
    [("a", Resolution.sample []),
      ("b", { Resolution.sample [] with className := "V", table := "v" })]

/-- Settings that take directories as they are configured. -/
def intoHere : Settings := { outputRoot := "" }

/-- A directory with a file from before. -/
def oldFiles : FileTree [] := .ofFiles [("e/old.rs", "old")]

open scoped Pattern in
theorem generate_failed_unknown : ∃ w t',
    (generate id FileTree.access Generation.twoTables withUnknown none intoHere).run oldFiles = (w, t') ∧
    w.result = .error (.missingTable "v") ∧
    (∀ q contents, t'.node? q = some (.file contents) ↔ oldFiles.node? q = some (.file contents)) ∧
    ((resolveWide intoHere none withUnknown).result = .error (.missingTable "v") ∧ t' = oldFiles ∨
      ∃ wide, (resolveWide intoHere none withUnknown).result = .ok wide ∧
        (Generation.plan Generation.twoTables wide {}).1 = .error (.missingTable "v") ∧
        ∀ q, t'.node? q = some .directory ↔ oldFiles.node? q = some .directory ∨
          ∃ d ∈ wide.directories, q ∈ FileTree.placesAlong [] (Path.parts d)) := by
  have failed : ((generate id FileTree.access Generation.twoTables withUnknown none intoHere).run
      oldFiles).1.result = .error (.missingTable "v") := by decide
  exact ⟨_, _, rfl, failed, generate_failed FileTree.lays_access (by rfl) (Prod.eta _).symm failed rfl⟩

open scoped Pattern in
/-- The directories for the files are there although nothing was rendered. -/
theorem generate_failed_not_unchanged : ∃ w t',
    (generate id FileTree.access Generation.twoTables withUnknown none intoHere).run oldFiles = (w, t') ∧
    w.result = .error (.missingTable "v") ∧ (GenerationError.missingTable "v").isOfFiles = false ∧
    oldFiles.nodes = [(["e"], .directory), (["e", "old.rs"], .file "old")] ∧
    t'.nodes = [(["e"], .directory), (["e", "old.rs"], .file "old"), (["m"], .directory)] := by
  refine ⟨_, _, rfl, ?_, rfl, ?_, ?_⟩
  · decide
  · decide
  · decide

end Settings

end TableMapper
