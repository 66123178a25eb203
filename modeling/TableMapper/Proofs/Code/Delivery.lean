import TableMapper.Proofs.Code.Rendering
import TableMapper.Proofs.Files.Path

/-! # What receivers of files are asked for

A receiver may fail at any file. What a run asks of it shows in the list of its calls: nothing while a model
is at fault, else the files in order up to the first that it refuses, and the directories once it has taken
all of them. Main statement: `run_calls`.
-/

namespace TableMapper

/-- What a receiver of files is asked for. -/
inductive SinkCall where
  | write (file : GeneratedFile)
  | finish (directories : List String)
  deriving DecidableEq, Repr

namespace Sink

variable {σ : Type}

/-- A receiver that does what another does and keeps a list of what it is asked for. -/
def traced (sink : Sink (StateM σ)) : Sink (StateM (σ × List SinkCall)) where
  write file := ExceptT.mk fun s =>
    (((sink.write file).run.run s.1).1, ((sink.write file).run.run s.1).2, s.2 ++ [.write file])
  finish directories := ExceptT.mk fun s =>
    (((sink.finish directories).run.run s.1).1, ((sink.finish directories).run.run s.1).2,
      s.2 ++ [.finish directories])

/-- A receiver takes files one after the other, and comes from one state to another. -/
inductive Takes (sink : Sink (StateM σ)) : σ → List GeneratedFile → σ → Prop
  | nil {s : σ} : Takes sink s [] s
  | cons {s s' s'' : σ} {file : GeneratedFile} {files : List GeneratedFile}
      (first : (sink.write file).run.run s = (.ok (), s')) (rest : Takes sink s' files s'') :
      Takes sink s (file :: files) s''

variable {sink : Sink (StateM σ)} {s s' s'' : σ} {file : GeneratedFile} {files rest : List GeneratedFile}
  {e : GenerationError}

theorem Takes.run_writeAll (takes : sink.Takes s files s') :
    (sink.writeAll files).run.run s = (.ok (), s') := by
  induction takes with
  | nil => rfl
  | cons first _ ih => exact (run_bind_of_ok first _).trans ih

theorem Takes.run_writeAll_refused (takes : sink.Takes s files s')
    (refused : (sink.write file).run.run s' = (.error e, s'')) :
    (sink.writeAll (files ++ file :: rest)).run.run s = (.error e, s'') := by
  induction takes with
  | nil => exact run_bind_of_error refused _
  | cons first _ ih => exact (run_bind_of_ok first _).trans (ih refused)

/-- Files are all taken, or up to one that is refused. -/
theorem takes_or_refuses (sink : Sink (StateM σ)) (s : σ) (files : List GeneratedFile) :
    (∃ s', sink.Takes s files s') ∨ ∃ taken file rest s' s'' e, files = taken ++ file :: rest ∧
      sink.Takes s taken s' ∧ (sink.write file).run.run s' = (.error e, s'') := by
  induction files generalizing s with
  | nil => exact .inl ⟨s, .nil⟩
  | cons file files ih =>
      cases written : (sink.write file).run.run s with
      | mk result s' =>
          cases result with
          | error e => exact .inr ⟨[], file, files, s, s', e, rfl, .nil, written⟩
          | ok =>
              rcases ih s' with ⟨s'', takes⟩ | ⟨taken, other, rest, s₁, s₂, e, rfl, takes, refused⟩
              · exact .inl ⟨s'', .cons written takes⟩
              · exact .inr ⟨file :: taken, other, rest, s₁, s₂, e, rfl, .cons written takes, refused⟩

theorem run_traced_write {result : Except GenerationError Unit} (calls : List SinkCall)
    (written : (sink.write file).run.run s = (result, s')) :
    (sink.traced.write file).run.run (s, calls) = (result, s', calls ++ [.write file]) := by
  change (((sink.write file).run.run s).1, ((sink.write file).run.run s).2, _) = _
  rw [written]

theorem run_traced_finish {result : Except GenerationError Unit} {directories : List String}
    (calls : List SinkCall) (ended : (sink.finish directories).run.run s = (result, s')) :
    (sink.traced.finish directories).run.run (s, calls) = (result, s', calls ++ [.finish directories]) := by
  change (((sink.finish directories).run.run s).1, ((sink.finish directories).run.run s).2, _) = _
  rw [ended]

/-- Keeping a list of the calls changes nothing else. -/
theorem Takes.traced (takes : sink.Takes s files s') (calls : List SinkCall) :
    sink.traced.Takes (s, calls) files (s', calls ++ files.map .write) := by
  induction takes generalizing calls with
  | nil =>
      rw [List.map_nil, List.append_nil]
      exact .nil
  | @cons _ _ _ file files first _ ih =>
      refine .cons (run_traced_write calls first) ?_
      rw [List.map_cons, List.append_cons calls (.write file) (files.map .write)]
      exact ih (calls ++ [.write file])

end Sink

namespace Generation

variable {schema : Schema} {options : EmitOptions} {σ : Type}

/-- What comes of files of models with the given names when a receiver gets them: it refuses one of them, it
does not come to an end with the directories, or all is well. -/
inductive Delivered (sink : Sink (StateM σ)) (names : List String) (files : List GeneratedFile) (s : σ) :
    List SinkCall → Except GenerationError Report → σ → Prop
  | refused {taken rest : List GeneratedFile} {file : GeneratedFile} {s' s'' : σ} {e : GenerationError}
      (cut : files = taken ++ file :: rest) (takes : sink.Takes s taken s')
      (fails : (sink.write file).run.run s' = (.error e, s'')) :
      Delivered sink names files s (taken.map .write ++ [.write file]) (.error e) s''
  | unfinished {directories : List String} {s' s'' : σ} {e : GenerationError} (takes : sink.Takes s files s')
      (collects : Path.Collects (files.filterMap fun f => Path.parent? f.path) directories)
      (fails : (sink.finish directories).run.run s' = (.error e, s'')) :
      Delivered sink names files s (files.map .write ++ [.finish directories]) (.error e) s''
  | finished {directories : List String} {s' s'' : σ} (takes : sink.Takes s files s')
      (collects : Path.Collects (files.filterMap fun f => Path.parent? f.path) directories)
      (ends : (sink.finish directories).run.run s' = (.ok (), s'')) :
      Delivered sink names files s (files.map .write ++ [.finish directories])
        (.ok ⟨names, files.map (·.path)⟩) s''

variable {r : Resolution} {sink : Sink (StateM σ)} {s s' s'' : σ} {files : List GeneratedFile}
  {e : GenerationError}

/-- A plan that fails is all that a run comes to. -/
theorem run_of_error (planned : (plan schema r options).1 = .error e) (sink : Sink (StateM σ)) (s : σ) :
    (run sink schema r options).run.run s = (.error e, s) := by
  rw [run, planned]
  rfl

theorem run_refused {taken rest : List GeneratedFile} {file : GeneratedFile}
    (planned : (plan schema r options).1 = .ok (taken ++ file :: rest)) (takes : sink.Takes s taken s')
    (fails : (sink.write file).run.run s' = (.error e, s'')) :
    (run sink schema r options).run.run s = (.error e, s'') := by
  rw [run, planned]
  exact run_bind_of_error (takes.run_writeAll_refused fails) _

theorem run_unfinished (planned : (plan schema r options).1 = .ok files) (takes : sink.Takes s files s')
    (fails : (sink.finish (directories files)).run.run s' = (.error e, s'')) :
    (run sink schema r options).run.run s = (.error e, s'') := by
  rw [run, planned]
  exact (run_bind_of_ok takes.run_writeAll _).trans (run_bind_of_error fails _)

theorem run_finished (planned : (plan schema r options).1 = .ok files) (takes : sink.Takes s files s')
    (ends : (sink.finish (directories files)).run.run s' = (.ok (), s'')) :
    (run sink schema r options).run.run s =
      (.ok ⟨r.models.values.map (·.name), files.map (·.path)⟩, s'') := by
  rw [run, planned]
  exact (run_bind_of_ok takes.run_writeAll _).trans (run_bind_of_ok ends _)

/-- A run that succeeds has delivered all files. -/
theorem takes_of_run {report : Report} (planned : (plan schema r options).1 = .ok files)
    (ran : (run sink schema r options).run.run s = (.ok report, s')) :
    report = ⟨r.models.values.map (·.name), files.map (·.path)⟩ ∧
      ∃ s₁, sink.Takes s files s₁ ∧ (sink.finish (directories files)).run.run s₁ = (.ok (), s') := by
  rw [run, planned] at ran
  obtain ⟨⟨⟩, s₁, written, ran⟩ := exists_of_run_bind ran
  obtain ⟨⟨⟩, s₂, ended, ran⟩ := exists_of_run_bind ran
  cases ran
  refine ⟨rfl, s₁, ?_, ended⟩
  rcases sink.takes_or_refuses s files with ⟨s₃, takes⟩ | ⟨taken, file, rest, s₃, s₄, e, rfl, takes, fails⟩
  · cases takes.run_writeAll.symm.trans written
    exact takes
  · cases (takes.run_writeAll_refused fails).symm.trans written

/-- A run that has a plan delivers it, whether its calls are kept or not. -/
theorem exists_delivered (planned : (plan schema r options).1 = .ok files) (sink : Sink (StateM σ)) (s : σ) :
    ∃ calls result s', (run sink.traced schema r options).run.run (s, []) = (result, s', calls) ∧
      (run sink schema r options).run.run s = (result, s') ∧
      Delivered sink (r.models.values.map (·.name)) files s calls result s' := by
  have collects : Path.Collects (files.filterMap fun f => Path.parent? f.path) (directories files) :=
    Path.collects_insertPath _
  rcases sink.takes_or_refuses s files with ⟨s', takes⟩ | ⟨taken, file, rest, s', s'', e, rfl, takes, fails⟩
  · cases ended : (sink.finish (directories files)).run.run s' with
    | mk result s'' =>
        have endsTraced := sink.run_traced_finish ([] ++ files.map .write) ended
        cases result with
        | error e =>
            exact ⟨_, _, _, run_unfinished planned (takes.traced []) endsTraced,
              run_unfinished planned takes ended, .unfinished takes collects ended⟩
        | ok =>
            exact ⟨_, _, _, run_finished planned (takes.traced []) endsTraced,
              run_finished planned takes ended, .finished takes collects ended⟩
  · exact ⟨_, _, _, run_refused planned (takes.traced []) (sink.run_traced_write _ fails),
      run_refused planned takes fails, .refused rfl takes fails⟩

/-- A receiver that only keeps the paths of files comes to the report of any receiver that takes them all. -/
theorem run_recording (planned : (plan schema r options).1 = .ok files) :
    (run .recording schema r options).run.run [] =
      (.ok ⟨r.models.values.map (·.name), files.map (·.path)⟩, files.map (·.path)) := by
  have takes (paths : List String) (files : List GeneratedFile) :
      Sink.recording.Takes paths files (paths ++ files.map (·.path)) := by
    induction files generalizing paths with
    | nil =>
        rw [List.map_nil, List.append_nil]
        exact .nil
    | cons file files ih =>
        refine .cons rfl ?_
        rw [List.map_cons, List.append_cons paths file.path (files.map (·.path))]
        exact ih (paths ++ [file.path])
  exact run_finished planned (takes [] files) rfl

/-- What a run asks of a receiver: nothing, where a model cannot be described, typed or checked. Otherwise the
files of the models in the order of their names, the entity, the mapper and the repository of each as far as
they are asked for, up to one that the receiver refuses, and once it has taken all of them the directories that
they are in. A report lists the names and the paths, so that all receivers that take the files report the
same. -/
theorem run_calls [PatternEngine] {policy : DanglingPolicy} {root filter : Option String} {entries : KeyMap ConfigEntry}
    (resolved : (Resolution.resolve policy root filter entries).result = .ok r) (schema : Schema)
    (options : EmitOptions) (sink : Sink (StateM σ)) (s : σ) :
    ∃ calls result s', (run sink.traced schema r options).run.run (s, []) = (result, s', calls) ∧
      (run sink schema r options).run.run s = (result, s') ∧
      ((∃ m ∈ r.models.values, ¬ Renders schema m) → (∃ e, result = .error e) ∧ s' = s ∧ calls = []) ∧
      ((∀ m ∈ r.models.values, Renders schema m) →
        ∃ tables, List.Forall₂ (fun m t => tableOf schema m = .ok t) r.models.values tables ∧
          Delivered sink r.models.keys (tables.flatMap (filesOf r options)) s calls result s') ∧
      ∀ report, result = .ok report →
        (run .recording schema r options).run.run [] = (.ok report, report.files) ∧
        ∀ {τ : Type} (other : Sink (StateM τ)) (t t' : τ) (report' : Report),
          (run other schema r options).run.run t = (.ok report', t') → report' = report := by
  have named := Resolution.names_eq_keys resolved
  cases planned : (plan schema r options).1 with
  | error e =>
      refine ⟨[], .error e, s, run_of_error planned _ _, run_of_error planned sink s, ?_, ?_, ?_⟩
      · exact fun _ => ⟨⟨e, rfl⟩, rfl, rfl⟩
      · intro renders
        obtain ⟨files, made⟩ := exists_plan_iff.mpr renders
        cases planned.symm.trans made
      · intro report ok
        cases ok
  | ok files =>
      obtain ⟨calls, result, s', traced, ran, delivered⟩ := exists_delivered planned sink s
      rw [named] at delivered
      refine ⟨calls, result, s', traced, ran, ?_, ?_, ?_⟩
      · rintro ⟨m, member, fails⟩
        exact absurd (exists_plan_iff.mp ⟨files, planned⟩ m member) fails
      · intro _
        obtain ⟨tables, made, rfl⟩ := plan_eq_ok.mp planned
        exact ⟨tables, made, delivered⟩
      · rintro report rfl
        have reported {τ : Type} (other : Sink (StateM τ)) (t t' : τ) (report' : Report)
            (ok : (run other schema r options).run.run t = (.ok report', t')) :
            report' = ⟨r.models.keys, files.map (·.path)⟩ := named ▸ (takes_of_run planned ok).1
        cases reported sink s s' report ran
        rw [run_recording planned, named]
        exact ⟨rfl, reported⟩

/-- A receiver that has room for some files. -/
def limited : Sink (StateM Nat) where
  write _ := ExceptT.mk fun
    | 0 => (.error (.refused "full"), 0)
    | room + 1 => (.ok (), room)
  finish _ := pure ()

open scoped Pattern in
theorem run_calls_limited : ∃ all calls result s',
    (Resolution.resolve .fail (some "out") none circle).result = .ok all ∧
    (∀ m ∈ all.models.values, Renders twoTables m) ∧
    (run limited.traced twoTables all {}).run.run (4, []) = (result, s', calls) ∧
    (run limited twoTables all {}).run.run 4 = (result, s') ∧
    ∃ tables, List.Forall₂ (fun m t => tableOf twoTables m = .ok t) all.models.values tables ∧
      Delivered limited all.models.keys (tables.flatMap (filesOf all {})) 4 calls result s' := by
  obtain ⟨all, files, resolved, planned⟩ := exists_plan_circle
  have renders := exists_plan_iff.mp ⟨files, planned⟩
  obtain ⟨calls, result, s', traced, ran, -, delivered, -⟩ := run_calls resolved twoTables {} limited 4
  exact ⟨all, calls, result, s', resolved, renders, traced, ran, delivered renders⟩

end Generation

end TableMapper
