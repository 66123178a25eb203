import TableMapper.CommandLine.Help
import TableMapper.CommandLine.Inspection
import TableMapper.Settings.Run

/-! # The command line

What a call of the program does: it reads its settings, changes them as its arguments say, and generates or
inspects. The outcome is what it prints and the number that it exits with.
-/

namespace TableMapper.CommandLine

/-- The outcome of a call. -/
structure Outcome where
  exitCode : Nat
  output : List String
  /-- What is printed on the channel for errors. -/
  complaint : String

namespace Outcome

/-- A call that succeeds. -/
def success (output : List String) : Outcome := ⟨0, output, ""⟩

/-- What is behind an error, if there is something. -/
def cause? : GenerationError → Option String
  | .file fault => some fault.message
  | .outputDirectory _ fault => some fault.message
  | .database e => some e.message
  | _ => none

/-- An error in words, with what is behind it. -/
def explain (e : GenerationError) : String :=
  let cause := match cause? e with
    | some cause => "\n\nCaused by:\n    " ++ cause
    | none => ""
  "Error: " ++ e.message ++ cause ++ "\n"

/-- A call that fails after some output. -/
def failure (output : List String) (e : GenerationError) : Outcome := ⟨1, output, explain e⟩

/-- A call without a run. -/
def ofStop : Stop → Outcome
  | .answer q => success q.lines
  | .misuse complaint => ⟨2, [], "error: " ++ complaint ++ "\n"⟩

def outputText (o : Outcome) : String := String.join (o.output.map (· ++ "\n"))

end Outcome

/-- The settings of a call. -/
def settings [Monad m] (fs : FileAccess m) (a : Arguments) : ExceptT GenerationError m Settings := do
  let s ←
    match a.value? .config with
    | some path => Settings.ofFile fs path
    | none => Settings.load fs none
  pure (a.apply s)

/-- The lines of an inspection, and why they end early. -/
def inspect [PatternEngine] [Monad m] (fs : FileAccess m) (s : Settings) :
    ExceptT GenerationError m (List String × Except GenerationError Unit) := do
  s.validate fs
  let entries ← Settings.loadTables fs s.tablesFile
  let r ← ExceptT.mk (pure (Resolution.resolve s.danglingJoins (some s.outputRoot) s.table entries).result)
  let schema ← s.openSchema fs
  pure (Inspection.lines schema r)

/-- What is printed after a generation. -/
def reportLines (s : Settings) (report : Report) : List String :=
  if s.dryRun then "Dry run mode - would generate:" :: report.files.map ("  " ++ ·) else []

/-- The outcome of a call with settings. -/
def perform [PatternEngine] [Monad m] (format : String → String) (fs : FileAccess m) (command : Option Command)
    (s : Settings) : m Outcome := do
  if command = some .inspect then
    match ← (inspect fs s).run with
    | .error e => pure (.failure [] e)
    | .ok (lines, .error e) => pure (.failure lines e)
    | .ok (lines, .ok ()) => pure (.success lines)
  else
    match (← s.run format fs).result with
    | .error e => pure (.failure [] e)
    | .ok report => pure (.success (reportLines s report))

/-- The outcome of a call with arguments. -/
def run [PatternEngine] [Monad m] (format : String → String) (fs : FileAccess m) (args : List String) : m Outcome := do
  match Arguments.read args with
  | .error stop => pure (.ofStop stop)
  | .ok a =>
    match ← (settings fs a).run with
    | .error e => pure (.failure [] e)
    | .ok s => perform format fs a.command s

end TableMapper.CommandLine
