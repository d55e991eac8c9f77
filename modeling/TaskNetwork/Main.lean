import TaskNetwork.CommandLine.Answer

/-!
# The program

Reads the files and writes the reports of a command line.
-/

namespace TaskNetwork.CommandLine

/-- The content of a file, if it can be read. -/
def readFile (path : String) : IO (Option ByteArray) := do
  try return some (← IO.FS.readBinFile path)
  catch _ => return none

/-- Carries out a step of writing a report. -/
def carryOut : ReportDirectory.Step → IO (Except ReportDirectory.StorageError Unit)
  | .error e => return .error e
  | .ok change =>
    match change with
    | .remove p => guarded (.removeStale p) (IO.FS.removeFile p.shown)
    | .write p content => guarded (.writeFile p) (IO.FS.writeBinFile p.shown content)
    | .rename source target =>
      guarded (.renameFile source target) (IO.FS.rename source.shown target.shown)
where
  guarded (e : ReportDirectory.StorageError) (action : IO Unit) :
      IO (Except ReportDirectory.StorageError Unit) := do
    try
      action
      return .ok ()
    catch _ => return .error e

/-- Carries out steps until one fails. -/
def carryOutAll : List ReportDirectory.Step → IO (Except ReportDirectory.StorageError Unit)
  | [] => return .ok ()
  | step :: steps => do
    match ← carryOut step with
    | .ok _ => carryOutAll steps
    | .error e => return .error e

/-- The plain files of a directory whose names are texts, those of broken-off writes apart. -/
def presentFiles (directory : String) : IO (List String) := do
  let entries ← (← IO.FS.realPath directory).readDir
  let mut names : List String := []
  for entry in entries do
    -- Nothing is found under a name that is no text, since it is listed with replacements.
    let isFile ←
      try pure ((← entry.path.symlinkMetadata).type == .file)
      catch _ => pure false
    if isFile && !ReportDirectory.isTemporary entry.fileName then
      names := entry.fileName :: names
  return (OrderedSet.ofMembers names).keys

/-- Writes a report to a directory. -/
def writeReport (report : Report) (directory : String) :
    IO (Except ReportDirectory.StorageError Unit) := do
  let p := Path.ofText directory
  try IO.FS.createDirAll directory
  catch _ => return .error (.makeDirectory p)
  let present ←
    try presentFiles directory
    catch _ => return .error (.readDirectory p)
  carryOutAll (ReportDirectory.writeSteps report p present)

/-- Prints an answer. -/
def Answer.print (a : Answer) : IO UInt32 := do
  (← IO.getStdout).putStr a.output
  (← IO.getStderr).putStr a.diagnostics
  return a.exitCode.toUInt32

end TaskNetwork.CommandLine

open TaskNetwork TaskNetwork.CommandLine in
/-- Plans a problem and prints the plan. -/
def main (arguments : List String) : IO UInt32 := do
  let content ←
    match (Options.parse arguments).toOption.bind (·.problem) with
    | some path => readFile path
    | none => pure none
  let finish := perform arguments fun _ => content
  match finish.pending with
  | none => finish.answer.print
  | some (report, directory) =>
    match ← writeReport report directory with
    | .ok _ => finish.answer.print
    | .error e => (Answer.unwritten directory (.storage e)).print
