import TaskNetwork.CommandLine.Options
import TaskNetwork.Problem
import TaskNetwork.Report.Directory
import TaskNetwork.Runner

/-!
# What the program does

A command line is read, a problem is loaded and run, its report is written if one is asked for,
and the plan is printed. Everything but the files is decided here; files are touched at two
places only, where a problem is read and where a report is written.
-/

namespace TaskNetwork.CommandLine

open Json (Document)

/-- What is printed, and the exit code. -/
structure Answer where
  output : String
  diagnostics : String
  exitCode : UInt8
deriving DecidableEq, Repr

/-- The answer to work that cannot be done: what was tried, and why it failed. -/
def Answer.failure (attempt cause : String) : Answer where
  output := ""
  diagnostics := "Error: " ++ attempt ++ "\n\nCaused by:\n    " ++ cause ++ "\n"
  exitCode := 1

/-- The answer to a command line that is refused. -/
def Answer.usage (e : UsageError) : Answer := ⟨"", "error: " ++ e.message ++ "\n", 2⟩

/-! ## Problems -/

/-- A problem that comes with the program. -/
def BuiltIn.problem : BuiltIn → Problem
  | .baxterSwap => .baxter .swap
  | .blocksWorld => .blocks .stacking

/-- Reads a problem from the content of the file at a path, if there is such a file. -/
def loadProblem (path : String) (content : Option ByteArray) : Except Answer Problem := do
  let attempt := "load problem " ++ path
  let some content := content | .error (.failure attempt "no such file")
  match Document.parse ProblemFile content with
  | .error _ => .error (.failure attempt "invalid problem file")
  | .ok file => file.problem.mapError fun e => .failure "build world" e.message

/-- The problem to run, given how files are read. -/
def Options.chosenProblem (o : Options) (read : String → Option ByteArray) :
    Except Answer Problem :=
  match o.problem with
  | some path => loadProblem path (read path)
  | none => .ok o.world.problem

/-! ## Runs -/

/-- One line of text. -/
def line (s : String) : String := s ++ "\n"

/-- What is printed for a plan. -/
def planOutput {A : Type} [Argument A] (o : Options) (plan : Plan A) : String :=
  plan.listing ++
    if o.steps then String.join (plan.stepMessages.map fun m => line (Document.text m)) else ""

/-- What might help to find a plan. -/
def hints (o : Options) (failure : PlanFailure) : String :=
  (if failure.depthBoundReached then
    line ("depth bound " ++ Text.decimal o.maxDepth.toNat ++
      " was reached; a larger --max-depth may help")
  else "") ++
    if failure.isMissingKnowledge then
      line ("no operator or method for: " ++ ", ".intercalate failure.unresolvedTaskNames)
    else ""

/-- The answer to a run. -/
def answerOf {A : Type} [Argument A] (o : Options) :
    Except PlanFailure (Plan A) → Answer
  | .ok plan => ⟨planOutput o plan, "", 0⟩
  | .error failure => ⟨line "Plan cannot be formulated", hints o failure, 1⟩

/-- Runs a world; gives the report and the answer. -/
def runWorld {S A : Type} [PlanningState S] [Argument A] (o : Options) (w : World S A) :
    Except Answer (Report × Answer) := do
  let run ← (w.run { maxDepth := o.maxDepth }).mapError fun e =>
    .failure ("run " ++ w.id) e.message
  return (run.report, answerOf o run.result)

/-- Runs a problem; gives the report and the answer. -/
def runProblem (o : Options) : Problem → Except Answer (Report × Answer)
  | .baxter p => runWorld o p.world
  | .blocks p => runWorld o p.world

/-! ## The program -/

/-- A run that is done but for its report. -/
structure Finish where
  /-- The report and the directory to write it to, if it is to be written. -/
  pending : Option (Report × String)
  /-- The answer, unless the report cannot be written. -/
  answer : Answer

/-- The work of a command line, given how files are read. -/
def perform (arguments : List String) (read : String → Option ByteArray) : Finish :=
  let attempt : Except Answer Finish := do
    let o ← (Options.parse arguments).mapError .usage
    let problem ← o.chosenProblem read
    let (report, answer) ← runProblem o problem
    return ⟨o.out.map fun directory => (report, directory), answer⟩
  match attempt with
  | .ok finish => finish
  | .error answer => ⟨none, answer⟩

/-- The answer if a report cannot be written. -/
def Answer.unwritten (directory : String) (e : ReportDirectory.Error) : Answer :=
  .failure ("write report to " ++ directory) e.message

/-- The work of a command line in a file tree. -/
def performIn (t : FileTree) (cwd : FileTree.Place) (arguments : List String) :
    Answer × FileTree :=
  let finish := perform arguments fun path => t.read? cwd (.ofText path)
  match finish.pending with
  | none => (finish.answer, t)
  | some (report, directory) =>
    match ReportDirectory.write t cwd (.ofText directory) report with
    | (.ok _, t) => (finish.answer, t)
    | (.error e, t) => (.unwritten directory e, t)

end TaskNetwork.CommandLine
