import PatchTrial.DiagnosticLog
import PatchTrial.Trial.Failure

/-!
The patch tool. It is run to its end, what it writes is kept in files, and the files are copied into
the diagnostic log.
-/
namespace PatchTrial.Trial

/-- What the patch tool is run for. -/
inductive Stage
  | generate
  | apply
  deriving DecidableEq, Repr

def Stage.label : Stage → String
  | generate => "generate"
  | apply => "apply"

def generateCommand (tool artifact oldTree newTree : Path) (execName : String) : List String :=
  [tool.shown, "-g", "-o", artifact.shown, oldTree.shown, newTree.shown, execName]

def applyCommand (tool artifact : Path) (pid : Nat) : List String :=
  [tool.shown, "-p", artifact.shown, toString pid]

/-- The files that keep what a program writes. -/
structure Capture where
  out : Path
  err : Path
  deriving DecidableEq, Repr

/-- A plan of a trial. -/
abbrev Step (α : Type) := Attempt Failure α

/-- Writing to the diagnostic log, as part of a trial. -/
def Step.log {α : Type} (x : Attempt IoError α) : Step α :=
  Attempt.of (Failure.refused "write diagnostic log") x.outcome

/-- Opens a file that keeps what a program writes. -/
def createCapture (path : Path) : Step Handle :=
  Attempt.of (Failure.refused ("create " ++ path.shown)) (Plan.request (.create path))

/-- Runs the patch tool once: how it ended, whatever that was. -/
def runTool (stage : Stage) (argv : List String) (capture : Capture) (log : DiagnosticLog) :
    Step ExitStatus :=
  match argv with
  | [] => throw (.refused (stage.label ++ " command is empty") (.other "empty argv"))
  | program :: _ => do
    Step.log (log.section_ stage.label)
    Step.log (log.command argv)
    let out ← createCapture capture.out
    let err ← createCapture capture.err
    let status ← Attempt.of (Failure.refused ("spawn " ++ program))
      (Plan.request (.run argv (some out) (some err)))
    Step.log (log.line (stage.label ++ " exit status: " ++ status.text))
    Step.log (log.appendFile (stage.label ++ " stdout") capture.out)
    Step.log (log.appendFile (stage.label ++ " stderr") capture.err)
    return status

end PatchTrial.Trial
