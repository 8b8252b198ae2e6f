import PatchTrial.Suite.Run

/-!
The program as a whole: the scenarios that are asked for are found and run, and a summary ends the
record of progress.
-/
namespace PatchTrial.Program

def version : String := "hotpatch-harness 0.1.0"

/-- How the program ends. -/
inductive Outcome
  /-- The command line asks for no run. -/
  | usage (e : UsageError)
  /-- The run could not be finished. -/
  | refused (r : Refusal)
  /-- The run is over. -/
  | finished (tally : Suite.Tally)
  deriving DecidableEq, Repr

/-- The exit code: zero if every scenario passed, or if help or the version was asked for. -/
def Outcome.exitCode : Outcome → Nat
  | usage e => e.exitCode
  | refused _ => 1
  | finished tally => if tally.allPassed then 0 else 1

/-- The line that tells of a run that could not be finished. -/
def errorLine (r : Refusal) : String := "error: " ++ r.message

def summary (log : Path) (tally : Suite.Tally) : List String :=
  ("Passed " ++ toString tally.passed ++ " out of " ++ toString tally.total ++ " tests\n") ::
    if tally.allPassed then [] else ["See " ++ log.shown ++ " for more information\n"]

/-- How the diagnostic log is opened: the run of one scenario adds to what is there. -/
def logMode (a : Arguments) : LogMode :=
  if a.scenario.isSome && !a.directory then .append else .truncate

def reportAll : List String → Attempt Refusal Unit
  | [] => return ()
  | text :: rest => do
    Attempt.of Refusal.noSummary (Plan.request (.report text))
    reportAll rest

/-- What the program does for a command line that asks for a run. -/
def runFor (a : Arguments) : Attempt Refusal Suite.Tally := do
  let entries ← Suite.discover a
  let harness ← Harness.resolve a
  Plan.request .guard
  let log ← DiagnosticLog.openAt a.diagnosticLog (logMode a)
  let tally ← Suite.run ⟨harness, log⟩ entries
  reportAll (summary log.path tally)
  Attempt.of Refusal.noSummary (Plan.request .flush)
  return tally

def run (words : List String) : Plan Outcome :=
  match Arguments.ofWords words with
  | .error e => return .usage e
  | .ok a => do
    match ← (runFor a).outcome with
    | .error r => return .refused r
    | .ok tally => return .finished tally

end PatchTrial.Program
