import PatchTrial.IoError
import PatchTrial.Path

/-!
Why a trial failed. A failure belongs to a stage, has a headline, and may have lines that say more.
-/
namespace PatchTrial.Trial

/-- Why a trial failed. -/
inductive Failure
  /-- The patch tool made no patch. -/
  | generation (status : String) (out err : Path)
  /-- The patch tool did not apply the patch. -/
  | application (pid : Nat) (status : String) (out err : Path)
  /-- The target ended while it was observed. -/
  | crashed (status : String) (err : Path)
  /-- The validator rejected the log. -/
  | rejected (validator : String) (log : Path) (diagnostics : List String)
  /-- The machine refused something. -/
  | refused (context : String) (cause : IoError)
  /-- The validator could not be loaded. -/
  | badValidator (root : Path) (reason : String)
  /-- The scenario could not be loaded. -/
  | badScenario (root : Path) (reason : String)
  deriving DecidableEq, Repr

namespace Failure

def stage : Failure → String
  | generation _ _ _ => "generate"
  | application _ _ _ _ => "apply"
  | crashed _ _ => "liveness"
  | rejected _ _ _ => "validate"
  | refused _ _ => "orchestration"
  | badValidator _ _ => "load"
  | badScenario _ _ => "load"

def headline : Failure → String
  | generation status _ _ => "patch generation failed (exit status " ++ status ++ ")"
  | application pid status _ _ =>
    "patch application to pid " ++ toString pid ++ " failed (exit status " ++ status ++ ")"
  | crashed status _ => "target exited during observation (exit status " ++ status ++ ")"
  | rejected validator log _ => "validator " ++ validator ++ " rejected " ++ log.shown
  | refused context _ => context
  | badValidator root reason => "invalid validator for " ++ root.shown ++ ": " ++ reason
  | badScenario root reason => "invalid scenario " ++ root.shown ++ ": " ++ reason

def diagnostics : Failure → List String
  | generation _ out err => ["tool stdout: " ++ out.shown, "tool stderr: " ++ err.shown]
  | application _ _ out err => ["tool stdout: " ++ out.shown, "tool stderr: " ++ err.shown]
  | crashed _ err => ["target stderr: " ++ err.shown]
  | rejected _ _ lines => lines
  | refused _ cause => ["cause: " ++ cause.message]
  | badValidator _ _ => []
  | badScenario _ _ => []

/-- What lies behind a failure, if the machine refused something. -/
def cause? : Failure → Option IoError
  | refused _ cause => some cause
  | _ => none

/-- Whether the lines that say more are in the log before the failure is recorded. -/
def isToldBefore : Failure → Bool
  | rejected _ _ _ => true
  | _ => false

def record (f : Failure) : List String :=
  ("FAILED at " ++ f.stage ++ ": " ++ f.headline) ::
    if f.isToldBefore then [] else f.diagnostics

end Failure
end PatchTrial.Trial
