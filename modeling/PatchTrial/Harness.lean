import PatchTrial.Scenario
import PatchTrial.Text.ShellWords

/-!
What all scenarios of a run share: the patch tool, the escalation command, and how long a target
that is told to end may take.
-/
namespace PatchTrial

/-- What all scenarios of a run share. -/
structure Harness where
  patchTool : Path
  escalateWith : List String
  graceMs : Nat
  deriving DecidableEq, Repr

namespace Harness

/-- The first of some folders that has a program of a name. -/
def search (name : String) : List Path → Plan (Option Path)
  | [] => return none
  | folder :: rest => do
    let candidate := folder.child name
    if ← Plan.request (.isProgram candidate) then return some candidate
    search name rest

/-- The patch tool a text names: a path if it has a slash, and else a program to be looked up. -/
def findTool (raw : String) : Attempt Refusal Path := do
  if Text.isAllBlank raw then throw .blankTool
  if raw.toList.contains '/' then
    let path := Path.ofString raw
    if !(← Plan.isFile path) then throw (.noTool raw)
    Attempt.of (Refusal.lostTool raw) (Plan.request (.canonical path))
  else
    match ← search raw (← Plan.request .searchPath) with
    | some path => return path
    | none => throw (.toolNotFound raw)

/-- What a command line says that all scenarios share. -/
def resolve (a : Arguments) : Attempt Refusal Harness := do
  let patchTool ← findTool a.patchTool
  match ShellWords.split? a.escalateWith with
  | none => throw (.openQuote a.escalateWith)
  | some [] => throw .noEscalation
  | some escalateWith => return { patchTool, escalateWith, graceMs := a.terminateGraceMs }

end Harness
end PatchTrial
