import PatchTrial.Harness
import PatchTrial.Trial.Target
import PatchTrial.Trial.Tool
import PatchTrial.Validator.Judgment

/-!
A trial: a patch is made, the target is started and settles, the patch is applied, the target is
observed and must still run, it is stopped, and its log is judged. Every stage either goes on or is
the failure of the trial, and whatever happens the target is given up before the failure is
recorded.
-/
namespace PatchTrial.Trial

/-- What a trial runs with. -/
structure Setting where
  harness : Harness
  log : DiagnosticLog

/-- Writes to the record of progress and makes it visible. -/
def progress (text : String) : Step Unit := do
  Attempt.of (Failure.refused "write progress") (Plan.request (.report text))
  Attempt.of (Failure.refused "write progress") (Plan.request .flush)

def generate (c : Setting) (s : Scenario) : Step Unit := do
  let argv := generateCommand c.harness.patchTool s.artifact s.oldTree s.newTree s.execName
  let status ← runTool .generate argv ⟨s.generateOut, s.generateErrors⟩ c.log
  if !status.succeeded then
    throw (.generation status.text s.generateOut s.generateErrors)
  progress "gen|"

def launchCommand (h : Harness) (s : Scenario) : List String :=
  (if s.elevated then h.escalateWith else []) ++ s.targetPath.shown :: s.args

def terminatorOf (h : Harness) (s : Scenario) : Terminator :=
  if s.elevated then .escalated h.escalateWith h.graceMs else .direct h.graceMs

/-- The name in the roster of the command a target is started through. -/
def wrapperOf (h : Harness) (s : Scenario) : Option String :=
  if s.elevated then h.escalateWith.head?.map Roster.Entry.commOf else none

def launch (c : Setting) (s : Scenario) : Step Target := do
  let argv := launchCommand c.harness s
  Step.log (c.log.section_ "launch")
  Step.log (c.log.command argv)
  let out ← createCapture s.capturedLog
  let err ← createCapture s.targetErrors
  Attempt.of (Failure.refused ("launch " ++ s.targetPath.shown))
    (Target.launch argv out err (terminatorOf c.harness s) (wrapperOf c.harness s)).outcome

/-- A plan with a target at hand, which it keeps up to date also when it fails. -/
abbrev WithTarget (α : Type) := ExceptT Failure (StateT Target Plan) α

namespace WithTarget

/-- A plan that does not touch the target. -/
def step {α : Type} (x : Step α) : WithTarget α := ExceptT.mk (StateT.lift x.outcome)

/-- An operation of the target; `f` explains its failure. -/
def operate {α : Type} (f : IoError → Failure)
    (op : Target → Plan (Except IoError α × Target)) : WithTarget α :=
  ExceptT.mk fun t => do
    let (r, t) ← op t
    return (r.mapError f, t)

end WithTarget

/-- Applies the patch to the process under test. -/
def apply (c : Setting) (s : Scenario) (pid : Pid) : Step Unit := do
  let argv := applyCommand c.harness.patchTool s.artifact pid
  let status ← runTool .apply argv ⟨s.applyOut, s.applyErrors⟩ c.log
  if !status.succeeded then
    throw (.application pid status.text s.applyOut s.applyErrors)
  progress "patch|"

/-- What is written when the process under test is not the one that was started. -/
def wrappedLine (pid wrapper : Pid) : String :=
  "target pid " ++ toString pid ++ " (launched through wrapper pid " ++ toString wrapper ++ ")"

/-- Finds the process under test once the target has settled. -/
def findProgram (c : Setting) (s : Scenario) (t : Target) : Step Pid := do
  Plan.request (.sleep s.settleMs)
  let pid ← t.programPid
  if pid ≠ t.pid then Step.log (c.log.line (wrappedLine pid t.pid))
  return pid

/-- Observes the target: it must not have ended. -/
def observe (c : Setting) (s : Scenario) (pid : Pid) : WithTarget Unit := do
  WithTarget.step (Plan.request (.sleep s.observeMs))
  let exited ← WithTarget.operate (Failure.refused ("poll target pid " ++ toString pid))
    Target.exitStatus
  match exited with
  | none => return ()
  | some status =>
    -- its complaints may tell why, but it has failed whether or not they can be copied
    WithTarget.step do
      let _ ← (c.log.appendFile "target stderr" s.targetErrors).outcome
    throw (.crashed status.text s.targetErrors)

/-- What is written when a target cannot be stopped. -/
def survivorLine (pid : Pid) (e : IoError) : String :=
  "warning: failed to terminate pid " ++ toString pid ++ ": " ++ e.message

/-- Stops the target; that it cannot be stopped is noted and decides nothing. -/
def stop (c : Setting) (pid : Pid) : WithTarget Unit :=
  ExceptT.mk fun t => do
    match ← t.terminate with
    | (.ok (), t) => return (.ok (), t)
    | (.error e, t) => return (← (Step.log (c.log.line (survivorLine pid e))).outcome, t)

/-- All that is done while the target runs. -/
def attend (c : Setting) (s : Scenario) : WithTarget Unit := do
  let pid ← WithTarget.step (findProgram c s (← get))
  WithTarget.step (apply c s pid)
  observe c s pid
  stop c pid

def judge (c : Setting) (s : Scenario) (v : Validator) : Step Unit := do
  Step.log (c.log.section_ ("validate (" ++ v.name ++ ")"))
  match ← v.validate s.capturedLog c.log.put with
  | .pass => return ()
  | .fail why => throw (.rejected v.name s.capturedLog why.diagnostics)

def title (root : Path) : String := "scenario " ++ root.shown

/-- A trial up to its first failure. The target is given up also then. -/
def attempt (c : Setting) (s : Scenario) (v : Validator) : Step Unit := do
  Step.log (c.log.banner (title s.root))
  generate c s
  let target ← launch c s
  let (result, target) ← (attend c s).run.run target
  -- also after a failure, and always before the log is judged
  target.dispose
  match result with
  | .error f => throw f
  | .ok () => judge c s v

/-- Records a failure in the log, as far as the log takes it. -/
def recordFailure (log : DiagnosticLog) (f : Failure) : Plan Unit := do
  let _ ← (log.lines f.record).outcome
  return ()

/-- Runs a trial and records its failure if it fails. -/
def run (c : Setting) (s : Scenario) (v : Validator) : Plan (Except Failure Unit) := do
  match ← (attempt c s v).outcome with
  | .ok () => return .ok ()
  | .error f =>
    recordFailure c.log f
    return .error f

end PatchTrial.Trial
