import PatchTrial.Proofs.Trial.Care

/-!
What a trial asks beside looking after its target. It writes to the diagnostic log, runs the patch
tool, shows its progress, and reads files back; none of that starts a target, asks after one or
sends it a signal.

What is proved:
  1. `only_put`, `only_writeAll`, `only_recordFailure`: the log is only written to.
  2. `only_generate`, `only_apply`, `only_findProgram`, `only_judge`: the stages of a trial but for
     those that deal with the target.
-/
namespace PatchTrial.Trial

/-- Whether a request writes to a file. -/
inductive IsWrite : Request → Prop
  | write {file : Handle} {bytes : Bytes} : IsWrite (.write file bytes)

/-- Whether a request neither starts a target nor concerns one. The programs that it runs to their
end are those whose output is kept. -/
def IsAside : Request → Prop
  | .run _ out _ => out.isSome
  | .spawn _ _ _ | .poll _ | .await _ | .kill _ | .signalGroup _ _ => False
  | .publish _ | .retract _ => False
  | _ => True

theorem IsWrite.isAside {r : Request} (h : IsWrite r) : IsAside r := by
  cases h
  trivial

theorem IsLookup.isAside {r : Request} (h : IsLookup r) : IsAside r := by
  cases h <;> trivial

/-! ## The diagnostic log -/

section Log
variable (log : DiagnosticLog)

theorem only_put (bytes : Bytes) : (log.put bytes).outcome.Only IsWrite := by
  rw [DiagnosticLog.put]
  split
  · exact Attempt.only_pure ()
  · exact Attempt.only_of (.request .write)

theorem only_lines (texts : List String) : (log.lines texts).outcome.Only IsWrite := by
  induction texts with
  | nil => exact Attempt.only_pure ()
  | cons text rest ih => exact Attempt.only_bind (only_put log _) fun _ => ih

theorem only_writeAll (texts : List String) :
    (Validator.writeAll log.put texts).outcome.Only IsWrite := by
  induction texts with
  | nil => exact Attempt.only_pure ()
  | cons text rest ih =>
    rw [Validator.writeAll]
    split
    · refine Attempt.only_bind (only_put log _) fun _ => ?_
      exact Attempt.only_bind (only_put log _) fun _ => ih
    · exact Attempt.only_bind (only_put log _) fun _ => ih

theorem only_recordFailure (f : Failure) : (recordFailure log f).Only IsWrite :=
  (only_lines log _).bind fun _ => .done _

/-- Writing to the log as part of a trial. -/
theorem only_log {x : Attempt IoError Unit} (h : x.outcome.Only IsWrite) :
    (Step.log x).outcome.Only IsAside := Attempt.only_of (h.mono fun _ => IsWrite.isAside)

theorem only_line (text : String) : (Step.log (log.line text)).outcome.Only IsAside :=
  only_log (only_put log _)

theorem only_appendFile (heading : String) (path : Path) :
    (log.appendFile heading path).outcome.Only IsAside := by
  have put (bytes : Bytes) := (only_put log bytes).mono fun _ => IsWrite.isAside
  have read : (Plan.request (.read path)).Only IsAside := .request trivial
  refine Attempt.only_bind (put _) fun _ => ?_
  exact Attempt.only_bind (Attempt.only_of read) fun bytes => put bytes

end Log

/-! ## Stages -/

theorem only_progress (text : String) : (progress text).outcome.Only IsAside := by
  have shown : (Plan.request (.report text)).Only IsAside := .request trivial
  have flushed : (Plan.request .flush).Only IsAside := .request trivial
  exact Attempt.only_bind (Attempt.only_of shown) fun _ => Attempt.only_of flushed

theorem only_createCapture (path : Path) : (createCapture path).outcome.Only IsAside :=
  Attempt.only_of (.request trivial)

theorem only_runTool (stage : Stage) (argv : List String) (capture : Capture)
    (log : DiagnosticLog) : (runTool stage argv capture log).outcome.Only IsAside := by
  cases argv with
  | nil => exact Attempt.only_throw _
  | cons program args =>
    have ran (out err : Handle) :
        (Plan.request (.run (program :: args) (some out) (some err))).Only IsAside := .request rfl
    have copied (heading : String) (path : Path) :
        (Step.log (log.appendFile heading path)).outcome.Only IsAside :=
      Attempt.only_of (only_appendFile log heading path)
    refine Attempt.only_bind (only_line log _) fun _ => ?_
    refine Attempt.only_bind (only_log (only_lines log _)) fun _ => ?_
    refine Attempt.only_bind (only_createCapture _) fun out => ?_
    refine Attempt.only_bind (only_createCapture _) fun err => ?_
    refine Attempt.only_bind (Attempt.only_of (ran out err)) fun status => ?_
    refine Attempt.only_bind (only_line log _) fun _ => ?_
    refine Attempt.only_bind (copied _ _) fun _ => ?_
    exact Attempt.only_bind (copied _ _) fun _ => Attempt.only_pure status

/-- A stage that runs the tool and shows that it is done. -/
theorem only_toolStage (stage : Stage) (argv : List String) (capture : Capture)
    (log : DiagnosticLog) (failed : ExitStatus → Failure) (text : String) :
    (do let status ← runTool stage argv capture log
        if !status.succeeded then throw (failed status)
        progress text : Step Unit).outcome.Only IsAside := by
  refine Attempt.only_bind (only_runTool stage argv capture log) fun status => ?_
  dsimp only
  split
  · exact Attempt.only_throw _
  · exact only_progress text

variable (c : Setting) (s : Scenario)

theorem only_generate : (generate c s).outcome.Only IsAside := only_toolStage _ _ _ _ _ _

theorem only_apply (pid : Pid) : (apply c s pid).outcome.Only IsAside := only_toolStage _ _ _ _ _ _

theorem only_findProgram (t : Target) : (findProgram c s t).outcome.Only IsAside := by
  have slept : (Plan.request (.sleep s.settleMs)).Only IsAside := .request trivial
  have found := (only_programPid t).mono fun _ => IsLookup.isAside
  refine Attempt.only_bind (Attempt.only_lift slept) fun _ => ?_
  refine Attempt.only_bind (Attempt.only_lift found) fun pid => ?_
  dsimp only
  split
  · exact Attempt.only_bind (only_line c.log _) fun _ => Attempt.only_pure pid
  · exact Attempt.only_pure pid

theorem only_judge (v : Validator) : (judge c s v).outcome.Only IsAside := by
  have read : (Plan.request (.read s.capturedLog)).Only IsAside := .request trivial
  have validated : (v.validate s.capturedLog c.log.put).Only IsAside :=
    read.bind fun _ => ((only_writeAll c.log _).mono fun _ => IsWrite.isAside).bind fun _ => .done _
  refine Attempt.only_bind (only_line c.log _) fun _ => ?_
  refine Attempt.only_bind (Attempt.only_lift validated) fun verdict => ?_
  cases verdict with
  | pass => exact Attempt.only_pure ()
  | fail why => exact Attempt.only_throw _

end PatchTrial.Trial
