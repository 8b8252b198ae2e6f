import PatchTrial.Proofs.Trial.Actions

/-!
What each stage of a trial does. For every stage there is one lemma: it says which actions the stage
leaves behind when it goes on and which when it fails, whatever the machine replies.

What is proved:
  1. `emits_generate`, `emits_launch`, `emits_findProgram`, `emits_apply`, `emits_observe`: the
     stages up to the observation.
  2. `emits_terminate` and `emits_dispose`: a target is stopped by questions, pauses and kill
     commands, and is released only once it was found to have ended or was waited for.
  3. `emits_run`: all that a trial does, in order (`Course`).
-/
namespace PatchTrial.Trial
open Attempt (Ends)

/-- Progress that was written and made visible. -/
def shown (text : String) : List Action := [.reported text (.ok ()), .flushed (.ok ())]

def Action.IsProgress : Action → Prop
  | reported _ _ => True
  | flushed _ => True
  | _ => False

/-- The actions of a tool stage that goes on: the tool succeeded, and this was shown. -/
def StageDone (argv : List String) (text : String) (acts : List Action) : Prop :=
  ∃ out err status, status.succeeded = true ∧
    acts = .ran argv (some out) (some err) (.ok status) :: shown text

/-- The actions of a tool stage that fails: the tool was run at most once. -/
def StageBroken (argv : List String) (acts : List Action) : Prop :=
  acts = [] ∨ ∃ out err how rest, acts = .ran argv (some out) (some err) how :: rest ∧
    ∀ a ∈ rest, a.IsProgress

variable {s : Scenario}

/-! ## Tools -/

theorem emits_progress (text : String) :
    Emits s (progress text).outcome
      (Ends (fun _ acts => acts = shown text) fun _ acts => ∀ a ∈ acts, a.IsProgress) := by
  refine Emits.attempt_bind (Q := Ends (fun _ acts => acts = [.reported text (.ok ())])
    fun _ acts => ∀ a ∈ acts, a.IsProgress) ?_ ?_ ?_
  · refine Emits.attempt_of (Emits.request fun how => ?_)
    cases how with
    | ok u => rfl
    | error e =>
      show ∀ a ∈ [Action.reported text (.error e)], a.IsProgress
      simp [Action.IsProgress]
  · intro u xs reported
    refine Emits.attempt_of (Emits.request fun how => ?_)
    cases how with
    | ok u => exact congrArg (· ++ [Action.flushed (.ok ())]) reported
    | error e =>
      rw [reported]
      show ∀ a ∈ [Action.reported text (.ok ()), Action.flushed (.error e)], a.IsProgress
      simp [Action.IsProgress]
  · exact fun _ _ h => h

/-- The actions of a run of the tool: it was run if there is an exit status, and at most once. -/
def ToolRan (argv : List String) : Except Failure ExitStatus → List Action → Prop
  | .ok status, acts => ∃ out err, acts = [.ran argv (some out) (some err) (.ok status)]
  | .error _, acts => acts = [] ∨ ∃ out err how, acts = [.ran argv (some out) (some err) how]

theorem emits_runTool (stage : Stage) (argv : List String) {capture : Capture}
    (log : DiagnosticLog) (hout : capture.out ≠ s.capturedLog) (herr : capture.err ≠ s.capturedLog) :
    Emits s (runTool stage argv capture log).outcome (ToolRan argv) := by
  cases argv with
  | nil => exact Emits.attempt_throw (.inl rfl)
  | cons program args =>
    refine (quiet_log (quiet_line log _)).attempt_before (fun _ => ?_) fun _ => .inl rfl
    refine (quiet_log (quiet_lines log _)).attempt_before (fun _ => ?_) fun _ => .inl rfl
    refine (quiet_createCapture _).attempt_before (fun out => ?_) fun _ => .inl rfl
    refine (quiet_createCapture _).attempt_before (fun err => ?_) fun _ => .inl rfl
    refine Emits.attempt_bind (Q := Ends
      (fun status acts => acts = [.ran (program :: args) (some out) (some err) (.ok status)])
      fun _ acts => ∃ how, acts = [.ran (program :: args) (some out) (some err) how]) ?_ ?_ ?_
    · refine Emits.attempt_of (Emits.request fun how => ?_)
      cases how with
      | ok status => rfl
      | error e => exact ⟨_, rfl⟩
    · -- whatever becomes of the log, the tool was run
      intro status xs e
      obtain rfl := e
      have ran : ∀ e, ToolRan (program :: args) (.error e)
          ([.ran (program :: args) (some out) (some err) (.ok status)] ++ []) :=
        fun _ => .inr ⟨out, err, _, rfl⟩
      refine (quiet_log (quiet_line log _)).attempt_before (fun _ => ?_) ran
      refine (quiet_log (quiet_appendFile log _ hout)).attempt_before (fun _ => ?_) ran
      refine (quiet_log (quiet_appendFile log _ herr)).attempt_before (fun _ => ?_) ran
      exact Emits.attempt_pure ⟨out, err, rfl⟩
    · intro e xs h
      obtain ⟨how, rfl⟩ := h
      exact .inr ⟨out, err, how, rfl⟩

/-- A stage that runs the tool, fails unless the tool succeeded, and then shows that it is done. -/
theorem emits_toolStage (stage : Stage) (argv : List String) {capture : Capture}
    (log : DiagnosticLog) (text : String) (failed : ExitStatus → Failure)
    (hout : capture.out ≠ s.capturedLog) (herr : capture.err ≠ s.capturedLog) :
    Emits s (do
        let status ← runTool stage argv capture log
        if !status.succeeded then throw (failed status)
        progress text : Step Unit).outcome
      (Ends (fun _ acts => StageDone argv text acts) fun _ acts => StageBroken argv acts) := by
  refine Emits.attempt_bind (emits_runTool stage argv log hout herr) ?_ ?_
  · intro status xs h
    obtain ⟨out, err, rfl⟩ := h
    dsimp only
    by_cases succeeded : status.succeeded = true
    · rw [if_neg (by rw [succeeded]; exact Bool.false_ne_true)]
      refine (emits_progress text).mono fun r ys h => ?_
      cases r with
      | ok u =>
        obtain rfl : ys = shown text := h
        exact ⟨out, err, status, succeeded, rfl⟩
      | error e => exact .inr ⟨out, err, .ok status, ys, rfl, h⟩
    · rw [if_pos (by rw [Bool.not_eq_true] at succeeded; rw [succeeded]; rfl)]
      refine Emits.attempt_throw (.inr ⟨out, err, .ok status, [], rfl, ?_⟩)
      simp
  · intro e xs h
    rcases h with rfl | ⟨out, err, how, rfl⟩
    · exact .inl rfl
    · exact .inr ⟨out, err, how, [], rfl, by simp⟩

theorem generateOut_ne_capturedLog : s.generateOut ≠ s.capturedLog :=
  Path.child_ne_child (by decide) (by decide) (by decide)

theorem generateErrors_ne_capturedLog : s.generateErrors ≠ s.capturedLog :=
  Path.child_ne_child (by decide) (by decide) (by decide)

theorem applyOut_ne_capturedLog : s.applyOut ≠ s.capturedLog :=
  Path.child_ne_child (by decide) (by decide) (by decide)

theorem applyErrors_ne_capturedLog : s.applyErrors ≠ s.capturedLog :=
  Path.child_ne_child (by decide) (by decide) (by decide)

theorem targetErrors_ne_capturedLog : s.targetErrors ≠ s.capturedLog :=
  Path.child_ne_child (by decide) (by decide) (by decide)

/-- The command by which the patch of a scenario is made. -/
def generateArgv (c : Setting) (s : Scenario) : List String :=
  generateCommand c.harness.patchTool s.artifact s.oldTree s.newTree s.execName

/-- The command by which the patch of a scenario is applied to a process. -/
def applyArgv (c : Setting) (s : Scenario) (program : Pid) : List String :=
  applyCommand c.harness.patchTool s.artifact program

theorem emits_generate (c : Setting) :
    Emits s (generate c s).outcome
      (Ends (fun _ => StageDone (generateArgv c s) "gen|") fun _ => StageBroken (generateArgv c s)) :=
  emits_toolStage .generate _ c.log "gen|" _ generateOut_ne_capturedLog
    generateErrors_ne_capturedLog

theorem emits_apply (c : Setting) (program : Pid) :
    Emits s (apply c s program).outcome
      (Ends (fun _ => StageDone (applyArgv c s program) "patch|") fun _ =>
        StageBroken (applyArgv c s program)) :=
  emits_toolStage .apply _ c.log "patch|" _ applyOut_ne_capturedLog applyErrors_ne_capturedLog

/-! ## The target -/

/-- The actions of a start: the target is started at most once, and what is held of it is new. -/
def Launched {ε : Type} (argv : List String) (terminator : Terminator) :
    Except ε Target → List Action → Prop
  | .ok t, acts => acts = [.launched argv (.ok t.pid)] ∧ t.terminator = terminator ∧
    t.finished = none ∧ t.stopped = false
  | .error _, acts => acts = [] ∨ ∃ e, acts = [.launched argv (.error e)]

theorem emits_targetLaunch (argv : List String) (out err : Handle) (terminator : Terminator)
    (wrapperComm : Option String) :
    Emits s (Target.launch argv out err terminator wrapperComm).outcome
      (Launched argv terminator) := by
  cases argv with
  | nil => exact Emits.attempt_throw (.inl rfl)
  | cons program args =>
    refine Emits.attempt_bind (Q := fun r acts => acts = [.launched (program :: args) r]) ?_ ?_ ?_
    · refine Emits.attempt_of (Emits.request fun how => ?_)
      cases how <;> rfl
    · intro pid xs e
      obtain rfl := e
      refine Quiet.lift_before (Quiet.request fun _ => rfl) fun _ => ?_
      exact Emits.attempt_pure ⟨rfl, rfl, rfl, rfl⟩
    · intro e xs e'
      obtain rfl := e'
      exact .inr ⟨e, rfl⟩

theorem emits_launch (c : Setting) :
    Emits s (launch c s).outcome
      (Launched (launchCommand c.harness s) (terminatorOf c.harness s)) := by
  refine (quiet_log (quiet_line c.log _)).attempt_before (fun _ => ?_) fun _ => .inl rfl
  refine (quiet_log (quiet_lines c.log _)).attempt_before (fun _ => ?_) fun _ => .inl rfl
  refine (quiet_createCapture _).attempt_before (fun out => ?_) fun _ => .inl rfl
  refine (quiet_createCapture _).attempt_before (fun err => ?_) fun _ => .inl rfl
  refine Emits.attempt_of ((emits_targetLaunch _ out err _ _).mono fun r acts h => ?_)
  cases r with
  | ok t => exact h
  | error e => exact h

/-- The target settles; nothing else is done until the process under test is known. -/
theorem emits_findProgram (c : Setting) (t : Target) :
    Emits s (findProgram c s t).outcome fun _ acts => acts = [.rested s.settleMs] := by
  refine Emits.lift_bind (P := fun _ acts => acts = [.rested s.settleMs])
    (Emits.request fun _ => rfl) ?_
  intro u xs e
  obtain rfl := e
  refine (quiet_programPid t).lift_before fun pid => ?_
  dsimp only
  split
  · refine (quiet_log (quiet_line c.log _)).attempt_before (fun _ => ?_) fun _ => rfl
    exact Emits.attempt_pure rfl
  · exact Emits.attempt_pure rfl

/-! ### Plans that keep the target up to date -/

/-- However an operation on a target runs, its outcome, the target after it and the actions it adds
have a property. -/
def EmitsOn {α : Type} (s : Scenario) (t : Target) (x : WithTarget α)
    (Q : Except Failure α → Target → List Action → Prop) : Prop :=
  Emits s (x.run.run t) fun p => Q p.1 p.2

namespace EmitsOn
variable {α β : Type} {t : Target} {Q : Except Failure α → Target → List Action → Prop}

theorem pure {a : α} (h : Q (.ok a) t []) : EmitsOn s t (Pure.pure a) Q := Emits.done h

theorem throw {f : Failure} (h : Q (.error f) t []) : EmitsOn s t (MonadExcept.throw f) Q :=
  Emits.done h

theorem bind {x : WithTarget α} {f : α → WithTarget β}
    {R : Except Failure β → Target → List Action → Prop} (h : EmitsOn s t x Q)
    (hok : ∀ a t' xs, Q (.ok a) t' xs → EmitsOn s t' (f a) fun r t'' ys => R r t'' (xs ++ ys))
    (herr : ∀ e t' xs, Q (.error e) t' xs → R (.error e) t' xs) : EmitsOn s t (x >>= f) R := by
  refine Emits.bind h ?_
  intro p xs hq
  obtain ⟨r, t'⟩ := p
  cases r with
  | ok a => exact hok a t' xs hq
  | error e => exact Emits.done (by rw [List.append_nil]; exact herr e t' xs hq)

theorem step {x : Step α} {P : Except Failure α → List Action → Prop} (h : Emits s x.outcome P) :
    EmitsOn s t (WithTarget.step x) fun r t' acts => t' = t ∧ P r acts :=
  h.bind fun r xs hp => Emits.done (by rw [List.append_nil]; exact ⟨rfl, hp⟩)

theorem operate {f : IoError → Failure} {op : Target → Plan (Except IoError α × Target)}
    (h : Emits s (op t) fun p acts => Q (p.1.mapError f) p.2 acts) :
    EmitsOn s t (WithTarget.operate f op) Q :=
  h.bind fun p xs hq => Emits.done (by rw [List.append_nil]; exact hq)

end EmitsOn

/-! ## Stopping the target -/

/-- The actions that stopping a target is made of: questions, pauses and kill commands. -/
inductive Stopping (c : Setting) (pid : Pid) : Action → Prop
  | polled {how : Except IoError (Option ExitStatus)} : Stopping c pid (.polled pid how)
  | rested {ms : Nat} : Stopping c pid (.rested ms)
  | killed {signal : String} {how : Except IoError ExitStatus} :
    Stopping c pid (.ran (killCommand c.harness.escalateWith pid signal) none none how)

/-- The actions of an attempt to stop a target. -/
def AllStopping (c : Setting) (pid : Pid) (acts : List Action) : Prop :=
  ∀ a ∈ acts, Stopping c pid a

/-- The target was found to have ended. -/
def Ended (pid : Pid) (acts : List Action) : Prop :=
  ∃ status, .polled pid (.ok (some status)) ∈ acts

theorem AllStopping.append {c : Setting} {pid : Pid} {xs ys : List Action}
    (h : AllStopping c pid xs) (h' : AllStopping c pid ys) : AllStopping c pid (xs ++ ys) := by
  intro a ha
  rcases List.mem_append.1 ha with ha | ha
  · exact h a ha
  · exact h' a ha

theorem AllStopping.nil {c : Setting} {pid : Pid} : AllStopping c pid [] := by
  intro a ha
  cases ha

theorem Stopping.all {c : Setting} {pid : Pid} {a : Action} (h : Stopping c pid a) :
    AllStopping c pid [a] := by
  intro b hb
  rw [List.mem_singleton.1 hb]
  exact h

theorem Ended.left {pid : Pid} {xs : List Action} (h : Ended pid xs) (ys : List Action) :
    Ended pid (xs ++ ys) := by
  obtain ⟨status, hm⟩ := h
  exact ⟨status, List.mem_append_left ys hm⟩

theorem Ended.right {pid : Pid} {ys : List Action} (h : Ended pid ys) (xs : List Action) :
    Ended pid (xs ++ ys) := by
  obtain ⟨status, hm⟩ := h
  exact ⟨status, List.mem_append_right xs hm⟩

variable (c : Setting) (pid : Pid)

/-- The actions of waiting: a group is found to be gone only after its leader was found to have
ended. -/
def Waited : Except IoError Bool → List Action → Prop :=
  Ends (fun gone acts => AllStopping c pid acts ∧ (gone = true → Ended pid acts))
    fun _ acts => AllStopping c pid acts

theorem emits_waitFrom (graceMs start looks : Nat) :
    Emits s (waitFrom pid graceMs start looks).outcome (Waited c pid) := by
  induction looks with
  | zero => exact Emits.attempt_pure ⟨.nil, fun h => (by cases h)⟩
  | succ looks ih =>
    refine Emits.attempt_bind (Q := fun r acts => acts = [.polled pid r]) ?_ ?_ ?_
    · refine Emits.attempt_of (Emits.request fun how => ?_)
      cases how <;> rfl
    · intro ended xs e
      obtain rfl := e
      have asked : AllStopping c pid [.polled pid (.ok ended)] := Stopping.polled.all
      -- what is done after a look that does not find the group gone, put behind that look
      have more : Emits s (do
          if graceMs * 1000 ≤ (← Plan.request .now) - start then return false
          Plan.request (.sleep pollMs)
          waitFrom pid graceMs start looks : Attempt IoError Bool).outcome
          fun r ys => Waited c pid r ([.polled pid (.ok ended)] ++ ys) := by
        refine (Quiet.request fun _ => rfl).lift_before fun now => ?_
        split
        · exact Emits.attempt_pure ⟨asked, fun h => (by cases h)⟩
        · refine Emits.lift_bind (P := fun _ acts => acts = [.rested pollMs])
            (Emits.request fun _ => rfl) ?_
          intro u ys e
          obtain rfl := e
          refine ih.mono fun r zs hr => ?_
          have slept : Stopping c pid (.rested pollMs) := .rested
          have before := asked.append slept.all
          cases r with
          | ok gone => exact ⟨before.append hr.1, fun hg => ((hr.2 hg).right _).right _⟩
          | error e => exact before.append hr
      cases ended with
      | none => exact more
      | some status =>
        refine (quiet_groupIsAlive pid).lift_before fun alive => ?_
        cases alive with
        | false => exact Emits.attempt_pure ⟨asked, fun _ => ⟨status, List.mem_singleton_self _⟩⟩
        | true => exact more
    · intro e xs e'
      obtain rfl := e'
      exact Stopping.polled.all

theorem emits_waitForGroup (graceMs : Nat) :
    Emits s (waitForGroup pid graceMs).outcome (Waited c pid) :=
  (Quiet.request fun _ => rfl).lift_before fun now => emits_waitFrom c pid graceMs now _

/-- Sending a signal through the escalation command is a kill command. -/
theorem emits_killThrough (signal : String) :
    Emits s (killThrough c.harness.escalateWith pid signal).outcome fun _ acts =>
      AllStopping c pid acts := by
  have killed : ∀ how : Except IoError ExitStatus, AllStopping c pid
      [.ran (killCommand c.harness.escalateWith pid signal) none none how] :=
    fun _ => Stopping.killed.all
  rw [killThrough.eq_def]
  split
  · exact Emits.attempt_throw .nil
  · refine Emits.attempt_bind (Q := fun _ acts => AllStopping c pid acts) ?_ ?_ fun _ _ h => h
    · exact Emits.attempt_of (Emits.request fun how => killed how)
    · intro status xs h
      exact Emits.attempt_pure (by rw [List.append_nil]; exact h)

theorem emits_tell :
    Emits s ((terminatorOf c.harness s).tell pid).outcome fun _ acts => AllStopping c pid acts := by
  rw [terminatorOf]
  split
  · exact emits_killThrough c pid "-TERM"
  · refine (quiet_signalGroup pid _).mono ?_
    intro _ _ e
    obtain rfl := e
    exact .nil

theorem emits_kill :
    Emits s ((terminatorOf c.harness s).kill pid).outcome fun _ acts => AllStopping c pid acts := by
  rw [terminatorOf]
  split
  · exact emits_killThrough c pid "-KILL"
  · refine (quiet_signalGroup pid _).mono ?_
    intro _ _ e
    obtain rfl := e
    exact .nil

/-- The actions of stopping a group: if that succeeds, its leader was found to have ended. -/
def Stopped : Except IoError Unit → List Action → Prop :=
  Ends (fun _ acts => AllStopping c pid acts ∧ Ended pid acts) fun _ acts => AllStopping c pid acts

/-- One round of stopping a group: a signal, waiting, and something else if that was in vain. -/
theorem emits_round {signal otherwise : Attempt IoError Unit} (graceMs : Nat)
    (hs : Emits s signal.outcome fun _ acts => AllStopping c pid acts)
    (ho : Emits s otherwise.outcome (Stopped c pid)) :
    Emits s (do
        signal
        if ← waitForGroup pid graceMs then return ()
        otherwise : Attempt IoError Unit).outcome (Stopped c pid) := by
  refine Emits.attempt_bind hs ?_ fun _ _ h => h
  intro u told htold
  refine Emits.attempt_bind (emits_waitForGroup c pid graceMs) ?_ fun _ _ h => htold.append h
  intro gone waited h
  obtain ⟨hwaited, hgone⟩ := h
  have before := htold.append hwaited
  cases gone with
  | true =>
    refine Emits.attempt_pure ?_
    rw [List.append_nil]
    exact ⟨before, (hgone rfl).right told⟩
  | false =>
    refine ho.mono fun r acts h => ?_
    rw [← List.append_assoc]
    cases r with
    | ok u => exact ⟨before.append h.1, h.2.right _⟩
    | error e => exact before.append h

theorem emits_terminate :
    Emits s ((terminatorOf c.harness s).terminate pid).outcome (Stopped c pid) :=
  emits_round c pid _ (emits_tell c pid)
    (emits_round c pid _ (emits_kill c pid) (Emits.attempt_throw .nil))

variable {c}

/-- The actions of stopping a target, and the target after it. -/
theorem emits_stopTarget {t : Target} (ht : t.terminator = terminatorOf c.harness s)
    (hs : t.stopped = false) :
    Emits s t.terminate fun p acts =>
      match p.1 with
      | .ok () => p.2.stopped = true ∧
        ∃ xs, acts = xs ++ [.released t.pid] ∧ AllStopping c t.pid xs ∧ Ended t.pid xs
      | .error _ => p.2 = t ∧ AllStopping c t.pid acts := by
  rw [Target.terminate, hs, if_neg Bool.false_ne_true, ht]
  refine (emits_terminate c t.pid).bind fun r xs h => ?_
  cases r with
  | error e => exact Emits.done ⟨rfl, by rw [List.append_nil]; exact h⟩
  | ok u =>
    refine (Emits.request (Q := fun how acts => acts = [.polled t.pid how]) fun _ => rfl).bind ?_
    intro how ys e
    obtain rfl := e
    have question : Stopping c t.pid (.polled t.pid how) := .polled
    have asked := h.1.append question.all
    cases how with
    | error e => exact Emits.done ⟨rfl, by rw [List.append_nil]; exact asked⟩
    | ok status =>
      refine (Emits.request (Q := fun _ acts => acts = [.released t.pid]) fun _ => rfl).bind ?_
      intro u' zs e
      obtain rfl := e
      exact Emits.done ⟨rfl, _, (List.append_assoc _ _ _).symm, asked, h.2.left _⟩

/-- The actions by which a target is given up. It is released only once it was found to have ended,
or was waited for. -/
def Closing (c : Setting) (pid : Pid) (acts : List Action) : Prop :=
  ∃ xs tail, acts = xs ++ tail ∧ AllStopping c pid xs ∧
    (Ended pid xs ∧ (tail = [.released pid] ∨ tail = [.released pid, .released pid]) ∨
      tail = [.awaited pid, .released pid])

/-- What is left of a target after some actions: it is given up, or only attempts to stop it were
made so far. -/
def Left (c : Setting) (t t' : Target) (acts : List Action) : Prop :=
  t'.stopped = true ∧ Closing c t.pid acts ∨
    t'.stopped = false ∧ t'.pid = t.pid ∧ t'.terminator = t.terminator ∧ AllStopping c t.pid acts

theorem Left.congr {t₀ t t' : Target} {acts : List Action} (samePid : t₀.pid = t.pid)
    (sameTerminator : t₀.terminator = t.terminator) (h : Left c t₀ t' acts) : Left c t t' acts := by
  rw [Left, samePid, sameTerminator] at h
  exact h

theorem Closing.after {pid : Pid} {xs ys : List Action} (h : AllStopping c pid xs)
    (h' : Closing c pid ys) : Closing c pid (xs ++ ys) := by
  obtain ⟨zs, tail, rfl, hz, ht⟩ := h'
  refine ⟨xs ++ zs, tail, (List.append_assoc xs zs tail).symm, h.append hz, ?_⟩
  rcases ht with ⟨ended, ht⟩ | ht
  · exact .inl ⟨ended.right xs, ht⟩
  · exact .inr ht

theorem emits_disposeUnstopped {t : Target} (ht : t.terminator = terminatorOf c.harness s)
    (hs : t.stopped = false) : Emits s t.dispose fun _ acts => Closing c t.pid acts := by
  rw [Target.dispose, hs, if_neg Bool.false_ne_true]
  refine (emits_stopTarget ht hs).bind ?_
  intro p xs h
  obtain ⟨r, t'⟩ := p
  cases r with
  | ok u =>
    obtain ⟨-, ys, rfl, hys, ended⟩ := h
    refine Emits.request fun _ => ?_
    exact ⟨ys, _, List.append_assoc _ _ _, hys, .inl ⟨ended, .inr rfl⟩⟩
  | error e =>
    refine (quiet_signalGroup t.pid _).before fun _ => ?_
    refine (Quiet.request fun _ => rfl).before fun _ => ?_
    refine (Emits.request (Q := fun _ acts => acts = [.awaited t.pid]) fun _ => rfl).bind ?_
    intro how ys e
    obtain rfl := e
    refine Emits.request fun _ => ?_
    exact ⟨xs, _, rfl, h.2, .inr rfl⟩

/-- Whatever is left of a target, disposing of it gives it up. -/
theorem emits_dispose {t t' : Target} {zs : List Action}
    (ht : t.terminator = terminatorOf c.harness s) (h : Left c t t' zs) :
    Emits s t'.dispose fun _ acts => Closing c t.pid (zs ++ acts) := by
  rcases h with ⟨stopped, closed⟩ | ⟨unstopped, samePid, sameTerminator, tried⟩
  · rw [Target.dispose, stopped, if_pos rfl]
    exact Emits.done (by rw [List.append_nil]; exact closed)
  · have h := emits_disposeUnstopped (sameTerminator.trans ht) unstopped
    rw [samePid] at h
    exact h.mono fun _ acts hc => hc.after tried

/-- Stopping the target, which may fail. -/
theorem emits_stop (program : Pid) {t : Target} (ht : t.terminator = terminatorOf c.harness s)
    (hs : t.stopped = false) :
    EmitsOn s t (stop c program) fun _ t' acts => Left c t t' acts := by
  refine Emits.bind (emits_stopTarget ht hs) ?_
  intro p xs h
  obtain ⟨r, t'⟩ := p
  cases r with
  | ok u =>
    obtain ⟨stopped, ys, rfl, hys, ended⟩ := h
    refine Emits.done ?_
    rw [List.append_nil]
    exact .inl ⟨stopped, ys, _, rfl, hys, .inl ⟨ended, .inl rfl⟩⟩
  | error e =>
    obtain ⟨rfl, tried⟩ := h
    refine (quiet_log (quiet_line c.log _)).before fun r => Emits.done ?_
    rw [List.append_nil]
    exact .inr ⟨hs, rfl, rfl, tried⟩

/-! ## From the start of the target to its end -/

/-- The question whether the target still runs, when nothing is known of its end yet. -/
theorem emits_exitStatus {t : Target} (hf : t.finished = none) :
    Emits s t.exitStatus fun p acts => acts = [.polled t.pid p.1] ∧
      p.2.stopped = t.stopped ∧ p.2.pid = t.pid ∧ p.2.terminator = t.terminator := by
  rw [Target.exitStatus, hf]
  refine (Emits.request (Q := fun how acts => acts = [.polled t.pid how]) fun _ => rfl).bind ?_
  intro how xs e
  obtain rfl := e
  cases how <;> exact Emits.done ⟨rfl, rfl, rfl, rfl⟩

/-- The target is observed; the observation is passed only if it has not ended. -/
theorem emits_observe (program : Pid) {t : Target} (hf : t.finished = none) :
    EmitsOn s t (observe c s program) fun r t' acts =>
      (∃ how, acts = [.rested s.observeMs, .polled t.pid how] ∧ (r = .ok () → how = .ok none)) ∧
        t'.stopped = t.stopped ∧ t'.pid = t.pid ∧ t'.terminator = t.terminator := by
  refine EmitsOn.bind (EmitsOn.step
    (P := fun r acts => (∃ u, r = .ok u) ∧ acts = [.rested s.observeMs])
    (Emits.attempt_lift (Emits.request fun u => ⟨⟨u, rfl⟩, rfl⟩))) ?_ ?_
  · intro u t₁ xs h
    obtain ⟨rfl, -, rfl⟩ := h
    refine EmitsOn.bind (EmitsOn.operate (Q := fun r t' acts =>
      (∃ how, acts = [.polled t₁.pid how] ∧
        r = how.mapError (Failure.refused ("poll target pid " ++ toString program))) ∧
        t'.stopped = t₁.stopped ∧ t'.pid = t₁.pid ∧ t'.terminator = t₁.terminator)
      ((emits_exitStatus hf).mono fun p acts h => ⟨⟨p.1, h.1, rfl⟩, h.2⟩)) ?_ ?_
    · intro exited t₂ ys h
      obtain ⟨⟨how, rfl, e⟩, same⟩ := h
      cases how with
      | error e' => cases e
      | ok exited' =>
        cases e
        cases exited with
        | none => exact EmitsOn.pure ⟨⟨_, rfl, fun _ => rfl⟩, same⟩
        | some status =>
          -- the complaints of the target are copied before the failure, and that is no action
          refine EmitsOn.bind (EmitsOn.step (P := fun _ acts => acts = [])
            ((quiet_appendFile c.log _ targetErrors_ne_capturedLog).lift_before fun _ =>
              Emits.attempt_pure rfl)) ?_ ?_
          · intro u' t₃ zs h
            obtain ⟨rfl, rfl⟩ := h
            exact EmitsOn.throw ⟨⟨_, rfl, fun h => (by cases h)⟩, same⟩
          · intro e t₃ zs h
            obtain ⟨rfl, rfl⟩ := h
            exact ⟨⟨_, rfl, fun h => (by cases h)⟩, same⟩
    · intro e t₂ ys h
      obtain ⟨⟨how, rfl, -⟩, same⟩ := h
      exact ⟨⟨how, rfl, fun h => (by cases h)⟩, same⟩
  · intro e t₁ xs h
    obtain ⟨-, ⟨u, e'⟩, -⟩ := h
    cases e'

/-- What is done from the start of the target on, `ending` being what is done at last: the patch is
not applied, or it is, and the target is observed and asked after. -/
inductive Handled (c : Setting) (s : Scenario) (pid : Pid) (ending : List Action → Prop) :
    Except Failure Unit → List Action → Prop
  /-- The patch is not applied. -/
  | cut {f : Failure} {program : Pid} {applying zs : List Action} :
    StageBroken (applyArgv c s program) applying → ending zs →
      Handled c s pid ending (.error f) (.rested s.settleMs :: (applying ++ zs))
  /-- The patch is applied. -/
  | observed {r : Except Failure Unit} {program : Pid} {applying zs : List Action}
      {how : Except IoError (Option ExitStatus)} :
    StageDone (applyArgv c s program) "patch|" applying → (r = .ok () → how = .ok none) →
      ending zs → Handled c s pid ending r
        (.rested s.settleMs :: (applying ++ .rested s.observeMs :: .polled pid how :: zs))

theorem emits_attend {t : Target} (ht : t.terminator = terminatorOf c.harness s)
    (hf : t.finished = none) (hs : t.stopped = false) :
    EmitsOn s t (attend c s) fun r t' acts => Handled c s t.pid (Left c t t') r acts := by
  have untouched : Left c t t [] := .inr ⟨hs, rfl, rfl, .nil⟩
  refine EmitsOn.bind (Q := fun r t' acts => r = .ok t ∧ t' = t ∧ acts = [])
    (Emits.done ⟨rfl, rfl, rfl⟩) ?_ fun e t' xs h => (by cases h.1)
  -- nothing touches the target until it is observed, so its fields are carried through
  intro t₀ t₁ xs h
  obtain ⟨e, e', rfl⟩ := h
  obtain rfl : t₀ = t := Except.ok.inj e
  subst e'
  refine EmitsOn.bind (EmitsOn.step (emits_findProgram c t₁)) ?_ ?_
  · intro program t₂ xs h
    obtain ⟨rfl, rfl⟩ := h
    refine EmitsOn.bind (EmitsOn.step (emits_apply c program)) ?_ ?_
    · intro u t₃ applying h
      obtain ⟨rfl, finished⟩ := h
      refine EmitsOn.bind (emits_observe (c := c) program hf) ?_ ?_
      · intro u' t₄ xs h
        obtain ⟨⟨how, rfl, alive⟩, sameStop, samePid, sameTerminator⟩ := h
        have h := emits_stop (c := c) program (sameTerminator.trans ht) (sameStop.trans hs)
        refine h.mono fun p zs left => ?_
        refine .observed finished (fun _ => alive rfl) ?_
        exact Left.congr samePid sameTerminator left
      · intro f t₄ xs h
        obtain ⟨⟨how, rfl, alive⟩, sameStop, samePid, sameTerminator⟩ := h
        refine .observed finished (fun e => (by cases e)) ?_
        exact .inr ⟨sameStop.trans hs, samePid, sameTerminator, .nil⟩
    · intro f t₃ applying h
      obtain ⟨rfl, broken⟩ := h
      have h : Handled c s t₃.pid (Left c t₃ t₃) (.error f)
          (.rested s.settleMs :: (applying ++ [])) := .cut broken untouched
      rw [List.append_nil] at h
      exact h
  · intro f t₂ xs h
    obtain ⟨rfl, rfl⟩ := h
    have broken : StageBroken (applyArgv c s 0) [] := .inl rfl
    exact .cut broken untouched

/-- Whatever was done with the target, disposing of it ends that. -/
theorem emits_disposeHandled {t t' : Target} {r : Except Failure Unit} {handling : List Action}
    (ht : t.terminator = terminatorOf c.harness s)
    (h : Handled c s t.pid (Left c t t') r handling) :
    Emits s t'.dispose fun _ acts => Handled c s t.pid (Closing c t.pid) r (handling ++ acts) := by
  cases h with
  | cut broken left =>
    refine (emits_dispose ht left).mono fun _ acts closed => ?_
    rw [List.cons_append, List.append_assoc]
    exact .cut broken closed
  | observed finished alive left =>
    refine (emits_dispose ht left).mono fun _ acts closed => ?_
    rw [List.cons_append, List.append_assoc, List.cons_append, List.cons_append]
    exact .observed finished alive closed

/-! ## The whole trial -/

/-- The actions of the judgment: the log is read at most once, and the verdict is that on what was
read. -/
def Judged (s : Scenario) (v : Validator) : Except Failure Unit → List Action → Prop
  | .ok _, acts => ∃ how, acts = [.judged how] ∧ (v.judge s.capturedLog how).passed = true
  | .error _, acts => acts = [] ∨
    ∃ how, acts = [.judged how] ∧ (v.judge s.capturedLog how).passed = false

theorem emits_judge (c : Setting) (v : Validator) :
    Emits s (judge c s v).outcome (Judged s v) := by
  refine (quiet_log (quiet_line c.log _)).attempt_before (fun _ => ?_) fun _ => .inl rfl
  refine Emits.lift_bind (P := fun verdict acts =>
    ∃ how, acts = [.judged how] ∧ verdict = v.judge s.capturedLog how) ?_ ?_
  · refine (Emits.request (Q := fun how acts => acts = [.judged how]) fun how => ?_).bind ?_
    · exact congrArg Option.toList (if_pos rfl)
    · intro how xs e
      obtain rfl := e
      refine (quiet_writeAll c.log _).before fun _ => Emits.done ?_
      exact ⟨how, rfl, rfl⟩
  · intro verdict xs h
    obtain ⟨how, rfl, e⟩ := h
    cases verdict with
    | pass => exact Emits.attempt_pure ⟨how, rfl, by rw [← e]; rfl⟩
    | fail why => exact Emits.attempt_throw (.inr ⟨how, rfl, by rw [← e]; rfl⟩)

/-- All that a trial does, in order, for each way in which it can go. -/
inductive Course (c : Setting) (s : Scenario) (v : Validator) :
    Except Failure Unit → List Action → Prop
  /-- No patch is made. -/
  | ungenerated {f : Failure} {making : List Action} :
    StageBroken (generateArgv c s) making → Course c s v (.error f) making
  /-- The target is not started. -/
  | unlaunched {f : Failure} {making starting : List Action} :
    StageDone (generateArgv c s) "gen|" making →
      (starting = [] ∨ ∃ e, starting = [.launched (launchCommand c.harness s) (.error e)]) →
      Course c s v (.error f) (making ++ starting)
  /-- Something fails while the target runs. -/
  | unfinished {f : Failure} {pid : Pid} {making handling : List Action} :
    StageDone (generateArgv c s) "gen|" making →
      Handled c s pid (Closing c pid) (.error f) handling →
      Course c s v (.error f)
        (making ++ .launched (launchCommand c.harness s) (.ok pid) :: handling)
  /-- The judgment is reached. -/
  | finished {r : Except Failure Unit} {pid : Pid} {making handling judging : List Action} :
    StageDone (generateArgv c s) "gen|" making →
      Handled c s pid (Closing c pid) (.ok ()) handling → Judged s v r judging →
      Course c s v r
        (making ++ .launched (launchCommand c.harness s) (.ok pid) :: (handling ++ judging))

theorem emits_attempt (c : Setting) (v : Validator) :
    Emits s (attempt c s v).outcome (Course c s v) := by
  have unmade : ∀ f, Course c s v (.error f) [] := fun f => .ungenerated (.inl rfl)
  refine (quiet_log (quiet_lines c.log _)).attempt_before (fun _ => ?_) unmade
  refine Emits.attempt_bind (emits_generate c) ?_ fun f making broken => .ungenerated broken
  intro u making made
  refine Emits.attempt_bind (emits_launch c) ?_ fun f starting h => .unlaunched made h
  intro t starting h
  obtain ⟨rfl, ht, hf, hs⟩ := h
  refine Emits.lift_bind (emits_attend (c := c) ht hf hs) ?_
  intro p handling handled
  obtain ⟨r, t'⟩ := p
  refine Emits.lift_bind (emits_disposeHandled ht handled) ?_
  intro u' closing handled'
  cases r with
  | error f =>
    refine Emits.attempt_throw ?_
    rw [List.append_nil]
    exact .unfinished made handled'
  | ok u'' =>
    refine (emits_judge c v).mono fun r judging judged => ?_
    have h := Course.finished made handled' judged
    rw [List.append_assoc] at h
    exact h

theorem emits_run (c : Setting) (v : Validator) : Emits s (run c s v) (Course c s v) := by
  refine (emits_attempt c v).bind fun r acts h => ?_
  cases r with
  | ok u => exact Emits.done (by rw [List.append_nil]; exact h)
  | error f =>
    refine (quiet_recordFailure c.log f).before fun _ => Emits.done ?_
    rw [List.append_nil]
    exact h

end PatchTrial.Trial
