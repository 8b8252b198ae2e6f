import PatchTrial.Proofs.Path
import PatchTrial.Proofs.Plan.Runs
import PatchTrial.Trial.Run

/-!
What a trial does. Of all exchanges with the machine only some are actions: programs run and
started, questions after processes, progress, pauses, and the reading of the log that is judged.
Writing to the diagnostic log, opening files, sending signals and reading the roster are not.

What is proved:
  1. `Emits.bind` and the other rules: the actions of a plan are those of its parts, one after
     another.
  2. `quiet_log` and the lemmas beside it: the parts of a trial that act in no way.
-/
namespace PatchTrial.Trial

/-- What a trial does, and how that turned out. -/
inductive Action
  /-- A program was run to its end. -/
  | ran (argv : List String) (out err : Option Handle) (how : Except IoError ExitStatus)
  /-- A program was started. -/
  | launched (argv : List String) (how : Except IoError Pid)
  /-- It was asked whether a program has ended. -/
  | polled (pid : Pid) (how : Except IoError (Option ExitStatus))
  /-- The end of a program was waited for. -/
  | awaited (pid : Pid)
  /-- A program that was started was given up. -/
  | released (pid : Pid)
  /-- Something was written to the record of progress. -/
  | reported (text : String) (how : Except IoError Unit)
  /-- The record of progress was made visible. -/
  | flushed (how : Except IoError Unit)
  /-- Time was let pass. -/
  | rested (ms : Nat)
  /-- The log of the target was read, to be judged. -/
  | judged (how : Except IoError Bytes)

def actionOf? (s : Scenario) : (r : Request) → r.Reply → Option Action
  | .run argv out err, how => some (.ran argv out err how)
  | .spawn argv _ _, how => some (.launched argv how)
  | .poll pid, how => some (.polled pid how)
  | .await pid, _ => some (.awaited pid)
  | .retract pid, _ => some (.released pid)
  | .report text, how => some (.reported text how)
  | .flush, how => some (.flushed how)
  | .sleep ms, _ => some (.rested ms)
  | .read path, how => if path = s.capturedLog then some (.judged how) else none
  | _, _ => none

def actions (s : Scenario) (past : Trace) : List Action :=
  past.filterMap fun e => actionOf? s e.request e.reply

/-- A machine that replies anything and keeps a list of the actions. -/
def acting (s : Scenario) : Answers (List Action) := fun past r reply past' =>
  past' = past ++ (actionOf? s r reply).toList

/-- However a plan runs, the actions it adds have a property. -/
def Emits {α : Type} (s : Scenario) (p : Plan α) (Q : α → List Action → Prop) : Prop :=
  ∀ past, p.Always (acting s) past fun a past' => ∃ acts, past' = past ++ acts ∧ Q a acts

variable {s : Scenario}

namespace Emits
variable {α β : Type} {p : Plan α} {Q : α → List Action → Prop}

theorem mono {Q' : α → List Action → Prop} (h : Emits s p Q) (imp : ∀ a xs, Q a xs → Q' a xs) :
    Emits s p Q' := by
  intro past
  refine (h past).mono ?_
  intro a past' h
  obtain ⟨acts, e, hq⟩ := h
  exact ⟨acts, e, imp a acts hq⟩

theorem done {a : α} (h : Q a []) : Emits s (.done a) Q := by
  intro past
  rw [Plan.always_done]
  exact ⟨[], (List.append_nil past).symm, h⟩

theorem request {r : Request} {Q : r.Reply → List Action → Prop}
    (h : ∀ reply, Q reply (actionOf? s r reply).toList) : Emits s (Plan.request r) Q := by
  intro past
  rw [Plan.always_request]
  intro reply past' e
  obtain rfl := e
  exact ⟨_, rfl, h reply⟩

theorem bind {f : α → Plan β} {R : β → List Action → Prop} (h : Emits s p Q)
    (hf : ∀ a xs, Q a xs → Emits s (f a) fun b ys => R b (xs ++ ys)) : Emits s (p >>= f) R := by
  intro past
  rw [Plan.always_bind]
  refine (h past).mono ?_
  intro a past' h
  obtain ⟨xs, rfl, hq⟩ := h
  refine (hf a xs hq (past ++ xs)).mono ?_
  intro b past'' h
  obtain ⟨ys, rfl, hr⟩ := h
  exact ⟨xs ++ ys, List.append_assoc past xs ys, hr⟩

/-- The actions of a trace under any environment. -/
theorem play (h : Emits s p Q) (env : Environment) :
    Q (p.play env []).1 (actions s (p.play env []).2) := by
  have follows : ∀ past r reply,
      acting s (actions s past) r reply (actions s (past ++ [⟨r, reply⟩])) := by
    intro past r reply
    rw [acting, actions, actions, List.filterMap_append]
    cases e : actionOf? s r reply <;> simp [e]
  have start : p.Always (acting s) (actions s []) _ := h []
  obtain ⟨acts, e, hq⟩ := Plan.always_play follows start env
  rw [e]
  exact hq

end Emits

/-! ## Attempts -/

namespace Emits
variable {ε α β : Type} {x : Attempt ε α} {Q : Except ε α → List Action → Prop}

theorem attempt_pure {a : α} (h : Q (.ok a) []) : Emits s (pure a : Attempt ε α).outcome Q :=
  done h

theorem attempt_throw {e : ε} (h : Q (.error e) []) :
    Emits s (throw e : Attempt ε α).outcome Q := done h

theorem attempt_bind {f : α → Attempt ε β} {R : Except ε β → List Action → Prop}
    (h : Emits s x.outcome Q)
    (hok : ∀ a xs, Q (.ok a) xs → Emits s (f a).outcome fun r ys => R r (xs ++ ys))
    (herr : ∀ e xs, Q (.error e) xs → R (.error e) xs) : Emits s (x >>= f).outcome R := by
  rw [Attempt.outcome_bind]
  refine h.bind fun r xs hq => ?_
  cases r with
  | ok a => exact hok a xs hq
  | error e => exact done (by rw [List.append_nil]; exact herr e xs hq)

theorem attempt_lift {p : Plan α} {Q : Except ε α → List Action → Prop}
    (h : Emits s p fun a xs => Q (.ok a) xs) : Emits s (liftM p : Attempt ε α).outcome Q := by
  rw [Attempt.outcome_lift]
  exact h.bind fun a xs hq => done (by rw [List.append_nil]; exact hq)

/-- A plan that cannot fail, before the rest of an attempt. -/
theorem lift_bind {p : Plan α} {P : α → List Action → Prop} {f : α → Attempt ε β}
    {R : Except ε β → List Action → Prop} (h : Emits s p P)
    (hf : ∀ a xs, P a xs → Emits s (f a).outcome fun r ys => R r (xs ++ ys)) :
    Emits s ((liftM p : Attempt ε α) >>= f).outcome R := by
  rw [Attempt.outcome_bind, Attempt.outcome_lift, Plan.bind_assoc]
  exact h.bind hf

theorem attempt_of {f : IoError → ε} {p : Plan (Except IoError α)}
    {Q : Except ε α → List Action → Prop} (h : Emits s p fun r xs => Q (r.mapError f) xs) :
    Emits s (Attempt.of f p).outcome Q := by
  rw [Attempt.outcome_of]
  refine h.bind fun r xs hq => ?_
  cases r <;> exact done (by rw [List.append_nil]; exact hq)

end Emits

/-! ## Plans without actions -/

/-- A plan that acts in no way. -/
def Quiet {α : Type} (s : Scenario) (p : Plan α) : Prop := Emits s p fun _ acts => acts = []

namespace Quiet
variable {α β ε : Type} {p : Plan α}

theorem done (a : α) : Quiet s (.done a) := Emits.done rfl

theorem request {r : Request} (h : ∀ reply, actionOf? s r reply = none) :
    Quiet s (Plan.request r) :=
  Emits.request fun reply => by rw [h reply]; rfl

/-- What is quiet adds nothing before what follows it. -/
theorem before {f : α → Plan β} {R : β → List Action → Prop} (h : Quiet s p)
    (hf : ∀ a, Emits s (f a) R) : Emits s (p >>= f) R :=
  h.bind fun a xs e => by rw [e]; exact hf a

theorem bind {f : α → Plan β} (h : Quiet s p) (hf : ∀ a, Quiet s (f a)) : Quiet s (p >>= f) :=
  h.before hf

variable {x : Attempt ε α}

theorem attempt_before {f : α → Attempt ε β} {R : Except ε β → List Action → Prop}
    (h : Quiet s x.outcome) (hok : ∀ a, Emits s (f a).outcome R) (herr : ∀ e, R (.error e) []) :
    Emits s (x >>= f).outcome R :=
  Emits.attempt_bind h (fun a xs e => by rw [e]; exact hok a) fun e xs hx => by
    rw [hx]; exact herr e

theorem attempt_bind {f : α → Attempt ε β} (h : Quiet s x.outcome)
    (hf : ∀ a, Quiet s (f a).outcome) : Quiet s (x >>= f).outcome :=
  h.attempt_before hf fun _ => rfl

theorem attempt_of {f : IoError → ε} {p : Plan (Except IoError α)} (h : Quiet s p) :
    Quiet s (Attempt.of f p).outcome :=
  Emits.attempt_of h

theorem lift_before {f : α → Attempt ε β} {R : Except ε β → List Action → Prop} (h : Quiet s p)
    (hf : ∀ a, Emits s (f a).outcome R) : Emits s ((liftM p : Attempt ε α) >>= f).outcome R :=
  Emits.lift_bind h fun a xs e => by rw [e]; exact hf a

theorem attempt_lift (h : Quiet s p) : Quiet s (liftM p : Attempt ε α).outcome :=
  Emits.attempt_lift h

end Quiet

/-! ### The diagnostic log -/

/-- Reading a file other than the log of the target. -/
theorem quiet_read {path : Path} (h : path ≠ s.capturedLog) :
    Quiet s (Plan.request (.read path)) :=
  Quiet.request fun _ => if_neg h

theorem quiet_put (log : DiagnosticLog) (bytes : Bytes) : Quiet s (log.put bytes).outcome := by
  rw [DiagnosticLog.put]
  split
  · exact Quiet.done _
  · exact Quiet.attempt_of (Quiet.request fun _ => rfl)

theorem quiet_line (log : DiagnosticLog) (text : String) : Quiet s (log.line text).outcome :=
  quiet_put log _

theorem quiet_lines (log : DiagnosticLog) (texts : List String) :
    Quiet s (log.lines texts).outcome := by
  induction texts with
  | nil => exact Quiet.done _
  | cons text rest ih => exact (quiet_line log text).attempt_bind fun _ => ih

theorem quiet_appendFile (log : DiagnosticLog) (heading : String) {path : Path}
    (h : path ≠ s.capturedLog) : Quiet s (log.appendFile heading path).outcome :=
  (quiet_line log _).attempt_bind fun _ =>
    (Quiet.attempt_of (quiet_read h)).attempt_bind fun bytes => quiet_put log bytes

theorem quiet_writeAll (log : DiagnosticLog) (texts : List String) :
    Quiet s (Validator.writeAll log.put texts).outcome := by
  induction texts with
  | nil => exact Quiet.done _
  | cons text rest ih =>
    rw [Validator.writeAll]
    split
    · refine (quiet_put log _).attempt_bind fun _ => ?_
      exact (quiet_put log _).attempt_bind fun _ => ih
    · exact (quiet_put log _).attempt_bind fun _ => ih

/-- Writing to the diagnostic log as part of a trial. -/
theorem quiet_log {α : Type} {x : Attempt IoError α} (h : Quiet s x.outcome) :
    Quiet s (Step.log x).outcome := Quiet.attempt_of h

theorem quiet_createCapture (path : Path) : Quiet s (createCapture path).outcome :=
  Quiet.attempt_of (Quiet.request fun _ => rfl)

theorem quiet_recordFailure (log : DiagnosticLog) (f : Failure) :
    Quiet s (recordFailure log f) :=
  (quiet_lines log _).bind fun _ => Quiet.done _

/-! ### The roster -/

/-- The log of a target has another name than the file with the line of a process. -/
theorem linePath_ne_capturedLog (t : Roster) (pid : Pid) : t.linePath pid ≠ s.capturedLog :=
  Path.child_ne_child (by decide) (by decide) (by decide)

theorem quiet_info? (t : Roster) (pid : Pid) : Quiet s (t.info? pid) :=
  (quiet_read (linePath_ne_capturedLog t pid)).bind fun _ => Quiet.done _

theorem quiet_infos (t : Roster) (pids : List Pid) : Quiet s (t.infos pids) := by
  induction pids with
  | nil => exact Quiet.done _
  | cons pid rest ih =>
    exact (quiet_info? t pid).bind fun _ => ih.bind fun _ => Quiet.done _

theorem quiet_scan (t : Roster) : Quiet s t.scan.outcome :=
  (Quiet.attempt_of (Quiet.request fun _ => rfl)).attempt_bind fun _ =>
    (quiet_infos t _).attempt_lift

theorem quiet_liveChildren (t : Roster) (parent : Pid) :
    Quiet s (t.liveChildren parent).outcome :=
  (quiet_scan t).attempt_bind fun _ => Quiet.done _

theorem quiet_groupIsLive (t : Roster) (group : Pid) : Quiet s (t.groupIsLive group).outcome :=
  (quiet_scan t).attempt_bind fun _ => Quiet.done _

theorem quiet_followWrappers (t : Roster) (comm : String) (steps : Nat) (pid : Pid) :
    Quiet s (t.followWrappers comm steps pid) := by
  induction steps generalizing pid with
  | zero => exact Quiet.done _
  | succ steps ih =>
    refine (quiet_info? t pid).bind fun info => ?_
    cases info with
    | none => exact Quiet.done _
    | some p =>
      dsimp only
      split
      · exact Quiet.done _
      · refine (quiet_liveChildren t pid).bind fun r => ?_
        split
        · exact ih _
        · exact Quiet.done _

theorem quiet_programPid (t : Target) : Quiet s t.programPid := by
  rw [Target.programPid]
  split
  · exact quiet_followWrappers _ _ _ _
  · exact Quiet.done _

theorem quiet_signalGroup (group : Pid) (signal : Signal) :
    Quiet s (signalGroup group signal).outcome := by
  refine (Quiet.request fun _ => rfl).bind fun r => ?_
  cases r <;> exact Quiet.done _

theorem quiet_groupIsAlive (group : Pid) : Quiet s (groupIsAlive group) := by
  refine (quiet_groupIsLive _ group).bind fun r => ?_
  cases r with
  | ok alive => exact Quiet.done _
  | error e =>
    refine (Quiet.request fun _ => rfl).bind fun r => ?_
    cases r <;> exact Quiet.done _

end PatchTrial.Trial
