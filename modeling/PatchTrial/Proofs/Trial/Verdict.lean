import PatchTrial.Proofs.Plan.Asks
import PatchTrial.Proofs.Trial.Discipline
import PatchTrial.Proofs.Validator.Writers

/-!
What the result of a trial depends on once the log of its target is read. From then on the trial only
writes to the diagnostic log, and what becomes of that is of no account.

What is proved:
  1. `emits_run_decided`: if the log is judged, the result of the trial is the verdict on it.
  2. `verdict_ignores_writer`: so neither a validator nor a trial comes to another verdict if a
     writer fails while it is told.
-/
namespace PatchTrial.Trial
open Validator (Writer)

variable {c : Setting} {s : Scenario} {v : Validator} {xs ys : List Action}

/-- The result of a trial for what was read of the log of its target. -/
def resultOn (s : Scenario) (v : Validator) (how : Except IoError Bytes) : Except Failure Unit :=
  match v.judge s.capturedLog how with
  | .pass => .ok ()
  | .fail why => .error (.rejected v.name s.capturedLog why.diagnostics)

/-- The log is not judged. -/
def Unjudged (acts : List Action) : Prop := ∀ how, .judged how ∉ acts

/-- If the log is judged, the result is the verdict. -/
def Decided (s : Scenario) (v : Validator) (r : Except Failure Unit) (acts : List Action) : Prop :=
  ∀ how, .judged how ∈ acts → r = resultOn s v how

theorem Unjudged.of_isInner (h : ∀ a ∈ xs, a.IsInner) : Unjudged xs := fun _ hm => h _ hm

theorem Unjudged.append (h : Unjudged xs) (h' : Unjudged ys) : Unjudged (xs ++ ys) := by
  intro how hm
  exact (List.mem_append.1 hm).elim (h how) (h' how)

theorem unjudged_launched {argv : List String} {how : Except IoError Pid} :
    Unjudged [.launched argv how] := by
  intro how' hm
  cases List.mem_singleton.1 hm

theorem StageDone.unjudged {argv : List String} {text : String} (h : StageDone argv text xs) :
    Unjudged xs := .of_isInner fun a hm => (h.isWork a hm).isInner

theorem StageBroken.unjudged {argv : List String} (h : StageBroken argv xs) : Unjudged xs :=
  .of_isInner fun a hm => (h.isWork a hm).isInner

theorem Unjudged.decided (h : Unjudged xs) (r : Except Failure Unit) : Decided s v r xs :=
  fun how hm => absurd hm (h how)

/-- What does not judge the log decides nothing. -/
theorem Decided.after {r : Except Failure Unit} (h : Decided s v r ys) (first : Unjudged xs) :
    Decided s v r (xs ++ ys) := by
  intro how hm
  exact (List.mem_append.1 hm).elim (fun hm => absurd hm (first how)) (h how)

theorem emits_judge_decided (c : Setting) (v : Validator) :
    Emits s (judge c s v).outcome (Decided s v) := by
  have unjudged : Unjudged [] := fun _ hm => nomatch hm
  refine (quiet_log (quiet_line c.log _)).attempt_before (fun _ => ?_) fun _ => unjudged.decided _
  refine Emits.lift_bind (P := fun verdict acts =>
    ∃ how, acts = [.judged how] ∧ verdict = v.judge s.capturedLog how) ?_ ?_
  · refine (Emits.request (Q := fun how acts => acts = [.judged how]) fun how => ?_).bind ?_
    · exact congrArg Option.toList (if_pos rfl)
    · intro how acts e
      obtain rfl := e
      exact (quiet_writeAll c.log _).before fun _ => Emits.done ⟨how, rfl, rfl⟩
  · intro verdict acts h
    obtain ⟨how, rfl, judged⟩ := h
    have decided {r : Except Failure Unit} (h : r = resultOn s v how) :
        Decided s v r ([.judged how] ++ []) := by
      intro how' hm
      obtain rfl := Action.judged.inj (List.mem_singleton.1 hm)
      exact h
    cases verdict with
    | pass => exact Emits.attempt_pure (decided (by rw [resultOn, ← judged]))
    | fail why => exact Emits.attempt_throw (decided (by rw [resultOn, ← judged]))

theorem emits_attempt_decided (c : Setting) (v : Validator) :
    Emits s (attempt c s v).outcome (Decided s v) := by
  have unjudged : Unjudged [] := fun _ hm => nomatch hm
  refine (quiet_log (quiet_lines c.log _)).attempt_before (fun _ => ?_) fun _ => unjudged.decided _
  refine Emits.attempt_bind (emits_generate c) ?_ fun f making broken => broken.unjudged.decided _
  intro u making made
  refine Emits.attempt_bind (emits_launch c) ?_ ?_
  · intro t starting h
    obtain ⟨rfl, ht, hf, hs⟩ := h
    refine Emits.lift_bind (emits_attend (c := c) ht hf hs) ?_
    intro p handling handled
    obtain ⟨r, t'⟩ := p
    refine Emits.lift_bind (emits_disposeHandled ht handled) ?_
    intro u' closing handled'
    have held : Unjudged (handling ++ closing) := .of_isInner handled'.isInner
    have decided {r : Except Failure Unit} {judging : List Action} (h : Decided s v r judging) :
        Decided s v r (making ++ ([.launched (launchCommand c.harness s) (.ok t.pid)] ++
          (handling ++ (closing ++ judging)))) := by
      rw [← List.append_assoc handling]
      exact ((h.after held).after unjudged_launched).after made.unjudged
    cases r with
    | error f => exact Emits.attempt_throw (decided (unjudged.decided _))
    | ok u'' => exact (emits_judge_decided c v).mono fun r judging => decided
  · intro f starting h
    rcases h with rfl | ⟨e, rfl⟩
    · exact (made.unjudged.append unjudged).decided _
    · exact (made.unjudged.append unjudged_launched).decided _

/-- If the log of the target is judged in a trial, the result is the verdict on it. -/
theorem emits_run_decided (c : Setting) (v : Validator) : Emits s (run c s v) (Decided s v) := by
  refine (emits_attempt_decided c v).bind fun r acts h => ?_
  cases r with
  | ok u => exact Emits.done (by rw [List.append_nil]; exact h)
  | error f =>
    refine (quiet_recordFailure c.log f).before fun _ => Emits.done ?_
    rw [List.append_nil]
    exact h

theorem run_decided (env : Environment) {how : Except IoError Bytes}
    (read : ⟨.read s.capturedLog, how⟩ ∈ ((run c s v).play env []).2) :
    ((run c s v).play env []).1 = resultOn s v how := by
  refine (emits_run_decided c v).play env how (List.mem_filterMap.2 ⟨_, read, ?_⟩)
  exact if_pos rfl

/-- Environments that reply alike until the log of the target is read. -/
def AlikeUntilRead (s : Scenario) (env env' : Environment) : Prop :=
  ∀ past r, (∀ how, ⟨.read s.capturedLog, how⟩ ∉ past) → env past r = env' past r

/-- A validator comes to one verdict on what it reads, whatever the writer is to which it tells what
is wrong and whichever write fails. The messages are told in full up to the first write that fails,
and nothing is asked after it; a log that passes is only read. In a trial, the result is that verdict
once the log of the target is read, whatever becomes of the diagnostic log from then on. -/
theorem verdict_ignores_writer (v : Validator) :
    (∀ (env : Environment) (w : Writer env) (log : Path) (past : Trace),
      let verdict := v.judge log (env past (.read log))
      let start := past ++ [⟨.read log, env past (.read log)⟩]
      let told := (v.validate log w.put).play env past
      told.1 = verdict ∧ w.Told start verdict.diagnostics told.2 ∧
        (∃ part, part <+: written verdict.diagnostics ∧ w.reached told.2 = w.reached past ++ part) ∧
        (verdict = .pass → told.2 = start)) ∧
    (∀ (env env' : Environment) (w : Writer env) (w' : Writer env') (log : Path) (past past' : Trace),
      env past (.read log) = env' past' (.read log) →
        ((v.validate log w.put).play env past).1 = ((v.validate log w'.put).play env' past').1) ∧
    ∀ (c : Setting) (s : Scenario) (env env' : Environment),
      (∀ how, ⟨.read s.capturedLog, how⟩ ∈ ((run c s v).play env []).2 →
        ((run c s v).play env []).1 = resultOn s v how) ∧
      (AlikeUntilRead s env env' →
        ((run c s v).play env []).1 = ((run c s v).play env' []).1) := by
  refine ⟨fun env w log past => ?_, fun env env' w w' log past past' same => ?_,
    fun c s env env' => ⟨fun how => run_decided env, fun alike => ?_⟩⟩
  · obtain ⟨verdict, told⟩ := w.play_validate v log past
    refine ⟨verdict, told, ?_, fun pass => ?_⟩
    · obtain ⟨part, within, reached⟩ := told.exists_prefix
      rw [w.read] at reached
      exact ⟨part, within, reached⟩
    · rw [pass] at told
      exact told.eq_of_nil
  · rw [(w.play_validate v log past).1, (w'.play_validate v log past').1, same]
  · have unasked : ∀ how, (⟨.read s.capturedLog, how⟩ : Exchange) ∉ ([] : Trace) :=
      fun _ => List.not_mem_nil
    -- either the log is never read, or it is read with one reply, and that decides
    rcases Plan.play_until alike (run c s v) unasked with same | ⟨how, read, read'⟩
    · exact same
    · rw [run_decided env read, run_decided env' read']

/-! ## A log that fails -/

def bareScenario : Scenario := .of (.ofString "t") {} {}

def unwrapped : Setting := ⟨⟨.ofString "k", [], 0⟩, ⟨.ofString "d.log", 9⟩⟩

def mute : Validator := ⟨"mute", ⟨[], [], by decide⟩⟩

/-- Whether the log of the target of a scenario was read. -/
def wasRead (s : Scenario) (past : Trace) : Bool :=
  past.any fun e => match e.request with
    | .read path => path = s.capturedLog
    | _ => false

theorem wasRead_eq_false {past : Trace} (h : ∀ how, ⟨.read s.capturedLog, how⟩ ∉ past) :
    wasRead s past = false := by
  rw [wasRead, List.any_eq_false]
  intro e hm
  obtain ⟨r, reply⟩ := e
  cases r with
  | read path =>
    intro same
    obtain rfl : path = s.capturedLog := of_decide_eq_true same
    exact h reply hm
  | _ => exact Bool.false_ne_true

/-- A machine on which all is well and every file has one line. -/
def oneLine : Environment := untroubled (fun _ _ => false) fun _ => Utf8.encode "x\n"

/-- The same, but no write is taken once the log of the target was read. -/
def brittle (s : Scenario) : Environment
  | past, .write file bytes =>
    if wasRead s past then .error .denied else oneLine past (.write file bytes)
  | past, r => oneLine past r

theorem alike_brittle (s : Scenario) : AlikeUntilRead s oneLine (brittle s) := by
  intro past r unread
  cases r with
  | write file bytes =>
    show _ = if wasRead s past then _ else _
    rw [wasRead_eq_false unread]
    rfl
  | _ => rfl

/-- What is wrong with such a line is told to nobody, and it is the result. -/
theorem brittle_rejected :
    let log := bareScenario.capturedLog
    let failing := brittle bareScenario
    let told (env : Environment) :=
      (mute.validate log (Writer.ofLog unwrapped.log env).put).play env []
    let result (env : Environment) := ((run unwrapped bareScenario mute).play env []).1
    AlikeUntilRead bareScenario oneLine failing ∧ (told oneLine).1 = (told failing).1 ∧
      taken unwrapped.log (told failing).2 = [] ∧ result oneLine = result failing ∧
      result failing = .error (.rejected "mute" log
        ["Line 1 does not start like any expected line", "Offending line is: x"]) := by
  intro log failing told result
  have ignores := verdict_ignores_writer mute
  have alike := alike_brittle bareScenario
  refine ⟨alike, ?_, by decide +kernel, ?_, by decide +kernel⟩
  · exact ignores.2.1 oneLine failing (.ofLog unwrapped.log oneLine) (.ofLog unwrapped.log failing)
      log [] [] rfl
  · exact (ignores.2.2 unwrapped bareScenario oneLine failing).2 alike

end PatchTrial.Trial
