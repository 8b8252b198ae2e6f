import PatchTrial.Proofs.Trial.Notes
import PatchTrial.Proofs.Trial.Untroubled

/-!
The block that a trial enters into the diagnostic log.

What is proved:
  1. `journals_runTool` and the lemmas beside it: up to the judgment a stage enters neither a failure
     nor a complaint, and if it fails, that is due to one of its exchanges (`Due`).
  2. `always_verdict`: the judgment enters each complaint once.
  3. `always_block`: the block of a trial has its title once, and a note for its failure if there is
     one (`IsBlock`).
-/
namespace PatchTrial.Trial
open Attempt (Ends)

/-! ## What a failure is due to -/

/-- What the machine says if it refuses a request. -/
def cause? : (r : Request) → r.Reply → Option IoError
  | .read _, .error e | .list _, .error e | .canonical _, .error e | .create _, .error e
  | .openLog _ _, .error e | .write _ _, .error e | .report _, .error e | .flush, .error e
  | .run _ _ _, .error e | .spawn _ _ _, .error e | .poll _, .error e | .await _, .error e
  | .kill _, .error e | .signalGroup _ _, .error e => some e
  | _, _ => none

/-- A failure of a trial is due to an exchange of its stage: the tool did not succeed, the target was
found to have ended, the log was rejected, or the machine refused a request. -/
inductive Due (c : Setting) (s : Scenario) (v : Validator) (own : Trace) : Failure → Prop
  | generation {out err : Handle} {status : ExitStatus} :
    (⟨.run (generateArgv c s) (some out) (some err), .ok status⟩ : Exchange) ∈ own →
      status.succeeded = false →
        Due c s v own (.generation status.text s.generateOut s.generateErrors)
  | application {pid : Pid} {out err : Handle} {status : ExitStatus} :
    (⟨.run (applyArgv c s pid) (some out) (some err), .ok status⟩ : Exchange) ∈ own →
      status.succeeded = false →
        Due c s v own (.application pid status.text s.applyOut s.applyErrors)
  | crashed {pid : Pid} {status : ExitStatus} :
    (⟨.poll pid, .ok (some status)⟩ : Exchange) ∈ own →
      Due c s v own (.crashed status.text s.targetErrors)
  | rejected {how : Except IoError Bytes} {why : Validator.Failure} :
    (⟨.read s.capturedLog, how⟩ : Exchange) ∈ own → v.judge s.capturedLog how = .fail why →
      Due c s v own (.rejected v.name s.capturedLog why.diagnostics)
  | refused {context : String} {cause : IoError} {x : Exchange} :
    x ∈ own → cause? x.request x.reply = some cause → Due c s v own (.refused context cause)

theorem Due.mono {c : Setting} {s : Scenario} {v : Validator} {own own' : Trace} {f : Failure}
    (h : Due c s v own f) (all : own ⊆ own') : Due c s v own' f := by
  cases h with
  | generation ran failed => exact .generation (all ran) failed
  | application ran failed => exact .application (all ran) failed
  | crashed found => exact .crashed (all found)
  | rejected read judged => exact .rejected (all read) judged
  | refused said cause => exact .refused (all said) cause

theorem Due.append {c : Setting} {s : Scenario} {v : Validator} {own : Trace} {f : Failure}
    (h : Due c s v own f) (more : Trace) : Due c s v (own ++ more) f :=
  h.mono (List.subset_append_left own more)

/-! ## The stages -/

section Stages
variable (c : Setting) (s : Scenario) (v : Validator) (start : Trace)

/-- The block of a trial has begun, and neither a failure nor a complaint is entered so far. -/
def Ongoing (past : Trace) : Prop :=
  ∃ own notes, past = start ++ own ∧ Noted c.log s.root own (.title s.root :: notes) ∧
    ∀ n ∈ notes, n.isPlain = true

/-- An exchange is one of those since the trial began. -/
def Since (past : Trace) (x : Exchange) : Prop := ∃ own, past = start ++ own ∧ x ∈ own

/-- A failure before the judgment is due to what happened since the trial began. -/
def Broke (f : Failure) (past : Trace) : Prop :=
  Ongoing c s start past ∧ f.isToldBefore = false ∧ ∃ own, past = start ++ own ∧ Due c s v own f

variable {c s v start} {env : Environment} {past : Trace} {α β : Type}

theorem Ongoing.append {more : Trace} {notes : List Note} (h : Ongoing c s start past)
    (noted : Noted c.log s.root more notes) (plain : ∀ n ∈ notes, n.isPlain = true) :
    Ongoing c s start (past ++ more) := by
  obtain ⟨own, earlier, rfl, before, earlierPlain⟩ := h
  refine ⟨own ++ more, earlier ++ notes, List.append_assoc start own more, before.append noted, ?_⟩
  intro n hn
  exact (List.mem_append.1 hn).elim (earlierPlain n) (plain n)

theorem Ongoing.quiet (h : Ongoing c s start past) (more : Trace) (quiet : entered c.log more = []) :
    Ongoing c s start (past ++ more) :=
  h.append (.quiet quiet) fun _ hn => nomatch hn

theorem Ongoing.since_last (h : Ongoing c s start past) (x : Exchange) :
    Since start (past ++ [x]) x := by
  obtain ⟨own, notes, rfl, -⟩ := h
  exact ⟨own ++ [x], List.append_assoc start own [x], List.mem_append_right own List.mem_cons_self⟩

theorem Since.append {x : Exchange} (h : Since start past x) (more : Trace) :
    Since start (past ++ more) x := by
  obtain ⟨own, rfl, hm⟩ := h
  exact ⟨own ++ more, List.append_assoc start own more, List.mem_append_left more hm⟩

/-- A refusal of the machine ends a stage. -/
theorem Ongoing.refused {x : Exchange} {context : String} {cause : IoError}
    (h : Ongoing c s start past) (quiet : entered c.log [x] = [])
    (said : cause? x.request x.reply = some cause) :
    Broke c s v start (.refused context cause) (past ++ [x]) := by
  obtain ⟨own, same, hm⟩ := h.since_last x
  exact ⟨h.quiet _ quiet, rfl, own, same, .refused hm said⟩

theorem Broke.quiet {f : Failure} (h : Broke c s v start f past) (more : Trace)
    (quiet : entered c.log more = []) : Broke c s v start f (past ++ more) := by
  obtain ⟨ongoing, early, own, rfl, due⟩ := h
  exact ⟨ongoing.quiet more quiet, early, own ++ more, List.append_assoc start own more, due.append more⟩

variable (env) in
/-- Requests that enter nothing keep what does not depend on anything else. -/
theorem always_silent {I : Trace → Prop} {P : Request → Prop} {p : Plan α} (only : p.Only P)
    (silent : ∀ r (reply : r.Reply), P r → enters c.log r reply = [])
    (keeps : ∀ past more, I past → entered c.log more = [] → I (past ++ more)) (h : I past) :
    p.Always (replying env) past fun _ past' => I past' := by
  refine only.always ?_ h
  rintro past₁ r reply past₂ hr ⟨-, rfl⟩ h
  exact keeps past₁ _ h (by rw [entered, List.flatMap_singleton, silent r reply hr])

theorem enters_lookup {r : Request} (reply : r.Reply) (h : IsLookup r) :
    enters c.log r reply = [] := by
  cases h <;> rfl

theorem enters_givesUp {t : Target} {r : Request} (reply : r.Reply) (h : GivesUp t r) :
    enters c.log r reply = [] := by
  cases h with
  | tends tends =>
    cases tends with
    | lookup look => exact enters_lookup reply look
    | _ => rfl
  | _ => rfl

variable (c s v start env) in
/-- A stage goes on with the block, and what it comes to has a property; or it fails, and that is due
to what happened in the trial. -/
def Journals (past : Trace) (x : Step α) (P : α → Trace → Prop) : Prop :=
  x.Always (replying env) past (fun a past' => Ongoing c s start past' ∧ P a past')
    (Broke c s v start)

namespace Journals
variable {x : Step α} {P : α → Trace → Prop}

theorem bind {f : α → Step β} {R : β → Trace → Prop} (h : Journals c s v start env past x P)
    (hf : ∀ a past', Ongoing c s start past' → P a past' → Journals c s v start env past' (f a) R) :
    Journals c s v start env past (x >>= f) R :=
  Attempt.always_bind.2 (Attempt.Always.mono h (fun a past' ha => hf a past' ha.1 ha.2) fun _ _ => id)

theorem pure {a : α} (h : Ongoing c s start past) (ha : P a past) :
    Journals c s v start env past (Pure.pure a) P := Attempt.always_pure.2 ⟨h, ha⟩

theorem throw {f : Failure} (h : Broke c s v start f past) :
    Journals c s v start env past (MonadExcept.throw f) P := Attempt.always_throw.2 h

theorem mono {R : α → Trace → Prop} (h : Journals c s v start env past x P)
    (imp : ∀ a past', P a past' → R a past') : Journals c s v start env past x R :=
  Attempt.Always.mono h (fun a past' ha => ⟨ha.1, imp a past' ha.2⟩) fun _ _ => id

theorem lift {p : Plan α} (h : p.Always (replying env) past fun _ past' => Ongoing c s start past') :
    Journals c s v start env past (liftM p) fun _ _ => True :=
  Attempt.always_lift.2 (h.mono fun _ _ ongoing => ⟨ongoing, trivial⟩)

/-- A stage only adds to the trace. -/
theorem longer (h : Journals c s v start env past x P) :
    Journals c s v start env past x fun a past' => P a past' ∧ past <+: past' := by
  refine Plan.Always.mono (Plan.Always.longer h) fun r past' hr => ?_
  cases r with
  | ok a => exact ⟨hr.1.1, hr.1.2, hr.2⟩
  | error f => exact hr.1

end Journals

/-- A note that is no copy is entered by the way. -/
theorem Ongoing.enter {x : Attempt IoError Unit} (h : Ongoing c s start past) (note : Note)
    (plain : note.isPlain = true) (original : note.isCopy = false)
    (writes : x.Always (replying env) past (fun _ past' => Wrote c.log past past' note.pieces)
      fun _ _ => False) :
    x.Always (replying env) past (fun _ past' => Ongoing c s start past') fun _ _ => False := by
  refine Attempt.Always.mono writes ?_ fun _ _ => id
  rintro u past' ⟨more, rfl, wrote⟩
  have noted : Noted c.log s.root more [note] := by
    refine .of_entered ?_ (by simpa using original)
    rw [wrote, Note.written, List.flatMap_singleton]
  exact h.append noted (by simpa using plain)

theorem journals_progress (h : Ongoing c s start past) (text : String) :
    Journals c s v start env past (progress text) fun _ _ => True := by
  refine Attempt.always_bind.2 (Attempt.always_of.2 (Plan.always_request.2 ?_))
  rintro reply past₁ ⟨-, rfl⟩
  cases reply with
  | error e => exact h.refused rfl rfl
  | ok u =>
    have h := h.quiet [⟨.report text, .ok u⟩] rfl
    refine Attempt.always_of.2 (Plan.always_request.2 ?_)
    rintro reply past₂ ⟨-, rfl⟩
    cases reply with
    | error e => exact h.refused rfl rfl
    | ok u => exact ⟨h.quiet _ rfl, trivial⟩

theorem journals_createCapture (h : Ongoing c s start past) (path : Path) :
    Journals c s v start env past (createCapture path) fun _ _ => True := by
  refine Attempt.always_of.2 (Plan.always_request.2 ?_)
  rintro reply past₁ ⟨-, rfl⟩
  cases reply with
  | error e => exact h.refused rfl rfl
  | ok handle => exact ⟨h.quiet _ rfl, trivial⟩

/-- Writing to the log as part of a trial, where only reading can fail. -/
theorem journals_log {x : Attempt IoError Unit}
    (h : x.Always (replying env) past (fun _ past' => Ongoing c s start past')
      fun e past' => Broke c s v start (.refused "write diagnostic log" e) past') :
    Journals c s v start env past (Step.log x) fun _ _ => True :=
  Attempt.always_of.2 (h.mono (fun _ _ h => ⟨h, trivial⟩) fun _ _ => id)

theorem journals_note {x : Attempt IoError Unit} (h : Ongoing c s start past) (note : Note)
    (plain : note.isPlain = true) (original : note.isCopy = false)
    (writes : x.Always (replying env) past (fun _ past' => Wrote c.log past past' note.pieces)
      fun _ _ => False) :
    Journals c s v start env past (Step.log x) fun _ _ => True :=
  journals_log ((h.enter note plain original writes).mono (fun _ _ => id) fun _ _ => False.elim)

section Taking
variable (takes : TakesLog env c.log)
include takes

theorem journals_heading (h : Ongoing c s start past) (text : String) :
    Journals c s v start env past (Step.log (c.log.section_ text)) fun _ _ => True :=
  journals_note h (.heading text) rfl rfl (always_enter takes _)

theorem journals_command (h : Ongoing c s start past) (argv : List String) :
    Journals c s v start env past (Step.log (c.log.command argv)) fun _ _ => True :=
  journals_note h (.command argv) rfl rfl (always_enterLines takes _)

/-- A file that the trial left is copied, if it can be read. -/
theorem always_copy (h : Ongoing c s start past) (heading : String) (file : Leftover) :
    (c.log.appendFile heading (file.path s)).Always (replying env) past
      (fun _ past' => Ongoing c s start past')
      fun e past' => Broke c s v start (.refused "write diagnostic log" e) past' := by
  have headed := h.enter (.heading (heading ++ ": " ++ (file.path s).shown)) rfl rfl
    (always_enter takes _)
  refine Attempt.always_bind.2 (headed.mono (fun _ past₁ h => ?_) fun _ _ => False.elim)
  refine Attempt.always_bind.2 (Attempt.always_of.2 (Plan.always_request.2 ?_))
  rintro reply past₂ ⟨-, rfl⟩
  cases reply with
  | error e => exact h.refused rfl rfl
  | ok bytes =>
    refine Attempt.Always.mono (always_enter takes bytes) ?_ fun _ _ => False.elim
    rintro u past₃ ⟨more, rfl, wrote⟩
    rw [List.append_assoc]
    have copied : Noted c.log s.root ([⟨.read (file.path s), .ok bytes⟩] ++ more) [.copy bytes] := by
      refine ⟨?_, fun bytes' hm => ⟨file, ?_⟩⟩
      · rw [entered_append, wrote]
        rfl
      · obtain rfl : bytes' = bytes := by simpa using hm
        rw [← file.path_eq]
        exact List.mem_append_left more (List.mem_singleton_self _)
    exact h.append copied (by simp [Note.isPlain])

/-- The tool is run, and there is an exchange for how it ended. -/
theorem journals_runTool (h : Ongoing c s start past) (stage : Stage) {argv : List String}
    (filled : argv ≠ []) (out err : Leftover) :
    Journals c s v start env past (runTool stage argv ⟨out.path s, err.path s⟩ c.log)
      fun status past' =>
        ∃ o e, Since start past' ⟨.run argv (some o) (some e), .ok status⟩ := by
  cases argv with
  | nil => exact absurd rfl filled
  | cons program args =>
    refine (journals_heading takes h _).bind fun _ past₁ h _ => ?_
    refine (journals_command takes h _).bind fun _ past₂ h _ => ?_
    refine (journals_createCapture h _).bind fun o past₃ h _ => ?_
    refine (journals_createCapture h _).bind fun e past₄ h _ => ?_
    refine Journals.bind (P := fun status past' =>
      Since start past' ⟨.run (program :: args) (some o) (some e), .ok status⟩) ?_ ?_
    · refine Attempt.always_of.2 (Plan.always_request.2 ?_)
      rintro reply past₅ ⟨-, rfl⟩
      cases reply with
      | error e => exact h.refused rfl rfl
      | ok status => exact ⟨h.quiet _ rfl, h.since_last _⟩
    intro status past₅ h ran
    have copied := (journals_note (v := v) h (.ended stage status) rfl rfl
      (always_enter takes _)).bind fun _ _ h _ =>
        (journals_log (always_copy takes h (stage.label ++ " stdout") out)).bind fun _ _ h _ =>
          (journals_log (always_copy takes h (stage.label ++ " stderr") err)).bind
            fun _ _ h _ => Journals.pure (P := fun status' _ => status' = status) h rfl
    refine copied.longer.mono ?_
    rintro status' past₆ ⟨rfl, more, rfl⟩
    exact ⟨o, e, ran.append more⟩

/-- A stage that runs the tool. -/
theorem journals_toolStage (h : Ongoing c s start past) (stage : Stage) {argv : List String}
    (filled : argv ≠ []) (out err : Leftover) (text : String) (failed : ExitStatus → Failure)
    (early : ∀ status, (failed status).isToldBefore = false)
    (due : ∀ own status o e, (⟨.run argv (some o) (some e), .ok status⟩ : Exchange) ∈ own →
      status.succeeded = false → Due c s v own (failed status)) :
    Journals c s v start env past (do
      let status ← runTool stage argv ⟨out.path s, err.path s⟩ c.log
      if !status.succeeded then throw (failed status)
      progress text : Step Unit) fun _ _ => True := by
  refine (journals_runTool takes h stage filled out err).bind ?_
  rintro status past' h ⟨o, e, own, same, ran⟩
  dsimp only
  split
  · rename_i broken
    exact .throw ⟨h, early status, own, same, due own status o e ran (by simpa using broken)⟩
  · exact journals_progress h text

theorem journals_generate (h : Ongoing c s start past) :
    Journals c s v start env past (generate c s) fun _ _ => True :=
  journals_toolStage takes h .generate (List.cons_ne_nil _ _) .generateOut .generateErrors "gen|" _
    (fun _ => rfl) fun _ _ _ _ => .generation

theorem journals_apply (h : Ongoing c s start past) (pid : Pid) :
    Journals c s v start env past (apply c s pid) fun _ _ => True :=
  journals_toolStage takes h .apply (List.cons_ne_nil _ _) .applyOut .applyErrors "patch|" _
    (fun _ => rfl) fun _ _ _ _ => .application

/-- The target is started, and nothing is known of its end. -/
theorem journals_launch (h : Ongoing c s start past) :
    Journals c s v start env past (launch c s) fun t _ => t.finished = none := by
  refine (journals_heading takes h _).bind fun _ past₁ h _ => ?_
  refine (journals_command takes h _).bind fun _ past₂ h _ => ?_
  refine (journals_createCapture h _).bind fun out past₃ h _ => ?_
  refine (journals_createCapture h _).bind fun err past₄ h _ => ?_
  refine Attempt.always_of.2 ?_
  generalize hargv : launchCommand c.harness s = argv
  cases argv with
  | nil => simp [launchCommand] at hargv
  | cons program args =>
    refine Attempt.always_bind.2 (Attempt.always_of.2 (Plan.always_request.2 ?_))
    rintro reply past₅ ⟨-, rfl⟩
    cases reply with
    | error e => exact h.refused rfl rfl
    | ok pid =>
      have h := h.quiet [⟨.spawn (program :: args) out err, .ok pid⟩] rfl
      refine Attempt.always_bind.2 (Attempt.always_lift.2 (Plan.always_request.2 ?_))
      rintro reply past₆ ⟨-, rfl⟩
      exact Attempt.always_pure.2 ⟨h.quiet _ rfl, rfl⟩

theorem journals_findProgram (h : Ongoing c s start past) (t : Target) :
    Journals c s v start env past (findProgram c s t) fun _ _ => True := by
  have slept : (Plan.request (.sleep s.settleMs)).Always (replying env) past
      fun _ past' => Ongoing c s start past' :=
    Plan.always_request.2 fun _ _ step => step.2 ▸ h.quiet _ rfl
  refine (Journals.lift slept).bind fun _ past₁ h _ => ?_
  have looked := always_silent env (only_programPid t) (fun _ => enters_lookup)
    (fun _ more h => h.quiet more) h
  refine (Journals.lift looked).bind fun pid past₂ h _ => ?_
  dsimp only
  split
  · refine (journals_note h (.wrapped pid t.pid) rfl rfl (always_enter takes _)).bind
      fun _ past₃ h _ => ?_
    exact .pure h trivial
  · exact .pure h trivial

/-! ### While the target runs -/

variable (c s v start) in
/-- What was done with the target leaves the block as it is, or ends a stage. -/
def Attends (p : Except Failure α × Target) (past : Trace) : Prop :=
  Ends (fun _ past => Ongoing c s start past) (Broke c s v start) p.1 past

omit takes in
/-- An operation of the target, before what is done with it. -/
theorem always_operate_bind {f : IoError → Failure} {op : Target → Plan (Except IoError α × Target)}
    {g : α → WithTarget β} {t : Target} {Q : Except Failure β × Target → Trace → Prop}
    (h : (op t).Always (replying env) past fun p past' =>
      Ends (fun a past' => ((g a).run.run p.2).Always (replying env) past' Q)
        (fun e past' => Q (.error (f e), p.2) past') p.1 past') :
    ((WithTarget.operate f op >>= g).run.run t).Always (replying env) past Q := by
  show ((op t >>= fun p => Plan.done (p.1.mapError f, p.2)) >>= _).Always _ _ _
  rw [Plan.bind_assoc]
  refine Plan.always_bind.2 (h.mono ?_)
  rintro ⟨r, t'⟩ past' hr
  cases r with
  | ok a => exact hr
  | error e => exact Plan.always_done.2 hr

omit takes in
theorem always_attends_bind {x : WithTarget α} {g : α → WithTarget β} {t : Target}
    (h : (x.run.run t).Always (replying env) past (Attends c s v start))
    (hg : ∀ a t' past', Ongoing c s start past' →
      ((g a).run.run t').Always (replying env) past' (Attends c s v start)) :
    ((x >>= g).run.run t).Always (replying env) past (Attends c s v start) := by
  refine Plan.always_bind.2 (h.mono ?_)
  rintro ⟨r, t'⟩ past' hr
  cases r with
  | ok a => exact hg a t' past' hr
  | error f => exact Plan.always_done.2 hr

omit takes in
/-- A stage that does not touch the target, before what is done with it. -/
theorem always_attends_step {x : Step α} {g : α → WithTarget β} {t : Target}
    {P : α → Trace → Prop} (h : Journals c s v start env past x P)
    (hg : ∀ a past', Ongoing c s start past' →
      ((g a).run.run t).Always (replying env) past' (Attends c s v start)) :
    ((WithTarget.step x >>= g).run.run t).Always (replying env) past (Attends c s v start) :=
  always_step_bind (Attempt.Always.mono h (fun a past' ha => hg a past' ha.1) fun _ _ => id)

/-- The end of the target is found out by asking; its complaints are copied if they can be read. -/
theorem always_observe (h : Ongoing c s start past) (pid : Pid) {t : Target}
    (unknown : t.finished = none) :
    ((observe c s pid).run.run t).Always (replying env) past (Attends c s v start) := by
  have slept : (Plan.request (.sleep s.observeMs)).Always (replying env) past
      fun _ past' => Ongoing c s start past' :=
    Plan.always_request.2 fun _ _ step => step.2 ▸ h.quiet _ rfl
  refine always_attends_step (Journals.lift slept) fun _ past₁ h => always_operate_bind ?_
  rw [Target.exitStatus, unknown]
  refine Plan.always_bind.2 (Plan.always_request.2 ?_)
  rintro reply past₂ ⟨-, rfl⟩
  cases reply with
  | error e => exact Plan.always_done.2 (h.refused rfl rfl)
  | ok exited =>
    refine Plan.always_done.2 ?_
    cases exited with
    | none => exact Plan.always_done.2 (h.quiet [⟨.poll t.pid, .ok none⟩] rfl)
    | some status =>
      have found := h.since_last ⟨.poll t.pid, .ok (some status)⟩
      have h := h.quiet [⟨.poll t.pid, .ok (some status)⟩] rfl
      -- the target crashed; whether its complaints can be copied plays no part
      have copied := always_copy takes (v := v) h "target stderr" .targetErrors
      refine always_step_bind (Attempt.always_bind.2 (Attempt.always_lift.2 ?_))
      refine (Plan.Always.longer copied).mono ?_
      rintro r past₃ ⟨ends, more, rfl⟩
      have h : Ongoing c s start (past₁ ++ [⟨.poll t.pid, .ok (some status)⟩] ++ more) := by
        cases r with
        | ok u => exact ends
        | error e => exact ends.1
      obtain ⟨own, same, hm⟩ := found.append more
      exact Attempt.always_pure.2 (Plan.always_done.2 ⟨h, rfl, own, same, .crashed hm⟩)

/-- That the target cannot be stopped is noted, and decides nothing. -/
theorem always_stop (h : Ongoing c s start past) (pid : Pid) (t : Target) :
    ((stop c pid).run.run t).Always (replying env) past (Attends c s v start) := by
  have told := always_silent env (only_stopTarget t) (fun _ => enters_givesUp)
    (fun _ more h => h.quiet more) h
  refine Plan.always_bind.2 (told.mono ?_)
  rintro ⟨r, t'⟩ past₁ h
  cases r with
  | ok u => exact Plan.always_done.2 h
  | error e =>
    have noted := journals_note (v := v) h (.survivor pid e) rfl rfl
      (always_enter takes _)
    refine Plan.always_bind.2 (Plan.Always.mono noted fun r past₂ hr => Plan.always_done.2 ?_)
    cases r with
    | ok u => exact hr.1
    | error f => exact hr

/-- All that is entered while the target runs. -/
theorem always_attending (h : Ongoing c s start past) {t : Target} (unknown : t.finished = none) :
    ((attend c s).run.run t).Always (replying env) past (Attends c s v start) := by
  rw [attend, run_get_bind]
  refine always_attends_step (journals_findProgram takes h t) fun pid past₁ h => ?_
  refine always_attends_step (journals_apply takes h pid) fun _ past₂ h => ?_
  exact always_attends_bind (always_observe takes h pid unknown) fun _ t' _ h =>
    always_stop takes h pid t'

/-! ### The judgment -/

end Taking

/-- The complaints of a trial that came to some result. -/
def complaintsOf : Except Failure Unit → List String
  | .error (.rejected _ _ lines) => lines
  | _ => []

/-- The failure of a trial that came to some result. -/
def failuresOf : Except Failure Unit → List Failure
  | .error f => [f]
  | .ok () => []

/-- Some notes have a title before them, tell what a validator finds wrong, and nothing more of what
is wrong. -/
structure Tail (notes : List Note) (complaints : List String) : Prop where
  untitled : ∀ root, .title root ∉ notes
  failures : notes.filterMap Note.failure? = []
  complaints : notes.filterMap Note.complaint? = complaints

theorem tail_of_plain {notes : List Note} (plain : ∀ n ∈ notes, n.isPlain = true) :
    Tail notes [] where
  untitled root hm := nomatch plain _ hm
  failures := List.filterMap_eq_nil_iff.2 fun n hn => by
    have := plain n hn
    cases n <;> first | rfl | cases this
  complaints := List.filterMap_eq_nil_iff.2 fun n hn => by
    have := plain n hn
    cases n <;> first | rfl | cases this

/-- The judgment adds what the validator finds wrong. -/
theorem Tail.complain {notes : List Note} (h : Tail notes []) (lines : List String) :
    Tail (notes ++ lines.map .complaint) lines where
  untitled root hm := by
    rcases List.mem_append.1 hm with hm | hm
    · exact h.untitled root hm
    · simp at hm
  failures := by simp [List.filterMap_append, h.failures, Note.failure?, List.filterMap_map]
  complaints := by
    rw [List.filterMap_append, h.complaints, List.filterMap_map]
    exact List.filterMap_some

variable (c s v start) in
/-- The block of a trial that came to some result is complete but for the failure. -/
def Settled (r : Except Failure Unit) (past : Trace) : Prop :=
  ∃ own notes, past = start ++ own ∧ Noted c.log s.root own (.title s.root :: notes) ∧
    Tail notes (complaintsOf r) ∧ ∀ f, r = .error f → Due c s v own f

theorem Broke.settled {f : Failure} (h : Broke c s v start f past) :
    Settled c s v start (.error f) past := by
  obtain ⟨⟨own, notes, rfl, noted, plain⟩, early, own', same, due⟩ := h
  obtain rfl := List.append_cancel_left same
  refine ⟨own, notes, rfl, noted, ?_, fun f' e => Except.error.inj e ▸ due⟩
  have none : complaintsOf (.error f) = [] := by
    cases f <;> first | rfl | cases early
  rw [none]
  exact tail_of_plain plain

variable (takes : TakesLog env c.log)
include takes

/-- The judgment enters each complaint once. -/
theorem always_verdict (h : Ongoing c s start past) :
    (judge c s v).Always (replying env) past (fun _ => Settled c s v start (.ok ()))
      fun f => Settled c s v start (.error f) := by
  have headed := journals_heading takes (v := v) h ("validate (" ++ v.name ++ ")")
  refine Attempt.always_bind.2 (Attempt.Always.mono headed (fun _ past₁ h => ?_)
    fun f _ => Broke.settled)
  obtain ⟨own, notes, rfl, noted, plain⟩ := h.1
  refine Attempt.always_bind.2 (Attempt.always_lift.2 ?_)
  refine Plan.always_bind.2 (Plan.always_request.2 ?_)
  rintro how past₂ ⟨-, rfl⟩
  refine Plan.always_bind.2 (Plan.Always.mono (always_writeAll takes _) ?_)
  rintro r past₃ wrote
  cases r with
  | error e => exact wrote.elim
  | ok u =>
  obtain ⟨more, rfl, wrote⟩ := wrote
  generalize hv : v.judge s.capturedLog how = verdict at wrote
  -- what is wrong is written line by line, and each line is a note
  have complained : Noted c.log s.root ([⟨.read s.capturedLog, how⟩] ++ more)
      (verdict.diagnostics.map .complaint) := by
    refine .of_entered ?_ ?_
    · rw [entered_append, wrote]
      rfl
    · simp [Note.isCopy]
  have whole := noted.append complained
  have tail := (tail_of_plain plain).complain verdict.diagnostics
  rw [List.append_assoc, List.append_assoc]
  refine Plan.always_done.2 ?_
  cases verdict with
  | pass => exact Attempt.always_pure.2 ⟨_, _, rfl, whole, tail, fun f e => nomatch e⟩
  | fail why =>
    refine Attempt.always_throw.2 ⟨_, _, rfl, whole, tail, fun f e => ?_⟩
    obtain rfl := Except.error.inj e
    exact .rejected (List.mem_append_right own List.mem_cons_self) hv

/-! ### The whole trial -/

omit takes in
variable (env) in
/-- The target is given up, whatever was done with it. -/
theorem always_giving {I : Trace → Prop} (t : Target) (h : I past)
    (keeps : ∀ past more, I past → entered c.log more = [] → I (past ++ more)) :
    t.dispose.Always (replying env) past fun _ past' => I past' :=
  always_silent env (only_dispose t) (fun _ => enters_givesUp) keeps h

theorem always_settled (start : Trace) :
    (attempt c s v).Always (replying env) start (fun _ => Settled c s v start (.ok ()))
      fun f => Settled c s v start (.error f) := by
  refine Attempt.always_bind.2 (Attempt.always_of.2 ?_)
  refine Plan.Always.mono (always_enterLines takes _) ?_
  rintro r past₁ wrote
  cases r with
  | error e => exact wrote.elim
  | ok u =>
  obtain ⟨own, rfl, wrote⟩ := wrote
  have titled : Noted c.log s.root own [.title s.root] :=
    .of_entered (by rw [wrote, Note.written, List.flatMap_singleton]; rfl) (by simp [Note.isCopy])
  -- the block is open; each stage adds its notes or breaks off
  have h : Ongoing c s start (start ++ own) := ⟨own, [], rfl, titled, fun _ hn => absurd hn List.not_mem_nil⟩
  refine Attempt.always_bind.2 (Attempt.Always.mono (journals_generate takes h)
    (fun _ past₂ h => ?_) fun f _ => Broke.settled)
  refine Attempt.always_bind.2 (Attempt.Always.mono (journals_launch takes h.1)
    (fun t past₃ h => ?_) fun f _ => Broke.settled)
  refine Attempt.always_bind.2 (Attempt.always_lift.2 ?_)
  refine (always_attending takes (v := v) h.1 h.2).mono ?_
  rintro ⟨r, t'⟩ past₄ attended
  cases r with
  | error f =>
    have given := always_giving env t' attended fun _ more h => Broke.quiet h more
    refine Attempt.always_bind.2 (Attempt.always_lift.2 (given.mono fun _ past₅ h => ?_))
    exact Attempt.always_throw.2 (Broke.settled h)
  | ok u =>
    have given := always_giving env t' attended fun _ more h => Ongoing.quiet h more
    exact Attempt.always_bind.2 (Attempt.always_lift.2 (given.mono fun _ past₅ h =>
      always_verdict takes h))

omit takes in
/-- The block that a scenario that came to some result enters into a log: it begins with the title,
which is nowhere else in it, and has one note for the failure, if there is one, and one for each
complaint of the validator. -/
structure IsBlock (log : DiagnosticLog) (root : Path) (own : Trace) (r : Except Failure Unit)
    (notes : List Note) : Prop where
  noted : Noted log root own notes
  titled : ∃ rest, notes = .title root :: rest ∧ ∀ other, .title other ∉ rest
  failures : notes.filterMap Note.failure? = failuresOf r
  complaints : notes.filterMap Note.complaint? = complaintsOf r

omit takes in
theorem IsBlock.after {log : DiagnosticLog} {root : Path} {own more : Trace}
    {r : Except Failure Unit} {notes : List Note} (silent : entered log own = [])
    (h : IsBlock log root more r notes) : IsBlock log root (own ++ more) r notes :=
  ⟨(Noted.quiet silent).append h.noted, h.titled, h.failures, h.complaints⟩

/-- The block of a trial, and what its failure is due to. -/
theorem always_block (v : Validator) (start : Trace) :
    (run c s v).Always (replying env) start fun r past =>
      ∃ own notes, past = start ++ own ∧ IsBlock c.log s.root own r notes ∧
        ∀ f, r = .error f → Due c s v own f := by
  refine Plan.always_bind.2 (Plan.Always.mono (always_settled takes start) ?_)
  rintro r past settled
  cases r with
  | ok u =>
    obtain ⟨own, notes, rfl, noted, tail, -⟩ := settled
    exact Plan.always_done.2 ⟨own, _, rfl, ⟨noted, ⟨notes, rfl, tail.untitled⟩, tail.failures,
      tail.complaints⟩, fun f e => nomatch e⟩
  | error f =>
    obtain ⟨own, notes, rfl, noted, tail, due⟩ := settled
    refine Plan.always_bind.2 (Plan.always_bind.2 ?_)
    refine Plan.Always.mono (always_enterLines takes _) ?_
    rintro r past₁ wrote
    cases r with
    | error e => exact wrote.elim
    | ok u =>
    obtain ⟨more, rfl, wrote⟩ := wrote
    -- the failure is the last note of the block, behind those of the attempt
    have failed : Noted c.log s.root more [.failure f] :=
      .of_entered (by rw [wrote, Note.written, List.flatMap_singleton]; rfl) (by simp [Note.isCopy])
    refine Plan.always_done.2 (Plan.always_done.2 ⟨own ++ more, _, List.append_assoc _ _ _,
      ⟨noted.append failed, ⟨notes ++ [.failure f], rfl, ?_⟩, ?_, ?_⟩, ?_⟩)
    · intro other hm
      rcases List.mem_append.1 hm with hm | hm
      · exact tail.untitled other hm
      · simp at hm
    · show (notes ++ [Note.failure f]).filterMap Note.failure? = [f]
      rw [List.filterMap_append, tail.failures]
      rfl
    · show (notes ++ [Note.failure f]).filterMap Note.complaint? = complaintsOf (.error f)
      rw [List.filterMap_append, tail.complaints]
      exact List.append_nil _
    · intro f' e
      exact (due f' e).append more

end Stages

end PatchTrial.Trial
