import PatchTrial.Proofs.Trial.Requests

/-!
A trial on a machine on which nothing goes wrong but that some programs fail. What the trial shows of
its progress then tells whether one of its programs was among them.

What is proved:
  1. `always_toolStage`, `always_launch`: each stage is passed exactly if its program does not fail.
  2. `mem_marks_run_iff`: that the patch is applied is shown exactly if none of the programs fails.
-/
namespace PatchTrial.Trial
open Attempt (Ends)

/-- Whether a request is made to stop a group. -/
def stops : Request → Bool
  | .signalGroup _ _ => true
  | .run _ none none => true
  | _ => false

/-- What a machine replies on which nothing goes wrong but that some programs fail: such a tool says
so, and such a target cannot be started. Files have given contents, and the target runs until it is
told to end. -/
def untroubled (fails : Trace → Request → Bool) (contents : Path → Bytes) : Environment
  | past, .run argv out err =>
    .ok (.exited (if fails past (.run argv out err) then 1 else 0))
  | past, .spawn argv out err => if fails past (.spawn argv out err) then .error .denied else .ok 7
  | past, .poll _ => .ok (if past.any fun e => stops e.request then some (.exited 0) else none)
  | _, .kind _ => some .folder
  | _, .read path => .ok (contents path)
  | _, .list _ => .ok []
  | _, .create _ | _, .openLog _ _ => .ok 1
  | _, .await _ => .ok (.exited 0)
  | _, .write _ _ | _, .report _ | _, .flush | _, .kill _ | _, .signalGroup _ _ => .ok ()
  | _, .canonical path => .ok path
  | _, .isProgram _ => true
  | _, .searchPath => []
  | _, .now => 0
  | _, .sleep _ | _, .publish _ | _, .retract _ | _, .guard => ()

/-! ## Progress -/

/-- What an exchange adds to the record of progress. -/
def shows : (r : Request) → r.Reply → List String
  | .report text, .ok _ => [text]
  | _, _ => []

def marks (past : Trace) : List String := past.flatMap fun e => shows e.request e.reply

theorem marks_append (past more : Trace) : marks (past ++ more) = marks past ++ marks more :=
  List.flatMap_append

variable (c : Setting) (s : Scenario)

/-- Exactly some files are new, and exactly some texts were shown. -/
structure Standing (files : List Leftover) (shown : List String) (past : Trace) : Prop where
  renewed : ∀ file, Renewed c s past file ↔ file ∈ files
  marks : marks past = shown

variable {c s} {files new : List Leftover} {shown text : List String} {past more : Trace}

theorem Standing.append (h : Standing c s files shown past) (h' : Standing c s new text more) :
    Standing c s (new ++ files) (shown ++ text) (past ++ more) where
  renewed file := by
    rw [List.mem_append, ← h.renewed, ← h'.renewed, Renewed]
    simp only [List.mem_append, or_and_right, exists_or]
    exact or_comm
  marks := by rw [marks_append, h.marks, h'.marks]

theorem standing_nil : Standing c s [] [] [] :=
  ⟨fun _ => iff_of_false (fun ⟨_, hm, _⟩ => nomatch hm) List.not_mem_nil, rfl⟩

/-- What is settled by an exchange that is on its own. -/
theorem standing_one {r : Request} {reply : r.Reply}
    (h : ∀ file, renews c s file r reply = true ↔ file ∈ new) (h' : shows r reply = text) :
    Standing c s new text [⟨r, reply⟩] where
  renewed file := by
    rw [← h]
    simp [Renewed]
  marks := by rw [marks, List.flatMap_singleton, h']

theorem standing_care {r : Request} (h : IsCare c s r) (reply : r.Reply) :
    Standing c s [] [] [⟨r, reply⟩] := by
  rcases h with minor | ⟨-, -, pid, signal, rfl⟩
  · cases r <;> first | exact minor.elim | exact standing_one (by simp [renews]) rfl
  · exact standing_one (by simp [renews]) rfl

theorem standing_cares (h : ∀ e ∈ more, IsCare c s e.request) : Standing c s [] [] more := by
  induction more with
  | nil => exact standing_nil
  | cons e more ih =>
    have later := ih fun d hd => h d (List.mem_cons_of_mem e hd)
    exact (standing_care (h e List.mem_cons_self) e.reply).append later

/-- Looking after a target, or writing by the way, settles nothing. -/
theorem always_cares {α : Type} {env : Environment} {p : Plan α} (h : p.Only (IsCare c s)) :
    p.Always (replying env) past fun _ past' =>
      ∃ more, past' = past ++ more ∧ Standing c s [] [] more := by
  have asked : p.Asks (fun _ _ => True) past _ := h.asks fun _ _ _ => trivial
  obtain ⟨more, e, cares⟩ := asked.play env
  exact Plan.always_replying.2 ⟨more, e, standing_cares cares⟩

/-! ## Stages -/

section Stages
variable (fails : Trace → Request → Bool) (contents : Path → Bytes)

abbrev faulty : Answers Trace := replying (untroubled fails contents)

variable {fails contents} {b : Bool}

/-- One request, and what it settles on its own. -/
theorem always_one (st : Standing c s files shown past) {r : Request} {Q : r.Reply → Trace → Prop}
    {reply : r.Reply} (e : untroubled fails contents past r = reply)
    (one : Standing c s new text [⟨r, reply⟩])
    (hq : ∀ past', Standing c s (new ++ files) (shown ++ text) past' → Q reply past') :
    (Plan.request r).Always (faulty fails contents) past Q := by
  refine Plan.always_request.2 fun reply' past' replied => ?_
  obtain ⟨rfl, rfl⟩ := replied
  rw [e]
  exact hq _ (st.append one)

/-- One request that settles nothing. -/
theorem always_quiet (st : Standing c s files shown past) {r : Request}
    {Q : r.Reply → Trace → Prop} {reply : r.Reply} (e : untroubled fails contents past r = reply)
    (one : Standing c s [] [] [⟨r, reply⟩])
    (hq : ∀ past', Standing c s files shown past' → Q reply past') :
    (Plan.request r).Always (faulty fails contents) past Q := by
  refine always_one st e one fun past' st => hq past' ?_
  rwa [List.append_nil] at st

theorem always_put (st : Standing c s files shown past) (bytes : Bytes) :
    (c.log.put bytes).Always (faulty fails contents) past
      (fun _ past' => Standing c s files shown past') fun _ _ => False := by
  rw [DiagnosticLog.put]
  split
  · exact Attempt.always_pure.2 st
  · have one : Standing c s [] [] [⟨.write c.log.file bytes, .ok ()⟩] :=
      standing_one (by simp [renews]) rfl
    exact Attempt.always_of.2 (always_quiet st rfl one fun _ => id)

theorem always_lines (st : Standing c s files shown past) (texts : List String) :
    (c.log.lines texts).Always (faulty fails contents) past
      (fun _ past' => Standing c s files shown past') fun _ _ => False := by
  induction texts generalizing past with
  | nil => exact Attempt.always_pure.2 st
  | cons text rest ih =>
    exact Attempt.always_bind.2 ((always_put st _).mono (fun _ _ st => ih st) fun _ _ => id)

theorem always_appendFile (st : Standing c s files shown past) (heading : String) (path : Path) :
    (c.log.appendFile heading path).Always (faulty fails contents) past
      (fun _ past' => Standing c s files shown past') fun _ _ => False := by
  refine Attempt.always_bind.2 ((always_put st _).mono (fun _ past₁ st => ?_) fun _ _ => id)
  have one : Standing c s [] [] [⟨.read path, .ok (contents path)⟩] :=
    standing_one (by simp [renews]) rfl
  exact Attempt.always_bind.2 (Attempt.always_of.2
    (always_quiet st rfl one fun past₂ st => always_put st _))

/-- Writing to the log as part of a trial. -/
theorem always_log {α : Type} {x : Attempt IoError α} {Q : α → Trace → Prop}
    (h : x.Always (faulty fails contents) past Q fun _ _ => False) {E : Failure → Trace → Prop} :
    (Step.log x).Always (faulty fails contents) past Q E :=
  Attempt.always_of.2 (h.mono (fun _ _ => id) fun _ _ => False.elim)

theorem always_createCapture (st : Standing c s files shown past) (file : Leftover)
    {E : Failure → Trace → Prop} :
    (createCapture (file.path s)).Always (faulty fails contents) past
      (fun _ past' => Standing c s (file :: files) shown past') E := by
  have one : Standing c s [file] [] [⟨.create (file.path s), .ok 1⟩] := by
    refine standing_one (fun other => ?_) rfl
    rw [List.mem_singleton, renews, decide_eq_true_iff]
    exact ⟨fun e => (Leftover.path_injective s e).symm, fun e => congrArg (Leftover.path s) e.symm⟩
  refine Attempt.always_of.2 (always_one st rfl one fun past' st => ?_)
  rwa [List.append_nil] at st

/-- A command is written under a heading and two files are created anew, before a program is
started. -/
theorem always_prepare (st : Standing c s files shown past) (heading : String) (argv : List String)
    (out err : Leftover) {α : Type} {rest : Handle → Handle → Step α} {Q : α → Trace → Prop}
    {E : Failure → Trace → Prop}
    (hr : ∀ past' o e, Standing c s (err :: out :: files) shown past' →
      (rest o e).Always (faulty fails contents) past' Q E) :
    (do Step.log (c.log.section_ heading)
        Step.log (c.log.command argv)
        let o ← createCapture (out.path s)
        let e ← createCapture (err.path s)
        rest o e : Step α).Always (faulty fails contents) past Q E := by
  refine Attempt.always_bind.2 ((always_log (always_put st _)).mono (fun _ _ st => ?_)
    fun _ _ => id)
  refine Attempt.always_bind.2 ((always_log (always_lines st _)).mono (fun _ _ st => ?_)
    fun _ _ => id)
  refine Attempt.always_bind.2 ((always_createCapture st out).mono (fun o _ st => ?_) fun _ _ => id)
  exact Attempt.always_bind.2 ((always_createCapture st err).mono (fun e _ => hr _ o e) fun _ _ => id)

/-- A run of the tool ends as the machine says. -/
theorem always_runTool (st : Standing c s files shown past) (stage : Stage) {argv : List String}
    (filled : argv ≠ []) (out err : Leftover) {status : ExitStatus}
    (ended : ∀ past o e, Standing c s (err :: out :: files) shown past →
      untroubled fails contents past (.run argv (some o) (some e)) = .ok status)
    (one : ∀ o e, Standing c s new [] [⟨.run argv (some o) (some e), .ok status⟩]) :
    (runTool stage argv ⟨out.path s, err.path s⟩ c.log).Always (faulty fails contents) past
      (fun status' past' => status' = status ∧ Standing c s (new ++ err :: out :: files) shown past')
      fun _ _ => False := by
  cases argv with
  | nil => exact absurd rfl filled
  | cons program args =>
    refine always_prepare st stage.label (program :: args) out err fun past₁ o e st => ?_
    refine Attempt.always_bind.2 (Attempt.always_of.2 ?_)
    refine always_one st (ended past₁ o e st) (one o e) fun past₂ st => ?_
    rw [List.append_nil] at st
    refine Attempt.always_bind.2 ((always_log (always_put st _)).mono (fun _ past₃ st => ?_)
      fun _ _ => id)
    refine Attempt.always_bind.2 ((always_log (always_appendFile st _ _)).mono
      (fun _ past₄ st => ?_) fun _ _ => id)
    refine Attempt.always_bind.2 ((always_log (always_appendFile st _ _)).mono
      (fun _ past₅ st => ?_) fun _ _ => id)
    exact Attempt.always_pure.2 ⟨rfl, st⟩

theorem always_progress (st : Standing c s files shown past) (text : String)
    {E : Failure → Trace → Prop} :
    (progress text).Always (faulty fails contents) past
      (fun _ past' => Standing c s files (shown ++ [text]) past') E := by
  have told : Standing c s [] [text] [⟨.report text, .ok ()⟩] := standing_one (by simp [renews]) rfl
  have seen : Standing c s [] [] [⟨.flush, .ok ()⟩] := standing_one (by simp [renews]) rfl
  refine Attempt.always_bind.2 (Attempt.always_of.2 (always_one st rfl told fun past' st => ?_))
  exact Attempt.always_of.2 (always_quiet st rfl seen fun _ => id)

/-- A stage that runs the tool is passed and shown exactly if the tool does not fail. -/
theorem always_toolStage (st : Standing c s files shown past) (stage : Stage) {argv : List String}
    (filled : argv ≠ []) (out err : Leftover) (text : String) (failed : ExitStatus → Failure)
    (made : ∀ o e, Standing c s new [] [⟨.run argv (some o) (some e), .ok (.exited 0)⟩])
    (failing : ∀ past o e, Standing c s (err :: out :: files) shown past →
      fails past (.run argv (some o) (some e)) = b) :
    (do let status ← runTool stage argv ⟨out.path s, err.path s⟩ c.log
        if !status.succeeded then throw (failed status)
        progress text : Step Unit).Always (faulty fails contents) past
      (fun _ past' => b = false ∧ Standing c s (new ++ err :: out :: files) (shown ++ [text]) past')
      fun _ past' => b = true ∧ marks past' = shown := by
  have ended (past : Trace) (o e : Handle) (st : Standing c s (err :: out :: files) shown past) :
      untroubled fails contents past (.run argv (some o) (some e)) =
        .ok (.exited (if b then 1 else 0)) := by
    rw [untroubled, failing past o e st]
  refine Attempt.always_bind.2 ?_
  cases b with
  | true =>
    have one (o e : Handle) :
        Standing c s [] [] [⟨.run argv (some o) (some e), .ok (.exited 1)⟩] := by
      have failed : (ExitStatus.exited 1).succeeded = false := rfl
      exact standing_one (by simp [renews, failed]) rfl
    refine (always_runTool st stage filled out err ended one).mono ?_ fun _ _ => False.elim
    rintro status past' ⟨rfl, st⟩
    exact Attempt.always_throw.2 ⟨rfl, st.marks⟩
  | false =>
    refine (always_runTool st stage filled out err ended made).mono ?_ fun _ _ => False.elim
    rintro status past' ⟨rfl, st⟩
    exact (always_progress st text).mono (fun _ _ st => ⟨rfl, st⟩) fun _ _ => id

theorem applyArgv_ne_generateArgv (pid : Pid) : applyArgv c s pid ≠ generateArgv c s := by
  intro e
  exact absurd (congrArg List.length e)
    (by simp [applyArgv, applyCommand, generateArgv, generateCommand])

theorem always_generate (st : Standing c s [] [] past)
    (failing : ∀ past o e, Standing c s generateFiles [] past →
      fails past (.run (generateArgv c s) (some o) (some e)) = b) :
    (generate c s).Always (faulty fails contents) past
      (fun _ past' => b = false ∧ Standing c s (.patch :: generateFiles) ["gen|"] past')
      fun _ past' => b = true ∧ marks past' = [] := by
  have made (o e : Handle) :
      Standing c s [.patch] [] [⟨.run (generateArgv c s) (some o) (some e), .ok (.exited 0)⟩] := by
    refine standing_one (fun file => ?_) rfl
    have zero : (ExitStatus.exited 0).succeeded = true := rfl
    simp [renews, zero]
  exact always_toolStage st .generate (List.cons_ne_nil _ _) .generateOut .generateErrors "gen|" _
    made failing

theorem always_apply (st : Standing c s launchFiles ["gen|"] past) (pid : Pid)
    (failing : ∀ past o e, Standing c s applyFiles ["gen|"] past →
      fails past (.run (applyArgv c s pid) (some o) (some e)) = b) :
    (apply c s pid).Always (faulty fails contents) past
      (fun _ past' => b = false ∧ Standing c s applyFiles ["gen|", "patch|"] past')
      fun _ past' => b = true ∧ marks past' = ["gen|"] := by
  have made (o e : Handle) :
      Standing c s [] [] [⟨.run (applyArgv c s pid) (some o) (some e), .ok (.exited 0)⟩] := by
    refine standing_one (fun file => ?_) rfl
    simp [renews, applyArgv_ne_generateArgv]
  exact always_toolStage st .apply (List.cons_ne_nil _ _) .applyOut .applyErrors "patch|" _ made
    failing

theorem always_launch (st : Standing c s (.patch :: generateFiles) ["gen|"] past)
    (failing : ∀ past o e, Standing c s launchFiles ["gen|"] past →
      fails past (.spawn (launchCommand c.harness s) o e) = b) :
    (launch c s).Always (faulty fails contents) past
      (fun t past' => b = false ∧ t.terminator = terminatorOf c.harness s ∧
        Standing c s launchFiles ["gen|"] past')
      fun _ past' => b = true ∧ marks past' = ["gen|"] := by
  refine always_prepare st "launch" (launchCommand c.harness s) .capturedLog .targetErrors
    fun past₁ o e st => ?_
  have decided := failing past₁ o e st
  generalize hargv : launchCommand c.harness s = argv at decided ⊢
  refine Attempt.always_of.2 ?_
  cases argv with
  | nil => simp [launchCommand] at hargv
  | cons program args =>
    refine Attempt.always_bind.2 (Attempt.always_of.2 ?_)
    cases b with
    | true =>
      have one : Standing c s [] [] [⟨.spawn (program :: args) o e, .error .denied⟩] :=
        standing_one (by simp [renews]) rfl
      exact always_quiet st (if_pos decided) one fun _ st => ⟨rfl, st.marks⟩
    | false =>
      have one : Standing c s [] [] [⟨.spawn (program :: args) o e, .ok 7⟩] :=
        standing_one (by simp [renews]) rfl
      refine always_quiet st (if_neg (by rw [decided]; exact Bool.false_ne_true)) one fun _ st => ?_
      have told : Standing c s [] [] [⟨.publish 7, ()⟩] := standing_one (by simp [renews]) rfl
      refine Attempt.always_bind.2 (Attempt.always_lift.2 (always_quiet st rfl told fun _ st => ?_))
      exact Attempt.always_pure.2 ⟨rfl, rfl, st⟩

theorem always_findProgram (st : Standing c s files shown past) (t : Target)
    {E : Failure → Trace → Prop} :
    (findProgram c s t).Always (faulty fails contents) past
      (fun _ past' => Standing c s files shown past') E := by
  have slept : Standing c s [] [] [⟨.sleep s.settleMs, ()⟩] := standing_one (by simp [renews]) rfl
  refine Attempt.always_bind.2 (Attempt.always_lift.2 (always_quiet st rfl slept fun _ st => ?_))
  refine Attempt.always_bind.2 (Attempt.always_lift.2 ?_)
  have cares : t.programPid.Only (IsCare c s) :=
    (only_programPid t).mono fun _ look => .inl look.isMinor
  refine (always_cares cares).mono ?_
  rintro pid past' ⟨more, rfl, nothing⟩
  have st := st.append nothing
  rw [List.append_nil] at st
  dsimp only
  split
  · exact Attempt.always_bind.2 ((always_log (always_put st _)).mono
      (fun _ _ st => Attempt.always_pure.2 st) fun _ _ => id)
  · exact Attempt.always_pure.2 st

/-! ## The whole trial -/

theorem run_get_bind {β : Type} (f : Target → WithTarget β) (t : Target) :
    (get >>= f).run.run t = (f t).run.run t := rfl

/-- A part that does not touch the target, before what is done with it. -/
theorem always_step_bind {α β : Type} {env : Environment} {x : Step α} {f : α → WithTarget β}
    {t : Target} {Q : Except Failure β × Target → Trace → Prop}
    (h : x.Always (replying env) past (fun a past' => ((f a).run.run t).Always (replying env) past' Q)
      fun e past' => Q (.error e, t) past') :
    ((WithTarget.step x >>= f).run.run t).Always (replying env) past Q := by
  show ((x.outcome >>= fun r => Plan.done (r, t)) >>= _).Always _ _ _
  rw [Plan.bind_assoc]
  refine Plan.always_bind.2 (Plan.Always.mono h fun r past' hr => ?_)
  cases r with
  | ok a => exact hr
  | error e => exact Plan.always_done.2 hr

/-- What was shown stays shown. -/
theorem always_shown {α : Type} {env : Environment} {text : String} (h : text ∈ marks past)
    (p : Plan α) : p.Always (replying env) past fun _ past' => text ∈ marks past' := by
  refine Plan.always_replying.2 ?_
  obtain ⟨more, e⟩ := Plan.prefix_play p env past
  rw [← e, marks_append]
  exact List.mem_append_left _ h

theorem always_attend (st : Standing c s launchFiles ["gen|"] past) (t : Target)
    (failing : ∀ past pid o e, Standing c s applyFiles ["gen|"] past →
      fails past (.run (applyArgv c s pid) (some o) (some e)) = b) :
    ((attend c s).run.run t).Always (faulty fails contents) past fun p past' =>
      b = false ∧ "patch|" ∈ marks past' ∨
        b = true ∧ (∃ f, p = (.error f, t)) ∧ marks past' = ["gen|"] := by
  rw [attend, run_get_bind]
  refine always_step_bind ((always_findProgram st t).mono (fun pid past₁ st => ?_) fun _ _ => id)
  refine always_step_bind ((always_apply st pid fun past => failing past pid).mono ?_ ?_)
  · rintro u past₂ ⟨passed, st⟩
    have applied : "patch|" ∈ marks past₂ := by simp [st.marks]
    exact (always_shown applied _).mono fun _ _ shown => .inl ⟨passed, shown⟩
  · rintro f past₂ ⟨stopped, marks⟩
    exact .inr ⟨stopped, ⟨f, rfl⟩, marks⟩

/-- A target that is given up, and what follows in a trial. -/
theorem always_giveUp {env : Environment} {P : Trace → Prop} {t : Target}
    (ht : t.terminator = terminatorOf c.harness s) (f : Failure)
    (hp : ∀ past', marks past' = marks past → P past') :
    (do t.dispose
        throw f : Step Unit).Always (replying env) past (fun _ => P) fun _ => P := by
  have cares := (only_dispose t).mono fun _ => GivesUp.isCare ht
  refine Attempt.always_bind.2 (Attempt.always_lift.2 ((always_cares cares).mono ?_))
  rintro u past' ⟨more, rfl, nothing⟩
  refine Attempt.always_throw.2 (hp _ ?_)
  rw [marks_append, nothing.marks, List.append_nil]

variable {making launching applying : Bool}
  (generates : ∀ past o e, Standing c s generateFiles [] past →
    fails past (.run (generateArgv c s) (some o) (some e)) = making)
  (launches : ∀ past o e, Standing c s launchFiles ["gen|"] past →
    fails past (.spawn (launchCommand c.harness s) o e) = launching)
  (applies : ∀ past pid o e, Standing c s applyFiles ["gen|"] past →
    fails past (.run (applyArgv c s pid) (some o) (some e)) = applying)
include generates launches applies

theorem always_attempt (contents : Path → Bytes) (v : Validator) :
    (attempt c s v).Always (faulty fails contents) []
      (fun _ past' => "patch|" ∈ marks past' ↔ making = false ∧ launching = false ∧ applying = false)
      fun _ past' =>
        "patch|" ∈ marks past' ↔ making = false ∧ launching = false ∧ applying = false := by
  have start : Standing c s [] [] [] := standing_nil
  refine Attempt.always_bind.2 ((always_log (always_lines start _)).mono (fun _ past₁ st => ?_)
    fun _ _ => id)
  refine Attempt.always_bind.2 ((always_generate st generates).mono ?_ ?_)
  case refine_2 =>
    rintro f past₂ ⟨rfl, marks⟩
    simp [marks]
  rintro u past₂ ⟨rfl, st⟩
  refine Attempt.always_bind.2 ((always_launch st launches).mono ?_ ?_)
  case refine_2 =>
    rintro f past₃ ⟨rfl, marks⟩
    simp [marks]
  rintro t past₃ ⟨rfl, ht, st⟩
  refine Attempt.always_bind.2 (Attempt.always_lift.2 ((always_attend st t applies).mono ?_))
  rintro p past₄ (⟨rfl, shown⟩ | ⟨rfl, ⟨f, rfl⟩, marks⟩)
  · refine (always_shown shown _).mono fun r past' shown => ?_
    cases r <;> exact iff_of_true shown ⟨rfl, rfl, rfl⟩
  · refine always_giveUp ht f fun past' same => ?_
    rw [same, marks]
    decide

/-- That the patch is applied is shown exactly if none of the programs fails. -/
theorem mem_marks_run_iff (contents : Path → Bytes) (v : Validator) :
    "patch|" ∈ marks ((run c s v).play (untroubled fails contents) []).2 ↔
      making = false ∧ launching = false ∧ applying = false := by
  have trial : (run c s v).Always (faulty fails contents) [] fun _ past' =>
      "patch|" ∈ marks past' ↔ making = false ∧ launching = false ∧ applying = false := by
    have attempted := always_attempt generates launches applies contents v
    refine Plan.always_bind.2 (Plan.Always.mono attempted fun r past h => ?_)
    cases r with
    | ok u => exact Plan.always_done.2 h
    | error f =>
      have minor := (only_recordFailure c.log f).mono fun _ => IsWrite.isMinor
      refine Plan.always_bind.2 ((always_cares (c := c) (s := s) (only_care minor)).mono ?_)
      rintro u past' ⟨more, rfl, nothing⟩
      refine Plan.always_done.2 ?_
      rw [marks_append, nothing.marks, List.append_nil]
      exact h
  exact Plan.always_replying.1 trial

end Stages

end PatchTrial.Trial
