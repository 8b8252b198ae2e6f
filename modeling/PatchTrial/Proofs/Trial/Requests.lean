import PatchTrial.Proofs.Trial.Asides
import PatchTrial.Proofs.Trial.Stages

/-!
What a trial asks, and when. Programs are started in three places, and in each of them the command
was written into the diagnostic log just before and the files that keep the output were created anew.
Only the commands that stop an elevated target are started without that.

What is proved:
  1. `asks_runTool`, `asks_launch`: the log took the heading and the command, and the files are new,
     when a program is started.
  2. `Tends.isCare`: stopping a target starts nothing but kill commands, and those only for an
     elevated target.
  3. `asks_run`: all that a trial asks (`May`).
-/
namespace PatchTrial.Trial
open Attempt (Ends)

/-! ## Files and log -/

/-- The files that a trial leaves behind. -/
inductive Leftover
  | capturedLog
  | targetErrors
  | generateOut
  | generateErrors
  | applyOut
  | applyErrors
  | patch
  deriving DecidableEq, Repr

def Leftover.path (s : Scenario) : Leftover → Path
  | capturedLog => s.capturedLog
  | targetErrors => s.targetErrors
  | generateOut => s.generateOut
  | generateErrors => s.generateErrors
  | applyOut => s.applyOut
  | applyErrors => s.applyErrors
  | patch => s.artifact

/-- The name of a file that is left. -/
def Leftover.name : Leftover → String
  | capturedLog => "log"
  | targetErrors => "target_err.log"
  | generateOut => "generate.log"
  | generateErrors => "generate_err.log"
  | applyOut => "apply.log"
  | applyErrors => "apply_err.log"
  | patch => "patch.po"

theorem Leftover.path_eq (s : Scenario) (file : Leftover) : file.path s = s.root.child file.name := by
  cases file <;> rfl

theorem Leftover.isPiece_name (file : Leftover) : Path.IsPiece file.name := by
  cases file <;> decide

theorem Leftover.path_injective (s : Scenario) : Function.Injective (Leftover.path s) := by
  have names (file other : Leftover) : Utf8.encode file.name = Utf8.encode other.name →
      file = other := by
    cases file <;> cases other <;> decide
  intro file other e
  have pieces := congrArg Path.lastPiece e
  rw [file.path_eq, other.path_eq, Path.lastPiece_child _ file.isPiece_name,
    Path.lastPiece_child _ other.isPiece_name] at pieces
  exact names file other pieces

/-- The files of the roster are not among those that are left. -/
theorem linePath_ne_path (t : Roster) (pid : Pid) (s : Scenario) (file : Leftover) :
    t.linePath pid ≠ file.path s := by
  have other : Utf8.encode "stat" ≠ Utf8.encode file.name := by cases file <;> decide
  rw [file.path_eq]
  exact Path.child_ne_child (by decide) file.isPiece_name other

/-- Whether an exchange makes a file anew, whatever it held before: the file is created, or it is the
patch and the tool says that it is made. -/
def renews (c : Setting) (s : Scenario) (file : Leftover) : (r : Request) → r.Reply → Bool
  | .create path, .ok _ => path = file.path s
  | .run argv (some _) (some _), .ok status =>
    file = .patch && argv = generateArgv c s && status.succeeded
  | _, _ => false

/-- A file was made anew. -/
def Renewed (c : Setting) (s : Scenario) (past : Trace) (file : Leftover) : Prop :=
  ∃ e ∈ past, renews c s file e.request e.reply = true

/-- What a log takes in an exchange. -/
def took (log : DiagnosticLog) : (r : Request) → r.Reply → Bytes
  | .write file bytes, .ok _ => if file = log.file then bytes else []
  | _, _ => []

/-- What a log took. -/
def taken (log : DiagnosticLog) (past : Trace) : Bytes :=
  past.flatMap fun e => took log e.request e.reply

theorem taken_append (log : DiagnosticLog) (past more : Trace) :
    taken log (past ++ more) = taken log past ++ taken log more := List.flatMap_append

/-- Lines as they are written. -/
def written (texts : List String) : Bytes := texts.flatMap fun text => Utf8.encode (text ++ "\n")

/-! ## What may be asked -/

/-- The command of a request that starts a program. -/
def startOf? : Request → Option (List String)
  | .run argv _ _ => some argv
  | .spawn argv _ _ => some argv
  | _ => none

/-- Whether a request starts no program, shows no progress and opens no file but those of the
roster. -/
def IsMinor : Request → Prop
  | .read path => ∃ pid, path = Roster.system.linePath pid
  | .list path => path = Roster.system.root
  | .write _ _ | .poll _ | .await _ | .kill _ | .signalGroup _ _ | .sleep _ | .now
  | .publish _ | .retract _ => True
  | _ => False

theorem IsWrite.isMinor {r : Request} (h : IsWrite r) : IsMinor r := by
  cases h
  trivial

variable (c : Setting) (s : Scenario)

/-- Whether a request starts a command that stops an elevated target. -/
def IsKill (r : Request) : Prop :=
  s.elevated = true ∧ c.harness.escalateWith ≠ [] ∧
    ∃ pid signal, r = .run (killCommand c.harness.escalateWith pid signal) none none

/-- Since some moment the log took the title of the scenario, whatever else, and at last some
bytes. -/
def Block (start past : Trace) (last : Bytes) : Prop :=
  ∃ since rest, past = start ++ since ∧
    taken c.log since = written (DiagnosticLog.bannerLines (title s.root)) ++ rest ++ last

/-- The last that the block of the scenario took is a command under a heading. -/
def Announced (start past : Trace) (heading : String) (argv : List String) : Prop :=
  Block c s start past
    (written (DiagnosticLog.sectionLine heading :: DiagnosticLog.commandLines argv))

/-- How far a trial is: its block has begun and some files are new. -/
structure Reached (start : Trace) (files : List Leftover) (past : Trace) : Prop where
  block : Block c s start past []
  renewed : ∀ file ∈ files, Renewed c s past file

/-- The files that are new when the patch is made. -/
def generateFiles : List Leftover := [.generateErrors, .generateOut]

/-- The files that are new when the target is started. -/
def launchFiles : List Leftover := .targetErrors :: .capturedLog :: .patch :: generateFiles

/-- The files that are new when the patch is applied, which are all. -/
def applyFiles : List Leftover := .applyErrors :: .applyOut :: launchFiles

/-- What a trial may ask that was begun at some moment. -/
inductive May (start past : Trace) : Request → Prop
  | minor {r : Request} : IsMinor r → May start past r
  | report {text : String} : May start past (.report text)
  | flush : May start past .flush
  | create {file : Leftover} : May start past (.create (file.path s))
  /-- A file is read back after it was created. -/
  | again {file : Leftover} : file ≠ .patch → Renewed c s past file →
      May start past (.read (file.path s))
  | generate {out err : Handle} : Announced c s start past "generate" (generateArgv c s) →
      (∀ file ∈ generateFiles, Renewed c s past file) →
      May start past (.run (generateArgv c s) (some out) (some err))
  | launch {out err : Handle} : Announced c s start past "launch" (launchCommand c.harness s) →
      (∀ file ∈ launchFiles, Renewed c s past file) →
      May start past (.spawn (launchCommand c.harness s) out err)
  | apply {pid : Pid} {out err : Handle} : Announced c s start past "apply" (applyArgv c s pid) →
      (∀ file ∈ applyFiles, Renewed c s past file) →
      May start past (.run (applyArgv c s pid) (some out) (some err))
  | kill {r : Request} : IsKill c s r → May start past r

variable {c s} {start past : Trace}

theorem Renewed.append {file : Leftover} (h : Renewed c s past file) (more : Trace) :
    Renewed c s (past ++ more) file := by
  obtain ⟨e, hm, new⟩ := h
  exact ⟨e, List.mem_append_left more hm, new⟩

theorem Block.append {last : Bytes} (h : Block c s start past last) (more : Trace) :
    Block c s start (past ++ more) (taken c.log more) := by
  obtain ⟨since, rest, rfl, text⟩ := h
  refine ⟨since ++ more, rest ++ last, List.append_assoc start since more, ?_⟩
  rw [taken_append, text, List.append_assoc _ rest last]

theorem Block.glue {last : Bytes} (h : Block c s start past last) (more : Trace) :
    Block c s start (past ++ more) (last ++ taken c.log more) := by
  obtain ⟨since, rest, rfl, text⟩ := h
  refine ⟨since ++ more, rest, List.append_assoc start since more, ?_⟩
  rw [taken_append, text, List.append_assoc _ last]

theorem Block.forget {last : Bytes} (h : Block c s start past last) : Block c s start past [] := by
  obtain ⟨since, rest, rfl, text⟩ := h
  refine ⟨since, rest ++ last, rfl, ?_⟩
  rw [text, List.append_nil, List.append_assoc]

theorem Reached.append {files : List Leftover} (h : Reached c s start files past) (more : Trace) :
    Reached c s start files (past ++ more) :=
  ⟨(h.block.append more).forget, fun file hm => (h.renewed file hm).append more⟩

/-! ## The diagnostic log -/

section Log
variable {ok : Permits} (log : DiagnosticLog)

/-- What is written and not refused is taken. -/
theorem asks_put (may : ∀ past file bytes, ok past (.write file bytes)) (bytes : Bytes) :
    (log.put bytes).Asks ok past (fun _ past' => ∃ more, past' = past ++ more ∧ taken log more = bytes)
      fun _ _ => True := by
  rw [DiagnosticLog.put]
  split
  · rename_i empty
    exact Attempt.asks_pure.2 ⟨[], (List.append_nil past).symm, (List.isEmpty_iff.1 empty).symm⟩
  · refine Attempt.asks_of.2 (Plan.asks_request.2 ⟨may past log.file bytes, fun reply => ?_⟩)
    cases reply with
    | ok u =>
      refine ⟨_, rfl, ?_⟩
      rw [taken, List.flatMap_singleton, took, if_pos rfl]
    | error e => trivial

theorem asks_lines (may : ∀ past file bytes, ok past (.write file bytes)) (texts : List String) :
    (log.lines texts).Asks ok past
      (fun _ past' => ∃ more, past' = past ++ more ∧ taken log more = written texts)
      fun _ _ => True := by
  induction texts generalizing past with
  | nil => exact Attempt.asks_pure.2 ⟨[], (List.append_nil past).symm, rfl⟩
  | cons text rest ih =>
    refine Attempt.asks_bind.2 ((asks_put log may _).mono ?_ fun _ _ => id)
    rintro u past' ⟨more, rfl, first⟩
    refine ih.mono ?_ fun _ _ => id
    rintro u past'' ⟨more', rfl, others⟩
    refine ⟨more ++ more', List.append_assoc past more more', ?_⟩
    rw [taken_append, first, others]
    rfl

/-- Writing to the log as part of a trial. -/
theorem asks_log {α : Type} {x : Attempt IoError α} {Q : α → Trace → Prop}
    (h : x.Asks ok past Q fun _ _ => True) : (Step.log x).Asks ok past Q fun _ _ => True :=
  Attempt.asks_of.2 (Attempt.asks_outcome.1 h)

end Log
/-! ## Starting programs -/

theorem may_write (past : Trace) (file : Handle) (bytes : Bytes) :
    May c s start past (.write file bytes) := .minor trivial

/-- A line that is written by the way. -/
theorem asks_line {files : List Leftover} (h : Reached c s start files past) (text : String) :
    (Step.log (c.log.line text)).Asks (May c s start) past
      (fun _ past' => Reached c s start files past') fun _ _ => True := by
  refine asks_log ((asks_put c.log may_write _).mono ?_ fun _ _ => id)
  rintro u past' ⟨more, rfl, -⟩
  exact h.append more

/-- A heading and a command are written, and then the command is the last that the log took. -/
theorem asks_announce {α : Type} {files : List Leftover} (h : Reached c s start files past)
    (heading : String) (argv : List String) {rest : Step α} {Q : α → Trace → Prop}
    (hr : ∀ past', Reached c s start files past' → Announced c s start past' heading argv →
      rest.Asks (May c s start) past' Q fun _ _ => True) :
    (do Step.log (c.log.section_ heading)
        Step.log (c.log.command argv)
        rest : Step α).Asks (May c s start) past Q fun _ _ => True := by
  refine Attempt.asks_bind.2 (asks_log ((asks_put c.log may_write _).mono ?_ fun _ _ => id))
  rintro u past₁ ⟨more, rfl, first⟩
  refine Attempt.asks_bind.2 (asks_log ((asks_lines c.log may_write _).mono ?_ fun _ _ => id))
  rintro u past₂ ⟨more', rfl, command⟩
  refine hr _ ((h.append more).append more') ?_
  have block := (h.block.append more).glue more'
  rw [first, command] at block
  exact block

/-- A file is created anew; the log takes nothing. -/
theorem asks_createCapture (file : Leftover) {Q : Handle → Trace → Prop}
    (h : ∀ handle reply, Renewed c s (past ++ [⟨.create (file.path s), reply⟩]) file →
      Q handle (past ++ [⟨.create (file.path s), reply⟩])) :
    (createCapture (file.path s)).Asks (May c s start) past Q fun _ _ => True := by
  refine Attempt.asks_of.2 (Plan.asks_request.2 ⟨.create, fun reply => ?_⟩)
  cases reply with
  | ok handle =>
    refine h handle _ ⟨_, List.mem_append_right past (List.mem_singleton_self _), ?_⟩
    exact decide_eq_true rfl
  | error e => trivial

/-- Two files are created anew, and what was announced is still the last that the log took. -/
theorem asks_createTwo {α : Type} {files : List Leftover} {heading : String} {argv : List String}
    (h : Reached c s start files past) (announced : Announced c s start past heading argv)
    (out err : Leftover) {rest : Handle → Handle → Step α} {Q : α → Trace → Prop}
    (hr : ∀ past' o e, Reached c s start (err :: out :: files) past' →
      Announced c s start past' heading argv →
        (rest o e).Asks (May c s start) past' Q fun _ _ => True) :
    (do let o ← createCapture (out.path s)
        let e ← createCapture (err.path s)
        rest o e : Step α).Asks (May c s start) past Q fun _ _ => True := by
  refine Attempt.asks_bind.2 (asks_createCapture out fun o reply new => ?_)
  refine Attempt.asks_bind.2 (asks_createCapture err fun e reply' new' => hr _ o e ?_ ?_)
  · refine ⟨((h.append _).append _).block, fun file hm => ?_⟩
    rcases List.mem_cons.1 hm with rfl | hm
    · exact new'
    rcases List.mem_cons.1 hm with rfl | hm
    · exact new.append _
    · exact ((h.append _).append _).renewed file hm
  · have block := (announced.glue [⟨_, reply⟩]).glue [⟨_, reply'⟩]
    have silent (path : Path) (reply : Except IoError Handle) :
        taken c.log [⟨.create path, reply⟩] = [] := rfl
    rw [silent, silent, List.append_nil, List.append_nil] at block
    exact block

/-- A file that is new is copied into the log. -/
theorem asks_appendFile {files : List Leftover} (h : Reached c s start files past)
    (file : Leftover) (captured : file ≠ .patch) (hm : file ∈ files) (heading : String) :
    (c.log.appendFile heading (file.path s)).Asks (May c s start) past
      (fun _ past' => Reached c s start files past') fun _ _ => True := by
  refine Attempt.asks_bind.2 ((asks_put c.log may_write _).mono ?_ fun _ _ => id)
  rintro u past₁ ⟨more, rfl, -⟩
  have reached := h.append more
  refine Attempt.asks_bind.2 (Attempt.asks_of.2
    (Plan.asks_request.2 ⟨.again captured (reached.renewed file hm), fun reply => ?_⟩))
  cases reply with
  | error e => trivial
  | ok bytes =>
    refine (asks_put c.log may_write bytes).mono ?_ fun _ _ => id
    rintro u past₂ ⟨more', rfl, -⟩
    exact (reached.append _).append more'

/-- What the tool wrote is copied into the log. -/
theorem asks_copyOutput {files : List Leftover} (h : Reached c s start files past) (stage : Stage)
    (status : ExitStatus) {out err : Leftover} (co : out ≠ .patch) (ce : err ≠ .patch)
    (ho : out ∈ files) (he : err ∈ files) :
    (do Step.log (c.log.line (stage.label ++ " exit status: " ++ status.text))
        Step.log (c.log.appendFile (stage.label ++ " stdout") (out.path s))
        Step.log (c.log.appendFile (stage.label ++ " stderr") (err.path s))
        return status : Step ExitStatus).Asks (May c s start) past
      (fun status' past' => Reached c s start files past' ∧ status' = status) fun _ _ => True := by
  refine Attempt.asks_bind.2 ((asks_line h _).mono (fun _ past₁ h => ?_) fun _ _ => id)
  refine Attempt.asks_bind.2
    ((asks_log (asks_appendFile h out co ho _)).mono (fun _ past₂ h => ?_) fun _ _ => id)
  refine Attempt.asks_bind.2
    ((asks_log (asks_appendFile h err ce he _)).mono (fun _ past₃ h => ?_) fun _ _ => id)
  exact Attempt.asks_pure.2 ⟨h, rfl⟩

/-- The tool was run, with some files for what it writes, and ended in some way. -/
def Ran (argv : List String) (status : ExitStatus) (past : Trace) : Prop :=
  ∃ out err, (⟨.run argv (some out) (some err), .ok status⟩ : Exchange) ∈ past

/-- When the tool is run, its command was announced and its files are new. -/
theorem asks_runTool {files : List Leftover} (h : Reached c s start files past) (stage : Stage)
    (argv : List String) (out err : Leftover) (co : out ≠ .patch) (ce : err ≠ .patch)
    (may : ∀ past' o e, Reached c s start (err :: out :: files) past' →
      Announced c s start past' stage.label argv →
        May c s start past' (.run argv (some o) (some e))) :
    (runTool stage argv ⟨out.path s, err.path s⟩ c.log).Asks (May c s start) past
      (fun status past' => Reached c s start (err :: out :: files) past' ∧ Ran argv status past')
      fun _ _ => True := by
  cases argv with
  | nil => exact Attempt.asks_throw.2 trivial
  | cons program args =>
    refine asks_announce h stage.label (program :: args) fun past₁ h announced => ?_
    refine asks_createTwo h announced out err fun past₂ o e h announced => ?_
    refine Attempt.asks_bind.2 (Attempt.asks_of.2
      (Plan.asks_request.2 ⟨may past₂ o e h announced, fun reply => ?_⟩))
    cases reply with
    | error e => trivial
    | ok status =>
      have first : out ∈ err :: out :: files := List.mem_cons_of_mem err List.mem_cons_self
      have ended := h.append [⟨.run (program :: args) (some o) (some e), .ok status⟩]
      have copied := asks_copyOutput ended stage status co ce first List.mem_cons_self
      refine copied.longer.mono ?_ fun _ _ => id
      rintro status' past₃ ⟨⟨h, rfl⟩, longer⟩
      exact ⟨h, o, e, longer.subset (List.mem_append_right past₂ (List.mem_singleton_self _))⟩

theorem asks_progress {files : List Leftover} (h : Reached c s start files past) (text : String) :
    (progress text).Asks (May c s start) past (fun _ past' => Reached c s start files past')
      fun _ _ => True := by
  refine Attempt.asks_bind.2 (Attempt.asks_of.2
    (Plan.asks_request.2 ⟨.report, fun reply => ?_⟩))
  cases reply with
  | error e => trivial
  | ok u =>
    refine Attempt.asks_of.2 (Plan.asks_request.2 ⟨.flush, fun reply => ?_⟩)
    cases reply with
    | error e => trivial
    | ok u => exact (h.append _).append _

/-- A stage that runs the tool and shows that it is done. -/
theorem asks_toolStage {files : List Leftover} (h : Reached c s start files past) (stage : Stage)
    (argv : List String) (out err : Leftover) (co : out ≠ .patch) (ce : err ≠ .patch)
    (text : String) (failed : ExitStatus → Failure)
    (may : ∀ past' o e, Reached c s start (err :: out :: files) past' →
      Announced c s start past' stage.label argv →
        May c s start past' (.run argv (some o) (some e))) :
    (do let status ← runTool stage argv ⟨out.path s, err.path s⟩ c.log
        if !status.succeeded then throw (failed status)
        progress text : Step Unit).Asks (May c s start) past
      (fun _ past' => Reached c s start (err :: out :: files) past' ∧
        ∃ status, status.succeeded = true ∧ Ran argv status past') fun _ _ => True := by
  refine Attempt.asks_bind.2 ((asks_runTool h stage argv out err co ce may).mono ?_ fun _ _ => id)
  rintro status past' ⟨h, o, e, ran⟩
  dsimp only
  split
  · exact Attempt.asks_throw.2 trivial
  · rename_i succeeded
    refine (asks_progress h text).longer.mono ?_ fun _ _ => id
    rintro u past'' ⟨h, longer⟩
    exact ⟨h, status, by simpa using succeeded, o, e, longer.subset ran⟩

theorem asks_generate (h : Reached c s start [] past) :
    (generate c s).Asks (May c s start) past
      (fun _ past' => Reached c s start (.patch :: generateFiles) past')
      fun _ _ => True := by
  have stage := asks_toolStage h .generate (generateArgv c s) .generateOut .generateErrors (by decide)
    (by decide) "gen|" (fun status => .generation status.text s.generateOut s.generateErrors)
    fun _ _ _ h announced => .generate announced h.renewed
  refine stage.mono ?_ fun _ _ => id
  rintro u past' ⟨h, status, succeeded, out, err, ran⟩
  refine ⟨h.block, fun file hm => ?_⟩
  rcases List.mem_cons.1 hm with rfl | hm
  · exact ⟨_, ran, by simpa [renews] using succeeded⟩
  · exact h.renewed file hm

theorem asks_apply (h : Reached c s start launchFiles past) (pid : Pid) :
    (apply c s pid).Asks (May c s start) past
      (fun _ past' => Reached c s start applyFiles past') fun _ _ => True := by
  have stage := asks_toolStage h .apply (applyArgv c s pid) .applyOut .applyErrors (by decide)
    (by decide) "patch|" (fun status => .application pid status.text s.applyOut s.applyErrors)
    fun _ _ _ h announced => .apply announced h.renewed
  exact stage.mono (fun _ _ h => h.1) fun _ _ => id

theorem asks_targetLaunch {files : List Leftover} (h : Reached c s start files past)
    {argv : List String} {out err : Handle} (may : May c s start past (.spawn argv out err))
    (terminator : Terminator) (wrapperComm : Option String) (f : IoError → Failure) :
    (Attempt.of f (Target.launch argv out err terminator wrapperComm).outcome).Asks (May c s start)
      past (fun t past' => Reached c s start files past' ∧ t.terminator = terminator)
      fun _ _ => True := by
  refine Attempt.asks_of.2 ?_
  cases argv with
  | nil => exact Attempt.asks_outcome.1 (Attempt.asks_throw.2 trivial)
  | cons program args =>
    refine Attempt.asks_outcome.1 (Attempt.asks_bind.2 (Attempt.asks_of.2
      (Plan.asks_request.2 ⟨may, fun reply => ?_⟩)))
    cases reply with
    | error e => trivial
    | ok pid =>
      refine Attempt.asks_bind.2 (Attempt.asks_lift.2
        (Plan.asks_request.2 ⟨.minor trivial, fun _ => ?_⟩))
      exact Attempt.asks_pure.2 ⟨(h.append _).append _, rfl⟩

/-- When the target is started, its command was announced and its files are new. -/
theorem asks_launch (h : Reached c s start (.patch :: generateFiles) past) :
    (launch c s).Asks (May c s start) past
      (fun t past' => Reached c s start launchFiles past' ∧ t.terminator = terminatorOf c.harness s)
      fun _ _ => True := by
  refine asks_announce h "launch" _ fun past₁ h announced => ?_
  refine asks_createTwo h announced .capturedLog .targetErrors fun past₂ out err h announced => ?_
  exact asks_targetLaunch h (.launch announced h.renewed) _ _ _

/-! ## Looking after the target -/

theorem IsLookup.isMinor {r : Request} (h : IsLookup r) : IsMinor r := by
  cases h with
  | list => exact rfl
  | read => exact ⟨_, rfl⟩

variable (c s) in
/-- Requests of looking after a target: minor ones, and commands that stop it if it is elevated. -/
def IsCare (r : Request) : Prop := IsMinor r ∨ IsKill c s r

variable {α β : Type}

theorem only_care {p : Plan α} (h : p.Only IsMinor) : p.Only (IsCare c s) := h.mono fun _ => .inl

/-- A target is stopped by minor requests and, if it is elevated, by kill commands. -/
theorem Tends.isCare {pid : Pid} {r : Request} (h : Tends (terminatorOf c.harness s) pid r) :
    IsCare c s r := by
  cases h with
  | lookup look => exact .inl look.isMinor
  | poll | signal | now | sleep => exact .inl trivial
  | command through filled =>
    rw [terminatorOf] at through
    split at through
    · rename_i elevated
      cases through
      exact .inr ⟨elevated, filled, pid, _, rfl⟩
    · cases through

/-- Stopping a target leaves how it is stopped. -/
theorem asks_stopTarget {ok : Permits} {t : Target} (ht : t.terminator = terminatorOf c.harness s)
    (care : ∀ past r, IsCare c s r → ok past r) :
    t.terminate.Asks ok past fun p _ => p.2.terminator = t.terminator := by
  have permitted {past : Trace} {r : Request} (minor : IsMinor r) : ok past r :=
    care past r (.inl minor)
  rw [Target.terminate]
  split
  · exact Plan.asks_done.2 rfl
  rw [ht]
  have tends := (only_terminate (terminatorOf c.harness s) t.pid).mono fun _ => Tends.isCare
  refine Plan.asks_bind.2 ((tends.asks fun _ r => care _ r).mono fun r past₁ _ => ?_)
  cases r with
  | error e => exact Plan.asks_done.2 ht
  | ok u =>
    refine Plan.asks_bind.2 (Plan.asks_request.2 ⟨permitted trivial, fun reply => ?_⟩)
    cases reply with
    | error e => exact Plan.asks_done.2 ht
    | ok status =>
      refine Plan.asks_bind.2 (Plan.asks_request.2 ⟨permitted trivial, fun _ => ?_⟩)
      exact Plan.asks_done.2 rfl

theorem GivesUp.isCare {t : Target} (ht : t.terminator = terminatorOf c.harness s) {r : Request}
    (h : GivesUp t r) : IsCare c s r := by
  cases h with
  | tends tends =>
    rw [ht] at tends
    exact tends.isCare
  | kill | await | retract => exact .inl trivial

/-! ## A target at hand -/

/-- Whatever the replies are, a plan with a target asks only what is permitted; its outcome, the
target after it and the trace have a property. -/
def AsksOn {α : Type} (ok : Permits) (t : Target) (x : WithTarget α) (past : Trace)
    (Q : Except Failure α → Target → Trace → Prop) : Prop :=
  (x.run.run t).Asks ok past fun p past' => Q p.1 p.2 past'

namespace AsksOn
variable {ok : Permits} {t : Target} {Q : Except Failure α → Target → Trace → Prop}

theorem bind {x : WithTarget α} {f : α → WithTarget β}
    {R : Except Failure β → Target → Trace → Prop} (h : AsksOn ok t x past Q)
    (hok : ∀ a t' past', Q (.ok a) t' past' → AsksOn ok t' (f a) past' R)
    (herr : ∀ e t' past', Q (.error e) t' past' → R (.error e) t' past') :
    AsksOn ok t (x >>= f) past R := by
  refine Plan.asks_bind.2 (h.mono fun p past' hq => ?_)
  obtain ⟨r, t'⟩ := p
  cases r with
  | ok a => exact hok a t' past' hq
  | error e => exact Plan.asks_done.2 (herr e t' past' hq)

theorem step {x : Step α} {P : α → Trace → Prop} {E : Failure → Trace → Prop}
    (h : x.Asks ok past P E) :
    AsksOn ok t (WithTarget.step x) past fun r t' past' => t' = t ∧ Ends P E r past' :=
  Plan.asks_bind.2 ((Attempt.asks_outcome.1 h).mono fun _ _ hr => Plan.asks_done.2 ⟨rfl, hr⟩)

theorem pure {a : α} (h : Q (.ok a) t past) : AsksOn ok t (Pure.pure a) past Q :=
  Plan.asks_done.2 h

theorem throw {f : Failure} (h : Q (.error f) t past) :
    AsksOn ok t (MonadExcept.throw f) past Q := Plan.asks_done.2 h

theorem operate {f : IoError → Failure} {op : Target → Plan (Except IoError α × Target)}
    (h : (op t).Asks ok past fun p past' => Q (p.1.mapError f) p.2 past') :
    AsksOn ok t (WithTarget.operate f op) past Q :=
  Plan.asks_bind.2 (h.mono fun _ _ hq => Plan.asks_done.2 hq)

theorem run {x : WithTarget α} (h : AsksOn ok t x past Q) :
    (x.run.run t).Asks ok past fun p past' => Q p.1 p.2 past' := h

theorem of_run {x : WithTarget α}
    (h : (x.run.run t).Asks ok past fun p past' => Q p.1 p.2 past') : AsksOn ok t x past Q := h

attribute [irreducible] AsksOn

end AsksOn

/-- Minor requests change nothing in how far a trial is. -/
theorem Reached.only {files : List Leftover} (h : Reached c s start files past) {p : Plan α}
    (only : p.Only IsMinor) :
    p.Asks (May c s start) past fun _ past' => Reached c s start files past' := by
  refine (only.asks fun _ _ => .minor).mono ?_
  rintro a past' ⟨more, rfl, -⟩
  exact h.append more

theorem asks_findProgram {files : List Leftover} (h : Reached c s start files past) (t : Target) :
    (findProgram c s t).Asks (May c s start) past
      (fun _ past' => Reached c s start files past') fun _ _ => True := by
  refine Attempt.asks_bind.2 (Attempt.asks_lift.2
    (Plan.asks_request.2 ⟨.minor trivial, fun _ => ?_⟩))
  refine Attempt.asks_bind.2 (Attempt.asks_lift.2 ?_)
  have looks := (only_programPid t).mono fun _ => IsLookup.isMinor
  refine ((h.append _).only looks).mono fun pid past₁ h => ?_
  dsimp only
  split
  · refine Attempt.asks_bind.2 ((asks_line h _).mono (fun _ _ h => ?_) fun _ _ => id)
    exact Attempt.asks_pure.2 h
  · exact Attempt.asks_pure.2 h

variable (c s start) in
/-- How a target is left by what was done with it: it is stopped as before, and all files are new if
nothing failed. -/
def Attended (r : Except Failure α) (t : Target) (past : Trace) : Prop :=
  t.terminator = terminatorOf c.harness s ∧ ∀ a, r = .ok a → Reached c s start applyFiles past

theorem asks_exitStatus {t : Target} (h : Reached c s start applyFiles past) :
    t.exitStatus.Asks (May c s start) past fun p past' =>
      p.2.terminator = t.terminator ∧ Reached c s start applyFiles past' := by
  rw [Target.exitStatus]
  cases t.finished with
  | some status => exact Plan.asks_done.2 ⟨rfl, h⟩
  | none =>
    refine Plan.asks_bind.2 (Plan.asks_request.2 ⟨.minor trivial, fun reply => ?_⟩)
    cases reply <;> exact Plan.asks_done.2 ⟨rfl, h.append _⟩

theorem asks_observe {t : Target} (ht : t.terminator = terminatorOf c.harness s) (program : Pid)
    (h : Reached c s start applyFiles past) :
    AsksOn (May c s start) t (observe c s program) past (Attended c s start) := by
  have slept : (liftM (Plan.request (.sleep s.observeMs)) : Step Unit).Asks (May c s start) past
      (fun _ past' => Reached c s start applyFiles past') fun _ _ => True :=
    Attempt.asks_lift.2 (Plan.asks_request.2 ⟨.minor trivial, fun _ => h.append _⟩)
  refine (AsksOn.step slept).bind ?_ fun e t' past' hp => ⟨hp.1 ▸ ht, fun _ e' => nomatch e'⟩
  rintro u t₁ past₁ ⟨rfl, reached⟩
  refine (AsksOn.operate (Q := fun _ t' past' => t'.terminator = t₁.terminator ∧
    Reached c s start applyFiles past') (asks_exitStatus reached)).bind ?_
    fun e t' past' hp => ⟨hp.1.trans ht, fun _ e' => nomatch e'⟩
  rintro exited t₂ past₂ ⟨same, h⟩
  cases exited with
  | none => exact .pure ⟨same.trans ht, fun _ _ => h⟩
  | some status =>
    have told : (do let _ ← (c.log.appendFile "target stderr" s.targetErrors).outcome :
        Step Unit).Asks (May c s start) past₂ (fun _ _ => True) fun _ _ => True := by
      have copied := asks_appendFile h .targetErrors (by decide) (by decide) "target stderr"
      refine Attempt.asks_bind.2 (Attempt.asks_lift.2 ?_)
      exact (Attempt.asks_outcome.1 copied).mono fun _ _ _ => Attempt.asks_pure.2 trivial
    refine (AsksOn.step told).bind ?_ fun e t' past' hp =>
      ⟨hp.1 ▸ same.trans ht, fun _ e' => nomatch e'⟩
    rintro u t₃ past₃ ⟨rfl, -⟩
    exact .throw ⟨same.trans ht, fun _ e' => nomatch e'⟩

theorem May.care {r : Request} (h : IsCare c s r) : May c s start past r := h.elim .minor .kill

theorem asks_stop {t : Target} (ht : t.terminator = terminatorOf c.harness s) (program : Pid)
    (h : Reached c s start applyFiles past) :
    AsksOn (May c s start) t (stop c program) past (Attended c s start) := by
  refine AsksOn.of_run (show Plan.Asks _ (t.terminate >>= _) past _ from ?_)
  refine Plan.asks_bind.2 ((asks_stopTarget ht fun _ _ => .care).longer.mono ?_)
  rintro ⟨r, t'⟩ past₁ ⟨same, more, rfl⟩
  have h := h.append more
  cases r with
  | ok u => exact Plan.asks_done.2 ⟨same.trans ht, fun _ _ => h⟩
  | error e =>
    refine Plan.asks_bind.2 ?_
    refine (Attempt.asks_outcome.1 (asks_line h (survivorLine program e))).mono fun r past₂ hr => ?_
    refine Plan.asks_done.2 ⟨same.trans ht, fun a e' => ?_⟩
    obtain rfl : r = .ok a := e'
    exact hr

/-- All that is done while the target runs. -/
theorem asks_attend {t : Target} (ht : t.terminator = terminatorOf c.harness s)
    (h : Reached c s start launchFiles past) :
    AsksOn (May c s start) t (attend c s) past (Attended c s start) := by
  have failed {t' : Target} {past' : Trace} {f : Failure} {P : Prop} (hp : t' = t ∧ P) :
      Attended c s start (.error f : Except Failure Unit) t' past' :=
    ⟨hp.1 ▸ ht, fun _ e => nomatch e⟩
  have got : AsksOn (May c s start) t (get : WithTarget Target) past
      fun r t' past' => r = .ok t ∧ t' = t ∧ past' = past :=
    .of_run (Plan.asks_done.2 ⟨rfl, rfl, rfl⟩)
  refine got.bind ?_ fun e t' past' hp => nomatch hp.1
  rintro t₀ t₁ past₁ ⟨e, rfl, rfl⟩
  obtain rfl : t₀ = t₁ := Except.ok.inj e
  refine (AsksOn.step (asks_findProgram h t₀)).bind ?_ fun _ _ _ => failed
  rintro program t₁ past₂ ⟨rfl, reached⟩
  refine (AsksOn.step (asks_apply reached program)).bind ?_ fun _ _ _ => failed
  rintro u t₂ past₃ ⟨rfl, reached⟩
  refine (asks_observe ht program reached).bind ?_
    fun e t' past' hp => ⟨hp.1, fun _ e' => nomatch e'⟩
  rintro u t₃ past₄ ⟨same, reached⟩
  exact asks_stop same program (reached () rfl)

/-! ## The whole trial -/

/-- The log of the target was new when the target was started, and it is read back. -/
theorem asks_judge (h : Reached c s start applyFiles past) (v : Validator) :
    (judge c s v).Asks (May c s start) past (fun _ _ => True) fun _ _ => True := by
  refine Attempt.asks_bind.2 ((asks_line h _).mono (fun _ past₁ h => ?_) fun _ _ => id)
  have validated : (v.validate s.capturedLog c.log.put).Asks (May c s start) past₁
      fun _ _ => True := by
    have new := h.renewed .capturedLog (by decide)
    refine Plan.asks_bind.2 (Plan.asks_request.2 ⟨.again (by decide) new, fun reply => ?_⟩)
    have write := only_writeAll c.log (v.judge s.capturedLog reply).diagnostics
    refine Plan.asks_bind.2 ((write.asks fun _ _ h => .minor h.isMinor).mono fun _ _ _ => ?_)
    exact Plan.asks_done.2 trivial
  refine Attempt.asks_bind.2 (Attempt.asks_lift.2 (validated.mono fun verdict past₂ _ => ?_))
  cases verdict with
  | pass => exact Attempt.asks_pure.2 trivial
  | fail why => exact Attempt.asks_throw.2 trivial

theorem asks_attempt (v : Validator) (start : Trace) :
    (attempt c s v).Asks (May c s start) start (fun _ _ => True) fun _ _ => True := by
  have banner : (Step.log (c.log.banner (title s.root))).Asks (May c s start) start
      (fun _ past => Reached c s start [] past) fun _ _ => True := by
    refine asks_log ((asks_lines c.log may_write _).mono ?_ fun _ _ => id)
    rintro u past ⟨more, rfl, first⟩
    exact ⟨⟨more, [], rfl, by rw [first, List.append_nil, List.append_nil]⟩, fun _ hm => nomatch hm⟩
  refine Attempt.asks_bind.2 (banner.mono (fun _ past h => ?_) fun _ _ => id)
  refine Attempt.asks_bind.2 ((asks_generate h).mono (fun _ past h => ?_) fun _ _ => id)
  refine Attempt.asks_bind.2 ((asks_launch h).mono (fun t past h => ?_) fun _ _ => id)
  refine Attempt.asks_bind.2 (Attempt.asks_lift.2 ((asks_attend h.2 h.1).run.mono ?_))
  rintro ⟨r, t'⟩ past ⟨ht, reached⟩
  have gives := (only_dispose t').mono fun _ => GivesUp.isCare ht
  refine Attempt.asks_bind.2 (Attempt.asks_lift.2 ((gives.asks fun _ _ => .care).mono ?_))
  rintro _ past' ⟨more, rfl, -⟩
  cases r with
  | error f => exact Attempt.asks_throw.2 trivial
  | ok u => exact asks_judge ((reached u rfl).append more) v

/-- All that a trial asks. -/
theorem asks_run (v : Validator) (start : Trace) :
    (run c s v).Asks (May c s start) start fun _ _ => True := by
  refine Plan.asks_bind.2 ((Attempt.asks_outcome.1 (asks_attempt v start)).mono fun r past _ => ?_)
  cases r with
  | ok u => exact Plan.asks_done.2 trivial
  | error f =>
    have write := only_recordFailure c.log f
    refine Plan.asks_bind.2 ((write.asks fun _ _ h => .minor h.isMinor).mono ?_)
    exact fun _ _ _ => Plan.asks_done.2 trivial

end PatchTrial.Trial
