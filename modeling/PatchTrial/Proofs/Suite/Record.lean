import PatchTrial.Proofs.Scenario
import PatchTrial.Suite.Run

/-!
What the diagnostic log tells of the programs that were started. A block of the log begins with the
title of a scenario, and a command is on record in it if it stands there under a heading.

What is proved:
  1. `within_trial`: a suite starts programs only in the trials of its scenarios.
  2. `run_keepsRecord`: the command of every program that is started is on record in the block of the
     scenario, but for the commands that stop an elevated target.
  3. `kill_off_record`: those are started without a line in the log.
-/
namespace PatchTrial.Suite
open Trial

/-- In the block of a scenario a command stands under a heading. -/
def OnRecord (root : Path) (block : Bytes) (argv : List String) : Prop :=
  ∃ between heading after, block =
    written (DiagnosticLog.bannerLines (title root)) ++ between ++
      written (DiagnosticLog.sectionLine heading :: DiagnosticLog.commandLines argv) ++ after

/-- A program is started in a trial of a scenario of the suite. What the log took since the trial
began has the command on record, or the command is to stop an elevated target. -/
structure Accounted (c : Setting) (entries : List Entry) (env : Environment) (before : Trace)
    (e : Exchange) (argv : List String) : Prop where
  known : ∃ entry ∈ entries, ∃ (s : Scenario) (v : Validator) (start since : Trace),
    s.root = entry.root ∧ (Trial.run c s v).Within env start before e ∧ before = start ++ since ∧
      (OnRecord s.root (taken c.log since) argv ∨ IsKill c s e.request)

/-- Every program that a run of a suite starts is accounted for when it is started. -/
def KeepsRecord (c : Setting) (entries : List Entry) (env : Environment) : Prop :=
  ∀ before e argv, (run c entries).outcome.Within env [] before e →
    startOf? e.request = some argv → Accounted c entries env before e argv

/-! ## Trials -/

section Trial
variable {c : Setting} {s : Scenario} {start : Trace}

theorem startOf?_minor {r : Request} (h : IsMinor r) : startOf? r = none := by
  cases r <;> first | rfl | exact h.elim

/-- Of whatever a trial asks that starts a program, the command is on record, unless it is to stop an
elevated target. -/
theorem onRecord_of_may {since : Trace} {r : Request} {argv : List String}
    (h : May c s start (start ++ since) r) (starts : startOf? r = some argv) :
    OnRecord s.root (taken c.log since) argv ∨ IsKill c s r := by
  have recorded {heading : String} {argv : List String}
      (h : Announced c s start (start ++ since) heading argv) :
      OnRecord s.root (taken c.log since) argv := by
    obtain ⟨since', rest, same, text⟩ := h
    rw [List.append_cancel_left same]
    exact ⟨rest, heading, [], by rw [text, List.append_nil]⟩
  cases h with
  | minor minor =>
    rw [startOf?_minor minor] at starts
    cases starts
  | report | flush | create | again => cases starts
  | generate announced _ =>
    cases starts
    exact .inl (recorded announced)
  | launch announced _ =>
    cases starts
    exact .inl (recorded announced)
  | apply announced _ =>
    cases starts
    exact .inl (recorded announced)
  | kill kill => exact .inr kill

end Trial

/-! ## Suites -/

/-- Whether a request may be made to load a scenario. -/
def IsLoading : Request → Prop
  | .kind _ | .read _ => True
  | _ => False

/-- Whether a request may be made outside of a trial: a scenario is loaded, it is recorded that it
cannot be, or its progress is told. -/
inductive IsAround : Request → Prop
  | loading {r : Request} : IsLoading r → IsAround r
  | write {r : Request} : IsWrite r → IsAround r
  | report {text : String} : IsAround (.report text)
  | flush : IsAround .flush

theorem IsAround.startOf? {r : Request} (h : IsAround r) : startOf? r = none := by
  cases h with
  | loading loading => cases r <;> first | rfl | exact loading.elim
  | write write => exact startOf?_minor write.isMinor
  | _ => rfl

theorem only_isFolder (path : Path) : (Plan.isFolder path).Only IsLoading := by
  have asked : (Plan.request (.kind path)).Only IsLoading := .request trivial
  exact asked.bind fun _ => .done _

theorem only_loadSettings (root : Path) : (Settings.load root).outcome.Only IsLoading := by
  have asked : (Plan.request (.kind (Settings.path root))).Only IsLoading := .request trivial
  refine Attempt.only_bind (Attempt.only_lift asked) fun kind => ?_
  split
  · exact Attempt.only_pure _
  · have read : (Plan.request (.read (Settings.path root))).Only IsLoading := .request trivial
    refine Attempt.only_bind (Attempt.only_of read) fun bytes => ?_
    split
    · exact Attempt.only_throw _
    · split
      · exact Attempt.only_throw _
      · exact Attempt.only_pure _

theorem only_loadScenario (root : Path) (o : Overrides) :
    (Scenario.load root o).outcome.Only IsLoading := by
  have folder (path : Path) : (liftM (Plan.isFolder path) : Attempt Refusal Bool).outcome.Only
      IsLoading := Attempt.only_lift (only_isFolder path)
  refine Attempt.only_bind (folder root) fun _ => ?_
  split
  · exact Attempt.only_throw _
  refine Attempt.only_bind (folder _) fun _ => ?_
  split
  · exact Attempt.only_throw _
  refine Attempt.only_bind (folder _) fun _ => ?_
  split
  · exact Attempt.only_throw _
  · exact Attempt.only_bind (only_loadSettings root) fun _ => Attempt.only_pure _

theorem only_loadValidator (root : Path) : (Validator.load root).outcome.Only IsLoading := by
  have read : (Plan.request (.read (Validator.path root))).Only IsLoading := .request trivial
  refine Attempt.only_bind (Attempt.only_of read) fun bytes => ?_
  split
  · exact Attempt.only_throw _
  · split
    · exact Attempt.only_throw _
    · exact Attempt.only_pure _

theorem only_recordUnloadable (log : DiagnosticLog) (root : Path) (f : Failure) :
    (recordUnloadable log root f).Only IsWrite :=
  (only_lines log _).bind fun _ => only_recordFailure log f

variable {c : Setting} {env : Environment} {before past : Trace} {e : Exchange} {argv : List String}

theorem not_within_only {α : Type} {P : Request → Prop} {p : Plan α} (h : p.Only P)
    (other : ¬ P e.request) : ¬ p.Within env past before e :=
  fun within => other (h.of_within within)

/-- The scenario of an entry, with some settings of its own that name no blank executable. -/
def Loads (entry : Entry) (s : Scenario) : Prop :=
  ∃ settings, settings.hasBlankName = false ∧ s = .of entry.root entry.overrides settings

theorem Loads.root {entry : Entry} {s : Scenario} (h : Loads entry s) : s.root = entry.root := by
  obtain ⟨settings, -, rfl⟩ := h
  rfl

/-- The load of a scenario keeps the folder it is loaded from. -/
theorem root_of_load {root : Path} {o : Overrides} {s : Scenario}
    (h : ((Scenario.load root o).outcome.play env past).1 = .ok s) : s.root = root := by
  obtain ⟨settings, -, rfl⟩ := Scenario.of_load h
  rfl

/-- What an entry asks, but to load and to record, it asks in the trial of its scenario. -/
theorem within_runEntry {entry : Entry} (h : (runEntry c entry).Within env past before e)
    (other : ¬ IsAround e.request) :
    ∃ s v start, Loads entry s ∧ (Trial.run c s v).Within env start before e := by
  have recordsOnly (f : Failure) : (recordUnloadable c.log entry.root f).Only IsAround :=
    (only_recordUnloadable c.log entry.root f).mono fun _ => .write
  -- what is asked before and after the trial is no part of one
  rcases Plan.within_bind h with loading | h
  · have around := (only_loadScenario entry.root entry.overrides).mono fun _ => IsAround.loading
    exact absurd loading (not_within_only around other)
  cases hs : ((Scenario.load entry.root entry.overrides).outcome.play env past).1 with
  | error r =>
    rw [hs] at h
    rcases Plan.within_bind h with recording | h
    · exact absurd recording (not_within_only (recordsOnly _) other)
    · exact absurd h Plan.not_within_done
  | ok s =>
    rw [hs] at h
    rcases Plan.within_bind h with loading | h
    · have around := (only_loadValidator entry.root).mono fun _ => IsAround.loading
      exact absurd loading (not_within_only around other)
    revert h
    generalize ((Validator.load entry.root).outcome.play env _).1 = r
    intro h
    cases r with
    | error r =>
      rcases Plan.within_bind h with recording | h
      · exact absurd recording (not_within_only (recordsOnly _) other)
      · exact absurd h Plan.not_within_done
    | ok v =>
      rcases Plan.within_bind h with trial | h
      · exact ⟨s, v, _, Scenario.of_load hs, trial⟩
      · revert h
        generalize ((Trial.run c s v).play env _).1 = r
        intro h
        cases r <;> exact absurd h Plan.not_within_done

/-- What a suite asks, but to load, to record and to tell, it asks in the trials of its scenarios. -/
theorem within_loaded_trial {tally : Tally} {entries : List Entry}
    (h : (runFrom c tally entries).outcome.Within env past before e)
    (other : ¬ IsAround e.request) :
    ∃ entry ∈ entries, ∃ s v start, Loads entry s ∧
      (Trial.run c s v).Within env start before e := by
  have reports (text : String) : (Plan.request (.report text)).Only IsAround := .request .report
  have flushes : (Plan.request .flush).Only IsAround := .request .flush
  induction entries generalizing tally past with
  | nil => exact absurd h Plan.not_within_done
  | cons entry rest ih =>
    rcases Attempt.within_bind h with announced | ⟨_, _, h⟩
    · exact absurd announced (not_within_only (Attempt.only_of (reports _)) other)
    rcases Attempt.within_bind h with flushed | ⟨_, _, h⟩
    · exact absurd flushed (not_within_only (Attempt.only_of flushes) other)
    rcases Attempt.within_bind h with trial | ⟨_, _, h⟩
    · rw [Attempt.outcome_lift] at trial
      rcases Plan.within_bind trial with trial | ended
      · exact ⟨entry, List.mem_cons_self, within_runEntry trial other⟩
      · exact absurd ended Plan.not_within_done
    rcases Attempt.within_bind h with told | ⟨_, _, h⟩
    · exact absurd told (not_within_only (Attempt.only_of (reports _)) other)
    obtain ⟨entry', hm, within⟩ := ih h
    exact ⟨entry', List.mem_cons_of_mem entry hm, within⟩

theorem within_trial_of {tally : Tally} {entries : List Entry}
    (h : (runFrom c tally entries).outcome.Within env past before e)
    (other : ¬ IsAround e.request) :
    ∃ entry ∈ entries, ∃ s v start, s.root = entry.root ∧
      (Trial.run c s v).Within env start before e := by
  obtain ⟨entry, hm, s, v, start, loads, within⟩ := within_loaded_trial h other
  exact ⟨entry, hm, s, v, start, loads.root, within⟩

/-- A suite starts programs only in the trials of its scenarios. -/
theorem within_trial {tally : Tally} {entries : List Entry}
    (h : (runFrom c tally entries).outcome.Within env past before e)
    (starts : startOf? e.request = some argv) :
    ∃ entry ∈ entries, ∃ s v start, s.root = entry.root ∧
      (Trial.run c s v).Within env start before e :=
  within_trial_of h fun around => nomatch around.startOf?.symm.trans starts

/-- The command of every program that a suite starts is on record by then in the block of the
scenario, unless it is to stop an elevated target. -/
theorem run_keepsRecord (c : Setting) (entries : List Entry) (env : Environment) :
    KeepsRecord c entries env := by
  intro before e argv h starts
  obtain ⟨entry, hm, s, v, start, root, within⟩ := within_trial h starts
  obtain ⟨since, rfl⟩ := within.1
  have may := (asks_run v start).of_within within
  exact ⟨entry, hm, s, v, start, since, root, within, rfl, onRecord_of_may may starts⟩

/-! ## The commands off the record -/

/-- The files of a scenario for which nothing is set and that is judged by a preset. -/
def bareFiles (root : Path) (path : Path) : Bytes :=
  if path = Settings.path root then Utf8.encode "\x7b\x7d"
  else if path = Validator.path root then Utf8.encode "\x7b\"preset\": \"constants\"\x7d"
  else []

/-- A machine with one scenario on which nothing goes wrong. -/
def calm : Environment := untroubled (fun _ _ => false) (bareFiles (.ofString "t"))

/-- A setting in which elevated targets are started through the wrapper `w`. -/
def wrapping : Setting := ⟨⟨.ofString "k", ["w"], 0⟩, ⟨.ofString "d.log", 9⟩⟩

def elevatedEntry : Entry := .of (.ofString "t") { elevated := true }

/-- A scenario of which the machine `calm` has no files. -/
def fileless : Entry := .of (.ofString "u") {}

theorem mem_of_onRecord {root : Path} {block : Bytes} {argv : List String}
    (h : OnRecord root block argv) {b : UInt8}
    (hb : b ∈ Utf8.encode (" " ++ ShellWords.join argv ++ "\n")) : b ∈ block := by
  obtain ⟨between, heading, after, rfl⟩ := h
  refine List.mem_append_left _ (List.mem_append_right _ (List.mem_flatMap.2 ?_))
  exact ⟨" " ++ ShellWords.join argv, by simp [DiagnosticLog.commandLines], hb⟩

/-- An elevated target is stopped by a command that no block of the log has on record, although the
log takes all that is written. -/
theorem kill_off_record :
    (∀ past file bytes, calm past (.write file bytes) = .ok ()) ∧
    ∃ before e argv, (run wrapping [elevatedEntry]).outcome.Within calm [] before e ∧
      startOf? e.request = some argv ∧
      ∀ earlier block root, taken wrapping.log before = earlier ++ block →
        ¬ OnRecord root block argv := by
  refine ⟨fun _ _ _ => rfl, ?_⟩
  generalize htr : ((run wrapping [elevatedEntry]).outcome.play calm []).2 = all
  have facts : all[47]?.bind (fun e => startOf? e.request) = some ["w", "kill", "-TERM", "-7"] ∧
      (84 : UInt8) ∉ taken wrapping.log (all.take 47) := by
    rw [← htr]
    decide +kernel
  obtain ⟨started, unseen⟩ := facts
  obtain ⟨e, he, argv⟩ := Option.bind_eq_some_iff.1 started
  refine ⟨all.take 47, e, _, ⟨List.nil_prefix, ?_⟩, argv, ?_⟩
  · have now : all.take 48 = all.take 47 ++ [e] := by
      rw [List.take_add_one (i := 47), he]
      rfl
    rw [htr, ← now]
    exact List.take_prefix 48 all
  · intro earlier block root split onRecord
    refine unseen ?_
    rw [split]
    -- the letter T is nowhere else in the log
    exact List.mem_append_right _ (mem_of_onRecord onRecord (by decide +kernel))

end PatchTrial.Suite
