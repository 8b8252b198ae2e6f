import PatchTrial.Program
import PatchTrial.Proofs.Suite.Verdicts

/-!
The stages of the program: the scenarios are found and what they share is resolved, the log is
opened, the suite is run, and a summary is told.

What is proved:
  1. `only_choose`: until the log is opened, the machine is only asked what is there.
  2. `goes_runFor`: how a run can go, stage by stage.
  3. `play_run`: a command line asks for no run, or the run goes in one of these ways.
  4. `Goes.mem_suite`: whatever is not asked to find the scenarios, to open the log or to tell of
     progress is asked by the suite.
-/
namespace PatchTrial.Program
open Suite (Entry Silent always_report always_flush)
open Trial (marks marks_append isLost)

/-- Whether a request only asks what is there. -/
inductive IsInquiry : Request → Prop
  | kind {path : Path} : IsInquiry (.kind path)
  | list {path : Path} : IsInquiry (.list path)
  | canonical {path : Path} : IsInquiry (.canonical path)
  | isProgram {path : Path} : IsInquiry (.isProgram path)
  | searchPath : IsInquiry .searchPath

/-- The scenarios that are asked for, and what they share. -/
def choose (a : Arguments) : Attempt Refusal (List Entry × Harness) := do
  let entries ← Suite.discover a
  return (entries, ← Harness.resolve a)

/-- The summary of a run is told. -/
def conclude (log : Path) (tally : Suite.Tally) : Attempt Refusal Unit := do
  reportAll (summary log tally)
  Attempt.of Refusal.noSummary (Plan.request .flush)

theorem runFor_eq (a : Arguments) :
    runFor a = (do
      let (entries, harness) ← choose a
      Plan.request .guard
      let log ← DiagnosticLog.openAt a.diagnosticLog (logMode a)
      let tally ← Suite.run ⟨harness, log⟩ entries
      conclude log.path tally
      return tally) := by
  rw [runFor, choose, LawfulMonad.bind_assoc]
  refine congrArg (_ >>= ·) (funext fun entries => Eq.trans ?_ (LawfulMonad.bind_assoc _ _ _).symm)
  refine congrArg (_ >>= ·) (funext fun harness => ?_)
  refine congrArg (_ >>= ·) (funext fun _ => congrArg (_ >>= ·) (funext fun log => ?_))
  refine congrArg (_ >>= ·) (funext fun tally => ?_)
  exact (LawfulMonad.bind_assoc _ _ _).symm

/-! ## Finding the scenarios -/

theorem only_isFolder (path : Path) : (Plan.isFolder path).Only IsInquiry := by
  have asked : (Plan.request (.kind path)).Only IsInquiry := .request .kind
  exact asked.bind fun _ => .done _

theorem only_scenariosIn (folder : Path) (o : Overrides) :
    (Suite.scenariosIn folder o).outcome.Only IsInquiry := by
  have named (names : List Bytes) : (Suite.folderNames folder names).Only IsInquiry := by
    induction names with
    | nil => exact .done _
    | cons name rest ih => exact (only_isFolder _).bind fun _ => ih.bind fun _ => .done _
  have listed : (Plan.request (.list folder)).Only IsInquiry := .request .list
  refine Attempt.only_bind (Attempt.only_of listed) fun names => ?_
  exact Attempt.only_bind (Attempt.only_lift (named _)) fun _ => Attempt.only_pure _

theorem only_discover (a : Arguments) : (Suite.discover a).outcome.Only IsInquiry := by
  rw [Suite.discover]
  split
  · split
    · exact only_scenariosIn _ _
    · refine Attempt.only_bind (Attempt.only_lift (only_isFolder _)) fun _ => ?_
      split
      · exact Attempt.only_throw _
      · exact Attempt.only_pure _
  · exact Attempt.only_bind (only_scenariosIn _ _) fun _ => Attempt.only_pure _

theorem only_search (name : String) (folders : List Path) :
    (Harness.search name folders).Only IsInquiry := by
  induction folders with
  | nil => exact .done _
  | cons folder rest ih =>
    have asked : (Plan.request (.isProgram (folder.child name))).Only IsInquiry :=
      .request .isProgram
    refine asked.bind fun found => ?_
    cases found with
    | true => exact .done _
    | false => exact ih

theorem only_findTool (raw : String) : (Harness.findTool raw).outcome.Only IsInquiry := by
  have found (path : Path) : (Plan.isFile path).Only IsInquiry := by
    have asked : (Plan.request (.kind path)).Only IsInquiry := .request .kind
    exact asked.bind fun _ => .done _
  have canonical (path : Path) : (Plan.request (.canonical path)).Only IsInquiry :=
    .request .canonical
  have folders : (Plan.request .searchPath).Only IsInquiry := .request .searchPath
  rw [Harness.findTool]
  split
  · exact Attempt.only_throw _
  · dsimp only
    split
    · refine Attempt.only_bind (Attempt.only_lift (found _)) fun _ => ?_
      split
      · exact Attempt.only_throw _
      · exact Attempt.only_of (canonical _)
    · refine Attempt.only_bind (Attempt.only_lift folders) fun _ => ?_
      refine Attempt.only_bind (Attempt.only_lift (only_search _ _)) fun r => ?_
      cases r with
      | none => exact Attempt.only_throw _
      | some path => exact Attempt.only_pure _

theorem only_resolve (a : Arguments) : (Harness.resolve a).outcome.Only IsInquiry := by
  refine Attempt.only_bind (only_findTool _) fun _ => ?_
  split
  · exact Attempt.only_throw _
  · exact Attempt.only_throw _
  · exact Attempt.only_pure _

/-- Until the log is opened, the machine is only asked what is there. -/
theorem only_choose (a : Arguments) : (choose a).outcome.Only IsInquiry :=
  Attempt.only_bind (only_discover a) fun _ =>
    Attempt.only_bind (only_resolve a) fun _ => Attempt.only_pure _

/-! ## The run -/

/-- A suite is to begin: its scenarios were found, what they share was resolved, and the log was
opened. -/
structure Begun (env : Environment) (a : Arguments) (entries : List Entry) (c : Trial.Setting)
    (start : Trace) : Prop where
  chosen : ∃ past, (choose a).outcome.play env [] = (.ok (entries, c.harness), past) ∧
    env (past ++ [⟨.guard, ()⟩]) (.openLog a.diagnosticLog (logMode a)) = .ok c.log.file ∧
    start = past ++ [⟨.guard, ()⟩, ⟨.openLog a.diagnosticLog (logMode a), .ok c.log.file⟩]
  path : c.log.path = a.diagnosticLog

variable {words : List String} {env : Environment} {a : Arguments} {entries : List Entry}
  {c : Trial.Setting} {start : Trace}

/-- What is told at last: the summary, or something of it that is not taken. -/
structure Concluded (texts : List String) (told : Bool) (more : Trace) : Prop where
  progress : ∀ x ∈ more, Suite.IsProgress x.request
  whole : told = true → marks more = texts ∧ ∀ x ∈ more, isLost x = false
  lost : told = false → ∃ x ∈ more, isLost x = true

theorem always_reportAll (texts : List String) (past : Trace) :
    (reportAll texts).Always (replying env) past
      (fun _ past' => ∃ more, past' = past ++ more ∧ Concluded texts true more)
      fun _ past' => ∃ more, past' = past ++ more ∧ Concluded texts false more := by
  induction texts generalizing past with
  | nil =>
    refine Attempt.always_pure.2 ⟨[], (List.append_nil past).symm, ?_⟩
    have none {P : Exchange → Prop} : ∀ x ∈ ([] : Trace), P x := fun _ hm => nomatch hm
    exact ⟨none, fun _ => ⟨rfl, none⟩, fun h => nomatch h⟩
  | cons text rest ih =>
    refine Attempt.always_bind.2 ((always_report _ text past).mono ?_ ?_)
    · rintro u past' rfl
      refine (ih _).mono ?_ ?_
      · rintro u past' ⟨more, rfl, told⟩
        refine ⟨⟨.report text, .ok ()⟩ :: more, List.append_assoc .., ?_, fun _ => ⟨?_, ?_⟩, ?_⟩
        · exact List.forall_mem_cons.2 ⟨trivial, told.progress⟩
        · exact congrArg (text :: ·) (told.whole rfl).1
        · exact List.forall_mem_cons.2 ⟨rfl, (told.whole rfl).2⟩
        · exact fun h => nomatch h
      · rintro r past' ⟨more, rfl, told⟩
        refine ⟨⟨.report text, .ok ()⟩ :: more, List.append_assoc .., ?_, (fun h => nomatch h), ?_⟩
        · exact List.forall_mem_cons.2 ⟨trivial, told.progress⟩
        · obtain ⟨x, hm, lost⟩ := told.lost rfl
          exact fun _ => ⟨x, List.mem_cons_of_mem _ hm, lost⟩
    · rintro r past' ⟨cause, rfl⟩
      refine ⟨_, rfl, List.forall_mem_singleton.2 trivial, (fun h => nomatch h), fun _ => ?_⟩
      exact ⟨_, List.mem_singleton_self _, rfl⟩

/-- The summary is told whole, or something of it is lost. -/
theorem always_conclude (log : Path) (tally : Suite.Tally) (past : Trace) :
    (conclude log tally).Always (replying env) past
      (fun _ past' => ∃ more, past' = past ++ more ∧ Concluded (summary log tally) true more)
      fun _ past' => ∃ more, past' = past ++ more ∧ Concluded (summary log tally) false more := by
  refine Attempt.always_bind.2 ((always_reportAll _ past).mono ?_ fun _ _ => id)
  rintro u past' ⟨more, rfl, told⟩
  have progress (reply : Except IoError Unit) :
      ∀ x ∈ more ++ [⟨.flush, reply⟩], Suite.IsProgress x.request :=
    List.forall_mem_append.2 ⟨told.progress, List.forall_mem_singleton.2 trivial⟩
  refine (always_flush _ _).mono ?_ ?_
  · rintro u past' rfl
    refine ⟨_, List.append_assoc .., progress _, fun _ => ⟨?_, ?_⟩, fun h => nomatch h⟩
    · rw [marks_append, (told.whole rfl).1]
      exact List.append_nil _
    · exact List.forall_mem_append.2 ⟨(told.whole rfl).2, List.forall_mem_singleton.2 rfl⟩
  · rintro r past' ⟨cause, rfl⟩
    refine ⟨_, List.append_assoc .., progress _, (fun h => nomatch h), fun _ => ?_⟩
    exact ⟨_, List.mem_append_right _ (List.mem_singleton_self _), rfl⟩

/-- How a run of the program goes: what it comes to and what happens in it. -/
inductive Goes (env : Environment) (a : Arguments) : Except Refusal Suite.Tally → Trace → Prop
  /-- There are no scenarios to be found, or what they share cannot be resolved. -/
  | unchosen {r : Refusal} {past : Trace} :
    (choose a).outcome.play env [] = (.error r, past) → Goes env a (.error r) past
  /-- The log cannot be opened. -/
  | unopened {entries : List Entry} {harness : Harness} {past : Trace} {cause : IoError} :
    (choose a).outcome.play env [] = (.ok (entries, harness), past) →
      env (past ++ [⟨.guard, ()⟩]) (.openLog a.diagnosticLog (logMode a)) = .error cause →
      Goes env a (.error (.noLog a.diagnosticLog cause))
        (past ++ [⟨.guard, ()⟩, ⟨.openLog a.diagnosticLog (logMode a), .error cause⟩])
  /-- The suite is broken off. -/
  | halted {entries : List Entry} {c : Trial.Setting} {start own : Trace} {r : Refusal} :
    Begun env a entries c start →
      (Suite.run c entries).outcome.play (env.after start) [] = (.error r, own) →
      Goes env a (.error r) (start ++ own)
  /-- The summary is not taken. -/
  | untold {entries : List Entry} {c : Trial.Setting} {start own more : Trace}
    {tally : Suite.Tally} {r : Refusal} :
    Begun env a entries c start →
      (Suite.run c entries).outcome.play (env.after start) [] = (.ok tally, own) →
      Concluded (summary a.diagnosticLog tally) false more →
      Goes env a (.error r) (start ++ own ++ more)
  /-- All is done. -/
  | finished {entries : List Entry} {c : Trial.Setting} {start own more : Trace}
    {tally : Suite.Tally} :
    Begun env a entries c start →
      (Suite.run c entries).outcome.play (env.after start) [] = (.ok tally, own) →
      Concluded (summary a.diagnosticLog tally) true more →
      Goes env a (.ok tally) (start ++ own ++ more)

/-- How a run can go. -/
theorem goes_runFor (env : Environment) (a : Arguments) :
    (runFor a).Always (replying env) [] (fun tally past' => Goes env a (.ok tally) past')
      fun r past' => Goes env a (.error r) past' := by
  -- each step of `runFor_eq` that fails is the end of the run
  rw [runFor_eq]
  refine Attempt.always_bind.2 (Plan.always_replying.2 ?_)
  generalize chosen : (choose a).outcome.play env [] = reached
  obtain ⟨r, past⟩ := reached
  cases r with
  | error r => exact .unchosen chosen
  | ok found =>
  obtain ⟨entries, harness⟩ := found
  refine Attempt.always_bind.2 (Attempt.always_lift.2 (Plan.always_request.2 ?_))
  rintro u past' ⟨-, rfl⟩
  refine Attempt.always_bind.2 (Attempt.always_bind.2 (Attempt.always_of.2
    (Plan.always_request.2 ?_)))
  rintro reply past' ⟨opened, rfl⟩
  rw [List.append_assoc]
  cases reply with
  | error cause => exact .unopened chosen opened.symm
  | ok file =>
  refine Attempt.always_pure.2 (Attempt.always_bind.2 (Plan.always_replying.2 ?_))
  have begun : Begun env a entries ⟨harness, ⟨a.diagnosticLog, file⟩⟩ _ :=
    ⟨⟨past, chosen, opened.symm, rfl⟩, rfl⟩
  rw [Plan.play_after]
  generalize played : (Suite.run _ entries).outcome.play _ [] = reached
  obtain ⟨r, own⟩ := reached
  cases r with
  | error r => exact .halted begun played
  | ok tally =>
  refine Attempt.always_bind.2 ((always_conclude _ tally _).mono ?_ ?_)
  · rintro u past' ⟨more, rfl, told⟩
    exact Attempt.always_pure.2 (.finished begun played told)
  · rintro r past' ⟨more, rfl, told⟩
    exact .untold begun played told

/-! ## The whole program -/

/-- What the program makes of the result of a run. -/
def outcomeOf : Except Refusal Suite.Tally → Outcome
  | .ok tally => .finished tally
  | .error r => .refused r

/-- A command line asks for no run, or the run goes in one of the ways there are. -/
theorem play_run (words : List String) (env : Environment) :
    (∃ e, Arguments.ofWords words = .error e ∧ (run words).play env [] = (.usage e, [])) ∨
      ∃ a r trace, Arguments.ofWords words = .ok a ∧ Goes env a r trace ∧
        (run words).play env [] = (outcomeOf r, trace) := by
  rw [run]
  cases asked : Arguments.ofWords words with
  | error e => exact .inl ⟨e, rfl, rfl⟩
  | ok a =>
    have goes := Plan.always_replying.1 (goes_runFor env a)
    dsimp only
    rw [Plan.play_bind]
    generalize (runFor a).outcome.play env [] = reached at goes ⊢
    obtain ⟨r, trace⟩ := reached
    cases r with
    | ok tally => exact .inr ⟨a, .ok tally, trace, rfl, goes, rfl⟩
    | error r => exact .inr ⟨a, .error r, trace, rfl, goes, rfl⟩

/-- The machine is only asked what is there before the log is opened. -/
theorem inquiries_choose {r : Except Refusal (List Entry × Harness)} {past : Trace}
    (h : (choose a).outcome.play env [] = (r, past)) : ∀ x ∈ past, IsInquiry x.request := by
  have asked : (choose a).outcome.Adds env _ := .of_only (only_choose a)
  have all := Plan.always_replying.1 (asked [])
  rw [h] at all
  obtain ⟨more, rfl, all⟩ := all
  exact all

/-- Whether a request is made before the suite begins or after it is over. -/
inductive IsOutside (a : Arguments) : Request → Prop
  | inquiry {r : Request} : IsInquiry r → IsOutside a r
  | guard : IsOutside a .guard
  | openLog : IsOutside a (.openLog a.diagnosticLog (logMode a))
  | progress {r : Request} : Suite.IsProgress r → IsOutside a r

theorem IsOutside.opening (reply : Except IoError Handle) :
    ∀ x ∈ ([⟨.guard, ()⟩, ⟨.openLog a.diagnosticLog (logMode a), reply⟩] : Trace),
      IsOutside a x.request :=
  List.forall_mem_cons.2 ⟨.guard, List.forall_mem_singleton.2 .openLog⟩

theorem Begun.outside (h : Begun env a entries c start) : ∀ x ∈ start, IsOutside a x.request := by
  obtain ⟨past, chosen, -, rfl⟩ := h.chosen
  have asked : ∀ x ∈ past, IsOutside a x.request :=
    fun x hm => .inquiry (inquiries_choose chosen x hm)
  exact List.forall_mem_append.2 ⟨asked, .opening _⟩

/-- What else is asked is asked by the suite. -/
theorem Goes.mem_suite {r : Except Refusal Suite.Tally} {trace : Trace} (h : Goes env a r trace)
    {x : Exchange} (hm : x ∈ trace) (inside : ¬ IsOutside a x.request) :
    ∃ entries c start, Begun env a entries c start ∧
      x ∈ ((Suite.run c entries).outcome.play (env.after start) []).2 := by
  have of_suite {entries : List Entry} {c : Trial.Setting} {start own : Trace}
      {r : Except Refusal Suite.Tally} (begun : Begun env a entries c start)
      (played : (Suite.run c entries).outcome.play (env.after start) [] = (r, own))
      (hm : x ∈ start ++ own) : ∃ entries c start, Begun env a entries c start ∧
        x ∈ ((Suite.run c entries).outcome.play (env.after start) []).2 := by
    rcases List.mem_append.1 hm with early | late
    · exact absurd (begun.outside x early) inside
    · exact ⟨entries, c, start, begun, played ▸ late⟩
  have not_told {texts : List String} {told : Bool} {more : Trace} (h : Concluded texts told more) :
      x ∉ more := fun hm => inside (.progress (h.progress x hm))
  cases h with
  | unchosen chosen => exact absurd (.inquiry (inquiries_choose chosen x hm)) inside
  | unopened chosen opened =>
    rcases List.mem_append.1 hm with asked | opening
    · exact absurd (.inquiry (inquiries_choose chosen x asked)) inside
    · exact absurd (IsOutside.opening _ x opening) inside
  | halted begun played => exact of_suite begun played hm
  | untold begun played concluded | finished begun played concluded =>
    exact of_suite begun played ((List.mem_append.1 hm).resolve_right (not_told concluded))

theorem IsInquiry.silent {more : Trace} (h : ∀ x ∈ more, IsInquiry x.request) : Silent more where
  marks := by
    refine List.flatMap_eq_nil_iff.2 fun x hm => ?_
    obtain ⟨r, reply⟩ := x
    cases h _ hm <;> rfl
  taken x hm := by
    obtain ⟨r, reply⟩ := x
    cases h _ hm <;> rfl

/-- Nothing is told before the suite begins. -/
theorem Begun.silent (h : Begun env a entries c start) : Silent start := by
  obtain ⟨past, chosen, -, rfl⟩ := h.chosen
  refine (IsInquiry.silent (inquiries_choose chosen)).append ⟨rfl, ?_⟩
  simp [isLost]

/-- There is only one way for a suite to begin. -/
theorem Begun.unique {entries' : List Entry} {c' : Trial.Setting} {start' : Trace}
    (h : Begun env a entries c start) (h' : Begun env a entries' c' start') :
    entries' = entries ∧ c' = c ∧ start' = start := by
  obtain ⟨harness, log, file⟩ := c
  obtain ⟨harness', log', file'⟩ := c'
  obtain ⟨⟨past, chosen, opened, rfl⟩, path⟩ := h
  obtain ⟨⟨past', chosen', opened', rfl⟩, path'⟩ := h'
  have same := chosen.symm.trans chosen'
  simp only [Prod.mk.injEq, Except.ok.injEq] at same
  obtain ⟨⟨rfl, rfl⟩, rfl⟩ := same
  have opening := opened.symm.trans opened'
  simp only [Except.ok.injEq] at opening path path'
  subst opening path path'
  exact ⟨rfl, rfl, rfl⟩

/-- A run that cannot begin asks nothing after that. -/
theorem Goes.unbegun {r : Except Refusal Suite.Tally} {trace past : Trace} {refusal : Refusal}
    (h : Goes env a r trace) (chosen : (choose a).outcome.play env [] = (.error refusal, past)) :
    past = trace := by
  have not_begun {entries : List Entry} {c : Trial.Setting} {start : Trace} :
      ¬ Begun env a entries c start := by
    intro begun
    obtain ⟨past', chosen', -⟩ := begun.chosen
    cases chosen.symm.trans chosen'
  cases h with
  | unchosen chosen' => exact congrArg Prod.snd (chosen.symm.trans chosen')
  | unopened chosen' => cases chosen.symm.trans chosen'
  | halted begun | untold begun | finished begun => exact absurd begun not_begun

end PatchTrial.Program
