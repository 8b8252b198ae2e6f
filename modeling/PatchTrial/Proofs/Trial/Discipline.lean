import PatchTrial.Proofs.Trial.Stages

/-!
The discipline of a trial. An action is permitted after some others if it comes at its place: the
patch is made first of all, the target is started once that is done and shown, the patch is applied
only while the target is held, and the log is judged only when all of that went well, the target was
found running after the patch, and is no longer held.

What is proved:
  1. `lawful_closing` and the lemmas beside it: each part of a trial does only what is permitted.
  2. `run_disciplined`: so does every trial under every environment; at its end no target is held,
     and it passes if and only if the log was judged and the verdict was a pass.
-/
namespace PatchTrial.Trial

/-! ## What came before -/

variable (c : Setting) (s : Scenario) (past : List Action)

/-- The patch was made: the tool that makes it succeeded. -/
def Made : Prop :=
  ∃ out err status, .ran (generateArgv c s) (some out) (some err) (.ok status) ∈ past ∧
    status.succeeded = true

/-- The patch was applied: the tool that applies it succeeded. -/
def Applied : Prop :=
  ∃ program out err status, .ran (applyArgv c s program) (some out) (some err) (.ok status) ∈ past ∧
    status.succeeded = true

/-- Progress was written, and made visible right after that. -/
def Shown (text : String) : Prop := ∃ before after, past = before ++ shown text ++ after

/-- A target that was started is held until it is released. -/
def Held (pid : Pid) : Prop := (∃ argv, .launched argv (.ok pid) ∈ past) ∧ .released pid ∉ past

/-- The target was still running when it was asked after the first time, which was right after the
patch was shown and the time of observation had passed. -/
def Survived : Prop :=
  ∃ pid before after, past = before ++ shown "patch|" ++
      [.rested s.observeMs, .polled pid (.ok none)] ++ after ∧
    .launched (launchCommand c.harness s) (.ok pid) ∈ before

/-- Which actions may come after some others. -/
inductive Permitted : Action → Prop
  /-- The patch is made before anything else is done. -/
  | generate {out err : Handle} {how : Except IoError ExitStatus} :
    past = [] → Permitted (.ran (generateArgv c s) (some out) (some err) how)
  /-- The target is started at most once, when the patch was made and this was shown. -/
  | launch {how : Except IoError Pid} :
    (∀ argv how, .launched argv how ∉ past) → Made c s past → Shown past "gen|" →
      Permitted (.launched (launchCommand c.harness s) how)
  /-- The patch is applied at most once, while a target is held. -/
  | apply {program : Pid} {out err : Handle} {how : Except IoError ExitStatus} :
    (∀ program out err how, .ran (applyArgv c s program) (some out) (some err) how ∉ past) →
      (∃ pid, Held past pid) → Permitted (.ran (applyArgv c s program) (some out) (some err) how)
  /-- Any other program is a kill command for the target that is held. -/
  | kill {pid : Pid} {signal : String} {how : Except IoError ExitStatus} :
    Held past pid → Permitted (.ran (killCommand c.harness.escalateWith pid signal) none none how)
  /-- A target is released when it was found to have ended, or was waited for. -/
  | release {pid : Pid} :
    (∃ argv, .launched argv (.ok pid) ∈ past) → (Ended pid past ∨ .awaited pid ∈ past) →
      Permitted (.released pid)
  /-- The log is judged at most once, when everything went well and the target that was started is
  no longer held. -/
  | judge {how : Except IoError Bytes} :
    (∀ how, .judged how ∉ past) → Made c s past → Shown past "gen|" → Applied c s past →
      Shown past "patch|" → Survived c s past → (∀ pid, ¬ Held past pid) → Permitted (.judged how)
  | poll {pid : Pid} {how : Except IoError (Option ExitStatus)} : Permitted (.polled pid how)
  | await {pid : Pid} : Permitted (.awaited pid)
  | report {text : String} {how : Except IoError Unit} : Permitted (.reported text how)
  | flush {how : Except IoError Unit} : Permitted (.flushed how)
  | rest {ms : Nat} : Permitted (.rested ms)

/-- What is promised of the actions of a trial and its result. -/
structure Disciplined (v : Validator) (acts : List Action) (result : Except Failure Unit) :
    Prop where
  /-- Every action is permitted by what came before it. -/
  permitted : ∀ before a after, acts = before ++ a :: after → Permitted c s before a
  /-- No target is held at the end. -/
  released : ∀ pid, ¬ Held acts pid
  /-- The trial passes if and only if the log was judged and passed. -/
  passed : result = .ok () ↔
    ∃ how, .judged how ∈ acts ∧ (v.judge s.capturedLog how).passed = true

/-! ## Actions one after another -/

/-- All actions of a list are permitted after some others and the earlier ones of the list. -/
def Lawful : List Action → List Action → Prop
  | _, [] => True
  | past, a :: rest => Permitted c s past a ∧ Lawful (past ++ [a]) rest

variable {c s past}

theorem lawful_append {xs ys : List Action} :
    Lawful c s past (xs ++ ys) ↔ Lawful c s past xs ∧ Lawful c s (past ++ xs) ys := by
  induction xs generalizing past with
  | nil =>
    rw [List.append_nil, List.nil_append]
    exact ⟨fun h => ⟨trivial, h⟩, And.right⟩
  | cons a rest ih =>
    rw [List.cons_append, Lawful, Lawful, ih, and_assoc, List.append_assoc, List.singleton_append]

theorem Lawful.permitted {acts : List Action} (h : Lawful c s past acts) :
    ∀ before a after, acts = before ++ a :: after → Permitted c s (past ++ before) a := by
  intro before a after e
  obtain rfl := e
  exact (lawful_append.1 h).2.1

/-- Actions that are permitted as long as something holds that they do not change. -/
theorem lawful_of_invariant {I : List Action → Prop} {xs : List Action} (start : I past)
    (step : ∀ a ∈ xs, ∀ past, I past → Permitted c s past a ∧ I (past ++ [a])) :
    Lawful c s past xs ∧ I (past ++ xs) := by
  induction xs generalizing past with
  | nil => rw [List.append_nil]; exact ⟨trivial, start⟩
  | cons a rest ih =>
    obtain ⟨now, next⟩ := step a List.mem_cons_self past start
    obtain ⟨later, last⟩ := ih next fun b hb => step b (List.mem_cons_of_mem a hb)
    rw [List.append_assoc] at last
    exact ⟨⟨now, later⟩, last⟩

theorem lawful_progress {xs : List Action} (h : ∀ a ∈ xs, a.IsProgress) : Lawful c s past xs := by
  refine (lawful_of_invariant (I := fun _ => True) trivial fun a ha past _ => ⟨?_, trivial⟩).1
  have progress := h a ha
  cases a with
  | reported text how => exact .report
  | flushed how => exact .flush
  | _ => exact progress.elim

theorem Held.append {pid : Pid} (h : Held past pid) (xs : List Action)
    (keeps : .released pid ∉ xs) : Held (past ++ xs) pid := by
  obtain ⟨⟨argv, hm⟩, hr⟩ := h
  refine ⟨⟨argv, List.mem_append_left xs hm⟩, fun hrel => ?_⟩
  rcases List.mem_append.1 hrel with hrel | hrel
  · exact hr hrel
  · exact keeps hrel

/-- Attempts to stop a target that is held. -/
theorem lawful_stopping {pid : Pid} {xs : List Action} (held : Held past pid)
    (h : AllStopping c pid xs) : Lawful c s past xs ∧ Held (past ++ xs) pid := by
  refine lawful_of_invariant (I := fun past => Held past pid) held fun a ha past held => ?_
  have keeps : .released pid ∉ [a] := fun hm => by
    have stopping := h a ha
    rw [← List.mem_singleton.1 hm] at stopping
    cases stopping
  refine ⟨?_, held.append _ keeps⟩
  cases h a ha with
  | polled => exact .poll
  | rested => exact .rest
  | killed => exact .kill held

/-- Giving up a target that is held. -/
theorem lawful_closing {pid : Pid} {zs : List Action} (held : Held past pid)
    (h : Closing c pid zs) : Lawful c s past zs ∧ .released pid ∈ zs := by
  obtain ⟨xs, tail, rfl, stopping, h⟩ := h
  obtain ⟨lawful, held'⟩ := lawful_stopping held stopping
  obtain ⟨argv, hl⟩ := held'.1
  rcases h with ⟨ended, rfl | rfl⟩ | rfl
  · have first : Permitted c s (past ++ xs) (.released pid) :=
      .release ⟨argv, hl⟩ (.inl (ended.right past))
    exact ⟨lawful_append.2 ⟨lawful, first, trivial⟩, by simp⟩
  · have first : Permitted c s (past ++ xs) (.released pid) :=
      .release ⟨argv, hl⟩ (.inl (ended.right past))
    have second : Permitted c s (past ++ xs ++ [.released pid]) (.released pid) :=
      .release ⟨argv, List.mem_append_left _ hl⟩ (.inl ((ended.right past).left _))
    exact ⟨lawful_append.2 ⟨lawful, first, second, trivial⟩, by simp⟩
  · have second : Permitted c s (past ++ xs ++ [.awaited pid]) (.released pid) :=
      .release ⟨argv, List.mem_append_left _ hl⟩ (.inr (by simp))
    exact ⟨lawful_append.2 ⟨lawful, .await, second, trivial⟩, by simp⟩

/-! ## What no part but its own does -/

/-- Whether an action is part of running the tool. -/
def Action.IsWork : Action → Prop
  | ran _ _ _ _ => True
  | reported _ _ => True
  | flushed _ => True
  | _ => False

/-- Whether an action neither starts the target nor judges its log. -/
def Action.IsInner : Action → Prop
  | launched _ _ => False
  | judged _ => False
  | _ => True

theorem Action.IsProgress.isWork {a : Action} (h : a.IsProgress) : a.IsWork := by
  cases a with
  | reported text how => trivial
  | flushed how => trivial
  | _ => exact h.elim

theorem Action.IsWork.isInner {a : Action} (h : a.IsWork) : a.IsInner := by
  cases a with
  | launched argv how => exact h.elim
  | judged how => exact h.elim
  | _ => trivial

theorem Stopping.isInner {pid : Pid} {a : Action} (h : Stopping c pid a) : a.IsInner := by
  cases h <;> trivial

theorem StageDone.isWork {argv : List String} {text : String} {acts : List Action}
    (h : StageDone argv text acts) : ∀ a ∈ acts, a.IsWork := by
  obtain ⟨out, err, status, -, rfl⟩ := h
  intro a ha
  rcases List.mem_cons.1 ha with rfl | ha
  · trivial
  · rcases List.mem_cons.1 ha with rfl | ha
    · trivial
    · rw [List.mem_singleton.1 ha]
      trivial

theorem StageBroken.isWork {argv : List String} {acts : List Action} (h : StageBroken argv acts) :
    ∀ a ∈ acts, a.IsWork := by
  rcases h with rfl | ⟨out, err, how, rest, rfl, progress⟩
  · intro a ha
    cases ha
  · intro a ha
    rcases List.mem_cons.1 ha with rfl | ha
    · trivial
    · exact (progress a ha).isWork

theorem Closing.isInner {pid : Pid} {zs : List Action} (h : Closing c pid zs) :
    ∀ a ∈ zs, a.IsInner := by
  obtain ⟨xs, tail, rfl, stopping, h⟩ := h
  have last : ∀ a ∈ tail, a.IsInner := by
    rcases h with ⟨-, rfl | rfl⟩ | rfl <;> simp [Action.IsInner]
  intro a ha
  rcases List.mem_append.1 ha with ha | ha
  · exact (stopping a ha).isInner
  · exact last a ha

theorem Handled.isInner {pid : Pid} {r : Except Failure Unit} {acts : List Action}
    (h : Handled c s pid (Closing c pid) r acts) : ∀ a ∈ acts, a.IsInner := by
  cases h with
  | cut broken closing =>
    intro a ha
    rcases List.mem_cons.1 ha with rfl | ha
    · trivial
    · rcases List.mem_append.1 ha with ha | ha
      · exact (broken.isWork a ha).isInner
      · exact closing.isInner a ha
  | observed finished alive closing =>
    intro a ha
    rcases List.mem_cons.1 ha with rfl | ha
    · trivial
    · rcases List.mem_append.1 ha with ha | ha
      · exact (finished.isWork a ha).isInner
      · rcases List.mem_cons.1 ha with rfl | ha
        · trivial
        · rcases List.mem_cons.1 ha with rfl | ha
          · trivial
          · exact closing.isInner a ha

/-! ## The parts of a trial -/

section
variable {argv : List String} {text : String} {acts : List Action}
  (first : ∀ out err how, Permitted c s past (.ran argv (some out) (some err) how))
include first

theorem lawful_stageDone (h : StageDone argv text acts) : Lawful c s past acts := by
  obtain ⟨out, err, status, -, rfl⟩ := h
  exact ⟨first out err _, .report, .flush, trivial⟩

theorem lawful_stageBroken (h : StageBroken argv acts) : Lawful c s past acts := by
  rcases h with rfl | ⟨out, err, how, rest, rfl, progress⟩
  · trivial
  · exact ⟨first out err how, lawful_progress progress⟩

end

/-- What is done from the start of the target on, when it is held and the patch was not applied
yet. -/
theorem lawful_handled {pid : Pid} {r : Except Failure Unit} {acts : List Action}
    (held : Held past pid)
    (unapplied : ∀ program out err how,
      .ran (applyArgv c s program) (some out) (some err) how ∉ past)
    (h : Handled c s pid (Closing c pid) r acts) :
    Lawful c s past acts ∧ .released pid ∈ acts := by
  have work : ∀ applying : List Action, (∀ a ∈ applying, a.IsWork) → .released pid ∉ applying :=
    fun applying h hm => h _ hm
  have rested : Held (past ++ [.rested s.settleMs]) pid := held.append _ (by simp)
  have apply : ∀ program out err how, Permitted c s (past ++ [.rested s.settleMs])
      (.ran (applyArgv c s program) (some out) (some err) how) := by
    intro program out err how
    refine .apply (fun program out err how hm => ?_) ⟨pid, rested⟩
    rcases List.mem_append.1 hm with hm | hm
    · exact unapplied program out err how hm
    · cases List.mem_singleton.1 hm
  -- up to its closing part nothing releases the target, so it is held all the way
  cases h with
  | cut broken closing =>
    have held' := rested.append _ (work _ broken.isWork)
    obtain ⟨lawful, released⟩ := lawful_closing held' closing
    refine ⟨⟨.rest, lawful_append.2 ⟨lawful_stageBroken (apply _) broken, lawful⟩⟩, ?_⟩
    exact List.mem_cons_of_mem _ (List.mem_append_right _ released)
  | @observed _ _ _ _ how finished alive closing =>
    have held' := (rested.append _ (work _ finished.isWork)).append [.rested s.observeMs] (by simp)
    have held'' := held'.append [.polled pid how] (by simp)
    obtain ⟨lawful, released⟩ := lawful_closing held'' closing
    refine ⟨⟨.rest, lawful_append.2 ⟨lawful_stageDone (apply _) finished, .rest, .poll, lawful⟩⟩, ?_⟩
    refine List.mem_cons_of_mem _ (List.mem_append_right _ ?_)
    exact List.mem_cons_of_mem _ (List.mem_cons_of_mem _ released)

/-- When all of that goes well, the patch was applied, this was shown, and the target survived. -/
theorem Handled.went_well {pid : Pid} {acts : List Action}
    (launched : .launched (launchCommand c.harness s) (.ok pid) ∈ past)
    (h : Handled c s pid (Closing c pid) (.ok ()) acts) :
    Applied c s (past ++ acts) ∧ Shown (past ++ acts) "patch|" ∧ Survived c s (past ++ acts) := by
  cases h with
  | @observed _ program _ zs how finished alive closing =>
    cases alive rfl
    obtain ⟨out, err, status, succeeded, rfl⟩ := finished
    let ran : Action := .ran (applyArgv c s program) (some out) (some err) (.ok status)
    let before := past ++ [.rested s.settleMs, ran]
    have split : past ++ .rested s.settleMs :: (ran :: shown "patch|" ++
        .rested s.observeMs :: .polled pid (.ok none) :: zs) =
        before ++ shown "patch|" ++ [.rested s.observeMs, .polled pid (.ok none)] ++ zs := by
      simp only [before, List.append_assoc, List.cons_append, List.nil_append]
    have applied : ran ∈ before := List.mem_append_right _ (List.mem_cons_of_mem _ List.mem_cons_self)
    rw [split]
    refine ⟨⟨program, out, err, status, ?_, succeeded⟩, ⟨before, _, List.append_assoc _ _ _⟩,
      ⟨pid, before, zs, rfl, List.mem_append_left _ launched⟩⟩
    exact List.mem_append_left _ (List.mem_append_left _ (List.mem_append_left _ applied))

/-! ## The whole trial -/

/-- Making the patch, when that goes well. -/
theorem StageDone.made {making : List Action} (h : StageDone (generateArgv c s) "gen|" making)
    (rest : List Action) : Made c s (making ++ rest) ∧ Shown (making ++ rest) "gen|" := by
  obtain ⟨out, err, status, succeeded, rfl⟩ := h
  exact ⟨⟨out, err, status, List.mem_cons_self, succeeded⟩, ⟨[_], rest, rfl⟩⟩

theorem lawful_making {making : List Action} (h : StageDone (generateArgv c s) "gen|" making) :
    Lawful c s [] making :=
  lawful_stageDone (fun _ _ _ => .generate rfl) h

/-- Starting the target after that. -/
theorem permitted_launch {making : List Action} (h : StageDone (generateArgv c s) "gen|" making)
    (how : Except IoError Pid) :
    Permitted c s making (.launched (launchCommand c.harness s) how) := by
  have made := h.made []
  rw [List.append_nil] at made
  exact .launch (fun _ _ hm => h.isWork _ hm) made.1 made.2

/-- A target that was just started is held, and nothing was applied to it. -/
theorem held_launched {making : List Action} (h : StageDone (generateArgv c s) "gen|" making)
    (pid : Pid) :
    Held (making ++ [.launched (launchCommand c.harness s) (.ok pid)]) pid ∧
      ∀ program out err how, .ran (applyArgv c s program) (some out) (some err) how ∉
        making ++ [.launched (launchCommand c.harness s) (.ok pid)] := by
  obtain ⟨out, err, status, -, rfl⟩ := h
  refine ⟨⟨⟨launchCommand c.harness s, by simp⟩, by simp [shown]⟩, ?_⟩
  intro program out' err' how
  simp [shown, generateArgv, applyArgv, generateCommand, applyCommand]

/-- After one start of a target and no other, that target is the only one. -/
theorem eq_of_launched {making rest : List Action} {argv : List String} {pid : Pid}
    (work : ∀ a ∈ making, a.IsWork) (later : ∀ argv how, .launched argv how ∉ rest) :
    ∀ argv' pid', .launched argv' (.ok pid') ∈ making ++ .launched argv (.ok pid) :: rest →
      pid' = pid := by
  intro argv' pid' hm
  rcases List.mem_append.1 hm with hm | hm
  · exact (work _ hm).elim
  · rcases List.mem_cons.1 hm with e | hm
    · cases e
      rfl
    · exact absurd hm (later argv' _)

/-- The only target is not held once it was released. -/
theorem not_held {acts : List Action} {pid : Pid}
    (only : ∀ argv pid', .launched argv (.ok pid') ∈ acts → pid' = pid)
    (released : .released pid ∈ acts) (pid' : Pid) : ¬ Held acts pid' := by
  intro h
  obtain ⟨⟨argv, hm⟩, hr⟩ := h
  rw [only argv pid' hm] at hr
  exact hr released

/-- Judging the log when all went well. -/
theorem permitted_judge {making handling : List Action} {pid : Pid}
    (made : StageDone (generateArgv c s) "gen|" making)
    (handled : Handled c s pid (Closing c pid) (.ok ()) handling) (how : Except IoError Bytes) :
    Permitted c s (making ++ .launched (launchCommand c.harness s) (.ok pid) :: handling)
      (.judged how) := by
  obtain ⟨held, unapplied⟩ := held_launched made pid
  have released := (lawful_handled held unapplied handled).2
  have well := handled.went_well (List.mem_append_right making (List.mem_singleton_self _))
  rw [List.append_assoc, List.singleton_append] at well
  obtain ⟨applied, patchShown, survived⟩ := well
  obtain ⟨patchMade, genShown⟩ := made.made (.launched (launchCommand c.harness s) (.ok pid) :: handling)
  refine .judge (fun how' hm => ?_) patchMade genShown applied patchShown survived ?_
  · rcases List.mem_append.1 hm with hm | hm
    · exact made.isWork _ hm
    · rcases List.mem_cons.1 hm with e | hm
      · cases e
      · exact handled.isInner _ hm
  · refine not_held (eq_of_launched made.isWork fun argv how hm => handled.isInner _ hm) ?_
    exact List.mem_append_right _ (List.mem_cons_of_mem _ released)

theorem Judged.eq {v : Validator} {r : Except Failure Unit} {judging : List Action}
    (h : Judged s v r judging) : judging = [] ∨ ∃ how, judging = [.judged how] := by
  cases r with
  | ok u =>
    obtain ⟨how, e, -⟩ := h
    exact .inr ⟨how, e⟩
  | error f =>
    rcases h with e | ⟨how, e, -⟩
    · exact .inl e
    · exact .inr ⟨how, e⟩

variable {v : Validator} {r : Except Failure Unit} {acts : List Action}

theorem Course.lawful (h : Course c s v r acts) : Lawful c s [] acts := by
  cases h with
  | ungenerated broken => exact lawful_stageBroken (fun _ _ _ => .generate rfl) broken
  | unlaunched made starting =>
    refine lawful_append.2 ⟨lawful_making made, ?_⟩
    rcases starting with rfl | ⟨e, rfl⟩
    · trivial
    · exact ⟨permitted_launch made _, trivial⟩
  | @unfinished _ pid _ _ made handled =>
    obtain ⟨held, unapplied⟩ := held_launched made pid
    exact lawful_append.2 ⟨lawful_making made, permitted_launch made _,
      (lawful_handled held unapplied handled).1⟩
  | @finished _ pid making handling judging made handled judged =>
    obtain ⟨held, unapplied⟩ := held_launched made pid
    refine lawful_append.2 ⟨lawful_making made, permitted_launch made _,
      lawful_append.2 ⟨(lawful_handled held unapplied handled).1, ?_⟩⟩
    rcases judged.eq with rfl | ⟨how, rfl⟩
    · trivial
    · have permitted := permitted_judge made handled how
      rw [← List.singleton_append, ← List.append_assoc] at permitted
      exact ⟨permitted, trivial⟩

theorem Course.not_held (h : Course c s v r acts) : ∀ pid, ¬ Held acts pid := by
  -- a target is held only after a launch, and the one launch is followed by the release
  cases h with
  | ungenerated broken =>
    intro pid h
    obtain ⟨⟨argv, hm⟩, -⟩ := h
    exact broken.isWork _ hm
  | unlaunched made starting =>
    intro pid h
    obtain ⟨⟨argv, hm⟩, -⟩ := h
    rcases List.mem_append.1 hm with hm | hm
    · exact made.isWork _ hm
    · rcases starting with rfl | ⟨e, rfl⟩
      · cases hm
      · cases List.mem_singleton.1 hm
  | @unfinished _ pid _ _ made handled =>
    obtain ⟨held, unapplied⟩ := held_launched made pid
    refine Trial.not_held (eq_of_launched made.isWork fun argv how hm => handled.isInner _ hm) ?_
    exact List.mem_append_right _
      (List.mem_cons_of_mem _ (lawful_handled held unapplied handled).2)
  | @finished _ pid _ _ _ made handled judged =>
    obtain ⟨held, unapplied⟩ := held_launched made pid
    refine Trial.not_held (eq_of_launched made.isWork fun argv how hm => ?_) ?_
    · rcases List.mem_append.1 hm with hm | hm
      · exact handled.isInner _ hm
      · rcases judged.eq with rfl | ⟨how', rfl⟩
        · cases hm
        · cases List.mem_singleton.1 hm
    · exact List.mem_append_right _ (List.mem_cons_of_mem _
        (List.mem_append_left _ (lawful_handled held unapplied handled).2))

/-- A failure of a trial whose log was not judged, or did not pass. -/
theorem not_passed {f : Failure}
    (h : ∀ how, .judged how ∈ acts → (v.judge s.capturedLog how).passed = false) :
    (.error f : Except Failure Unit) = .ok () ↔
      ∃ how, .judged how ∈ acts ∧ (v.judge s.capturedLog how).passed = true := by
  constructor
  · intro e
    cases e
  · intro h
    obtain ⟨how, hm, passed⟩ := h
    rw [h how hm] at passed
    cases passed

theorem Course.passed (h : Course c s v r acts) :
    r = .ok () ↔ ∃ how, .judged how ∈ acts ∧ (v.judge s.capturedLog how).passed = true := by
  cases h with
  | ungenerated broken => exact not_passed fun how hm => (broken.isWork _ hm).elim
  | unlaunched made starting =>
    refine not_passed fun how hm => ?_
    rcases List.mem_append.1 hm with hm | hm
    · exact (made.isWork _ hm).elim
    · rcases starting with rfl | ⟨e, rfl⟩
      · cases hm
      · cases List.mem_singleton.1 hm
  | unfinished made handled =>
    refine not_passed fun how hm => ?_
    rcases List.mem_append.1 hm with hm | hm
    · exact (made.isWork _ hm).elim
    · rcases List.mem_cons.1 hm with e | hm
      · cases e
      · exact (handled.isInner _ hm).elim
  | @finished r pid making handling judging made handled judged =>
    -- only the last part of a trial judges its log
    have last : ∀ how, .judged how ∈ making ++ .launched (launchCommand c.harness s) (.ok pid) ::
        (handling ++ judging) → .judged how ∈ judging := by
      intro how hm
      rcases List.mem_append.1 hm with hm | hm
      · exact (made.isWork _ hm).elim
      · rcases List.mem_cons.1 hm with e | hm
        · cases e
        · rcases List.mem_append.1 hm with hm | hm
          · exact (handled.isInner _ hm).elim
          · exact hm
    cases r with
    | ok u =>
      obtain ⟨how, rfl, passed⟩ := judged
      exact ⟨fun _ => ⟨how, by simp, passed⟩, fun _ => rfl⟩
    | error f =>
      refine not_passed fun how hm => ?_
      have hm := last how hm
      rcases judged with rfl | ⟨how', rfl, failed⟩
      · cases hm
      · cases List.mem_singleton.1 hm
        exact failed

theorem Course.disciplined (h : Course c s v r acts) : Disciplined c s v acts r where
  permitted := h.lawful.permitted
  released := h.not_held
  passed := h.passed

/-- Every trial keeps to its discipline, whatever the machine replies to its requests. -/
theorem run_disciplined (c : Setting) (s : Scenario) (v : Validator) (env : Environment) :
    Disciplined c s v (actions s ((run c s v).play env []).2) ((run c s v).play env []).1 :=
  ((emits_run c v).play env).disciplined

end PatchTrial.Trial
