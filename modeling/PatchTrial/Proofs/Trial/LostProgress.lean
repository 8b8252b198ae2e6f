import PatchTrial.Proofs.Plan.Adds
import PatchTrial.Proofs.Trial.Requests
import PatchTrial.Proofs.Trial.Stages

/-!
A trial whose record of progress does not take something. That is its failure, so nothing is left to
do but to stop the target if there is one.

What is proved:
  1. `StageBroken.settles`, `Handled.settles`: what follows in each stage on something that was not
     taken.
  2. `Course.settles`: in a trial no program is started then but to stop the target.
-/
namespace PatchTrial.Trial

variable {c : Setting} {s : Scenario} {v : Validator}

/-! ## Actions -/

/-- Whether an action tells that the record of progress did not take something. -/
def Action.isLost : Action → Bool
  | .reported _ (.error _) => true
  | .flushed (.error _) => true
  | _ => false

/-- Whether an action starts no program but a command that stops a target. -/
def Ceases (c : Setting) : Action → Prop
  | .ran argv out err _ => out = none ∧ err = none ∧
    ∃ group signal, argv = killCommand c.harness.escalateWith group signal
  | .launched _ _ => False
  | _ => True

/-- Once something was not taken, no program is started but to stop a target. -/
def Settles (c : Setting) (acts : List Action) : Prop :=
  acts.Pairwise fun a later => a.isLost = true → Ceases c later

theorem Settles.of_all {acts : List Action} (h : ∀ a ∈ acts, Ceases c a) : Settles c acts :=
  List.pairwise_of_forall_mem_list fun _ _ later hm _ => h later hm

/-- What is taken matters nothing to what follows it. -/
theorem Settles.after {xs ys : List Action} (taken : ∀ a ∈ xs, a.isLost = false)
    (h : Settles c ys) : Settles c (xs ++ ys) := by
  have heeds : ∀ a ∈ xs, ∀ later, a.isLost = true → Ceases c later := by
    intro a ha later lost
    rw [taken a ha] at lost
    cases lost
  exact List.pairwise_append.2 ⟨List.pairwise_of_forall_mem_list fun a ha b _ => heeds a ha b, h,
    fun a ha b _ => heeds a ha b⟩

theorem Action.IsProgress.ceases {a : Action} (h : a.IsProgress) : Ceases c a := by
  cases a <;> first | exact h.elim | trivial

/-! ## Stages -/

theorem Stopping.ceases {pid : Pid} {a : Action} (h : Stopping c pid a) : Ceases c a := by
  cases h with
  | killed => exact ⟨rfl, rfl, _, _, rfl⟩
  | _ => trivial

theorem Closing.ceases {pid : Pid} {acts : List Action} (h : Closing c pid acts) :
    ∀ a ∈ acts, Ceases c a := by
  obtain ⟨xs, tail, rfl, stopping, ending⟩ := h
  have given : ∀ a ∈ tail, Ceases c a := by
    rcases ending with ⟨-, rfl | rfl⟩ | rfl <;> simp [Ceases]
  intro a ha
  rcases List.mem_append.1 ha with ha | ha
  · exact (stopping a ha).ceases
  · exact given a ha

/-- A stage that goes on had its progress taken. -/
theorem StageDone.taken {argv : List String} {text : String} {acts : List Action}
    (h : StageDone argv text acts) : ∀ a ∈ acts, a.isLost = false := by
  obtain ⟨out, err, status, -, rfl⟩ := h
  simp [shown, Action.isLost]

/-- A stage that fails has run the tool before, if it did. -/
theorem StageBroken.settles {argv : List String} {acts rest : List Action}
    (h : StageBroken argv acts) (hrest : ∀ a ∈ rest, Ceases c a) : Settles c (acts ++ rest) := by
  rcases h with rfl | ⟨out, err, how, more, rfl, progress⟩
  · exact .of_all hrest
  · have ran : ∀ a ∈ [Action.ran argv (some out) (some err) how], a.isLost = false := by
      simp [Action.isLost]
    have ceases : ∀ a ∈ more ++ rest, Ceases c a := by
      intro a ha
      rcases List.mem_append.1 ha with ha | ha
      · exact (progress a ha : a.IsProgress).ceases
      · exact hrest a ha
    have settles : Settles c ([.ran argv (some out) (some err) how] ++ (more ++ rest)) :=
      .after ran (.of_all ceases)
    exact settles

theorem Handled.settles {pid : Pid} {r : Except Failure Unit} {acts rest : List Action}
    (h : Handled c s pid (Closing c pid) r acts) (hrest : ∀ a ∈ rest, Ceases c a) :
    Settles c (acts ++ rest) := by
  have ends {zs : List Action} (closing : Closing c pid zs) : ∀ a ∈ zs ++ rest, Ceases c a := by
    intro a ha
    rcases List.mem_append.1 ha with ha | ha
    · exact closing.ceases a ha
    · exact hrest a ha
  have rested (ms : Nat) : ∀ a ∈ [Action.rested ms], a.isLost = false := by simp [Action.isLost]
  cases h with
  | cut broken closing =>
    -- the text may be lost in the stage that is cut, and what follows it is the end of the target
    have applying := broken.settles (ends closing)
    have whole := Settles.after (rested s.settleMs) applying
    simpa using whole
  | @observed _ _ _ _ how done _ closing =>
    have asked : ∀ a ∈ [Action.rested s.observeMs, .polled pid how], a.isLost = false := by
      simp [Action.isLost]
    have observed := Settles.after asked (.of_all (ends closing))
    have whole := Settles.after (rested s.settleMs) (Settles.after done.taken observed)
    simpa using whole

theorem Judged.ceases {r : Except Failure Unit} {acts : List Action} (h : Judged s v r acts) :
    ∀ a ∈ acts, Ceases c a := by
  cases r with
  | ok u =>
    obtain ⟨how, rfl, -⟩ := h
    simp [Ceases]
  | error f => rcases h with rfl | ⟨how, rfl, -⟩ <;> simp [Ceases]

/-- In a trial, once something was not taken, no program is started but to stop the target. -/
theorem Course.settles {r : Except Failure Unit} {acts : List Action} (h : Course c s v r acts) :
    Settles c acts := by
  have none : ∀ a ∈ ([] : List Action), Ceases c a := fun _ hm => nomatch hm
  have launched (pid : Pid) :
      ∀ a ∈ [Action.launched (launchCommand c.harness s) (.ok pid)], a.isLost = false := by
    simp [Action.isLost]
  cases h with
  | ungenerated broken =>
    have making := broken.settles none
    rwa [List.append_nil] at making
  | unlaunched done starting =>
    refine Settles.after done.taken ?_
    rcases starting with rfl | ⟨e, rfl⟩
    · exact .nil
    · exact List.pairwise_singleton _ _
  | unfinished done handled =>
    have handling := handled.settles none
    rw [List.append_nil] at handling
    exact Settles.after done.taken (Settles.after (launched _) handling)
  | finished done handled judged =>
    exact Settles.after done.taken (Settles.after (launched _) (handled.settles judged.ceases))

/-! ## Exchanges -/

/-- Whether an exchange tells that the record of progress did not take something. -/
def isLost : Exchange → Bool
  | ⟨.report _, .error _⟩ => true
  | ⟨.flush, .error _⟩ => true
  | _ => false

/-- Whether a request starts no program but a command that stops a target. -/
def OnlyStops (c : Setting) (r : Request) : Prop :=
  ∀ argv, startOf? r = some argv →
    ∃ group signal, r = .run (killCommand c.harness.escalateWith group signal) none none

/-- Of two exchanges one after the other: if something was not taken in the first, the second starts
nothing but to stop a target. -/
def Heeds (c : Setting) (e later : Exchange) : Prop := isLost e = true → OnlyStops c later.request

theorem exists_lost_action {e : Exchange} (h : isLost e = true) :
    ∃ a, actionOf? s e.request e.reply = some a ∧ a.isLost = true := by
  obtain ⟨r, reply⟩ := e
  cases r with
  | report text =>
    cases reply with
    | ok u => cases h
    | error e => exact ⟨_, rfl, rfl⟩
  | flush =>
    cases reply with
    | ok u => cases h
    | error e => exact ⟨_, rfl, rfl⟩
  | _ => cases h

/-- What an action starts is what its request does. -/
theorem onlyStops_of_ceases {e : Exchange}
    (h : ∀ a, actionOf? s e.request e.reply = some a → Ceases c a) : OnlyStops c e.request := by
  obtain ⟨r, reply⟩ := e
  intro argv starts
  cases r with
  | run argv out err =>
    obtain ⟨rfl, rfl, group, signal, rfl⟩ := h _ rfl
    exact ⟨group, signal, rfl⟩
  | spawn argv out err => exact (h _ rfl).elim
  | _ => cases starts

/-- A trial heeds that something is not taken. -/
theorem run_heeds (c : Setting) (s : Scenario) (v : Validator) (env : Environment) :
    (run c s v).Adds env fun _ more => more.Pairwise (Heeds c) := by
  intro past
  refine Plan.always_replying.2 ⟨_, congrArg Prod.snd (Plan.play_after _ env past), ?_⟩
  have settles := ((emits_run (s := s) c v).play (env.after past)).settles
  refine (List.pairwise_filterMap.1 settles).imp ?_
  intro e later settled notTaken
  obtain ⟨a, acted, lost⟩ := exists_lost_action (s := s) notTaken
  exact onlyStops_of_ceases fun b acted' => settled a acted b acted' lost

end PatchTrial.Trial
