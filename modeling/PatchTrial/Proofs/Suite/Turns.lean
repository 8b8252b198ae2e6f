import Mathlib.Data.List.Induction
import PatchTrial.Proofs.Plan.Adds
import PatchTrial.Suite.Run

/-!
A run of a suite, one scenario after another.

What is proved:
  1. `turn_run`: what one more scenario adds to a run (`Turn`).
  2. `prefix_run`: what a run has come to after some of its scenarios is where it goes on.
-/
namespace PatchTrial.Suite

/-- Whether a request concerns the record of progress. -/
def IsProgress : Request → Prop
  | .report _ | .flush => True
  | _ => False

/-- Whatever is written to the record of progress is taken. -/
structure TakesProgress (env : Environment) : Prop where
  report : ∀ past text, env past (.report text) = .ok ()
  flush : ∀ past, env past .flush = .ok ()

/-- What the announcement of a scenario adds to the trace. -/
def announcing (e : Entry) : Trace := [⟨.report (announcement e.label), .ok ()⟩, ⟨.flush, .ok ()⟩]

/-- How a run goes on with one more scenario, from what it came to and the trace it left. -/
inductive Turn (c : Trial.Setting) (env : Environment) (e : Entry) :
    Except Refusal Tally × Trace → Except Refusal Tally × Trace → Prop
  /-- The run has ended before. -/
  | ended {r : Refusal} {past : Trace} : Turn c env e (.error r, past) (.error r, past)
  /-- The announcement is not taken, and the run ends. -/
  | unannounced {tally : Tally} {past more : Trace} {cause : IoError} :
    ¬ TakesProgress env → (∀ x ∈ more, IsProgress x.request) →
      Turn c env e (.ok tally, past) (.error (.noProgress cause), past ++ more)
  /-- The result is not taken, and the run ends. -/
  | untold {tally : Tally} {past own : Trace} {pass : Bool} {cause : IoError} :
    ¬ TakesProgress env →
      (runEntry c e).play (env.after (past ++ announcing e)) [] = (pass, own) →
      Turn c env e (.ok tally, past) (.error (.noProgress cause),
        past ++ announcing e ++ own ++ [⟨.report (resultLine pass), .error cause⟩])
  /-- The scenario is announced, loaded and tried, and its result is told and counted. -/
  | told {tally : Tally} {past own : Trace} {pass : Bool} :
    (runEntry c e).play (env.after (past ++ announcing e)) [] = (pass, own) →
      Turn c env e (.ok tally, past) (.ok (tally.record pass),
        past ++ announcing e ++ own ++ [⟨.report (resultLine pass), .ok ()⟩])

variable (c : Trial.Setting) (env : Environment)

theorem runFrom_append (tally : Tally) (xs ys : List Entry) :
    runFrom c tally (xs ++ ys) = runFrom c tally xs >>= fun tally' => runFrom c tally' ys := by
  induction xs generalizing tally with
  | nil => simp only [List.nil_append, runFrom, pure_bind]
  | cons e rest ih => simp only [List.cons_append, runFrom, bind_assoc, ih]

theorem turn_one (tally : Tally) (e : Entry) (past : Trace) :
    (runFrom c tally [e]).Always (replying env) past
      (fun tally' past' => Turn c env e (.ok tally, past) (.ok tally', past'))
      fun r past' => Turn c env e (.ok tally, past) (.error r, past') := by
  refine Attempt.always_bind.2 (Attempt.always_of.2 (Plan.always_request.2 ?_))
  rintro reply past₁ ⟨replied, rfl⟩
  cases reply with
  | error cause =>
    refine .unannounced (fun takes => ?_) (by simp [IsProgress])
    rw [takes.report] at replied
    cases replied
  | ok u =>
  refine Attempt.always_bind.2 (Attempt.always_of.2 (Plan.always_request.2 ?_))
  rintro reply past₂ ⟨replied, rfl⟩
  rw [List.append_assoc]
  cases reply with
  | error cause =>
    refine .unannounced (fun takes => ?_) (by simp [IsProgress])
    rw [takes.flush] at replied
    cases replied
  | ok u =>
  refine Attempt.always_bind.2 (Attempt.always_lift.2 (Plan.always_replying.2 ?_))
  -- the scenario is run whatever comes of it; only the record of progress can end the suite
  rw [Plan.play_after]
  refine Attempt.always_bind.2 (Attempt.always_of.2 (Plan.always_request.2 ?_))
  rintro reply past₃ ⟨replied, rfl⟩
  cases reply with
  | error cause =>
    refine .untold (fun takes => ?_) rfl
    rw [takes.report] at replied
    cases replied
  | ok u => exact Attempt.always_pure.2 (.told rfl)

/-- What one more scenario adds to a run. -/
theorem turn_run (before : List Entry) (e : Entry) :
    Turn c env e ((run c before).outcome.play env []) ((run c (before ++ [e])).outcome.play env []) := by
  rw [run, run, runFrom_append, Attempt.outcome_bind, Plan.play_bind]
  generalize (runFrom c {} before).outcome.play env [] = reached
  obtain ⟨r, past⟩ := reached
  cases r with
  | error r => exact .ended
  | ok tally =>
    have one := Plan.always_replying.1 (turn_one c env tally e past)
    revert one
    generalize (runFrom c tally [e]).outcome.play env past = after
    obtain ⟨r, past'⟩ := after
    cases r <;> exact id

/-- What was asked and replied when a scenario begins that comes after some others. -/
def startOf (before : List Entry) (e : Entry) : Trace :=
  ((run c before).outcome.play env []).2 ++ announcing e

/-- A run goes on from what it has come to after some of its scenarios. -/
theorem prefix_run (before after : List Entry) :
    ((run c before).outcome.play env []).2 <+: ((run c (before ++ after)).outcome.play env []).2 := by
  rw [run, run, runFrom_append, Attempt.outcome_bind, Plan.play_bind]
  exact Plan.prefix_play _ env _

end PatchTrial.Suite
