import PatchTrial.Proofs.Plan.Asks

/-!
What a plan adds to the trace. An environment that remembers what happened is, from some moment on,
an environment that remembers only what happens later; so a plan can be looked at from its own
beginning.

What is proved:
  1. `play_after`: a plan comes to the same and adds the same, whether what went before is in the
     trace or in the environment.
  2. `Plan.Adds.bind`: what two plans add, they add one after another.
-/
namespace PatchTrial

/-- An environment from some moment on. -/
def Environment.after (env : Environment) (past : Trace) : Environment :=
  fun more r => env (past ++ more) r

namespace Plan
variable {α β : Type} {env : Environment}

theorem play_append (p : Plan α) (env : Environment) (past more : Trace) :
    p.play env (past ++ more) =
      ((p.play (env.after past) more).1, past ++ (p.play (env.after past) more).2) := by
  induction p generalizing more with
  | done a => rfl
  | ask r next ih =>
    have later := ih (env (past ++ more) r) (more ++ [⟨r, env (past ++ more) r⟩])
    rw [← List.append_assoc] at later
    exact later

/-- A plan from some moment on. -/
theorem play_after (p : Plan α) (env : Environment) (past : Trace) :
    p.play env past = ((p.play (env.after past) []).1, past ++ (p.play (env.after past) []).2) := by
  have same := p.play_append env past []
  rwa [List.append_nil] at same

/-- A plan only adds to the trace. -/
theorem Always.longer {past : Trace} {p : Plan α} {Q : α → Trace → Prop}
    (h : p.Always (replying env) past Q) :
    p.Always (replying env) past fun a past' => Q a past' ∧ past <+: past' :=
  always_replying.2 ⟨always_replying.1 h, p.prefix_play env past⟩

/-- Whenever a plan is played under an environment, what it comes to and what it adds to the trace
have a property. -/
def Adds (env : Environment) (p : Plan α) (Q : α → Trace → Prop) : Prop :=
  ∀ past, p.Always (replying env) past fun a past' => ∃ more, past' = past ++ more ∧ Q a more

namespace Adds
variable {p : Plan α} {Q Q' : α → Trace → Prop}

theorem mono (h : p.Adds env Q) (imp : ∀ a more, Q a more → Q' a more) : p.Adds env Q' := by
  intro past
  refine (h past).mono ?_
  rintro a past' ⟨more, rfl, hq⟩
  exact ⟨more, rfl, imp a more hq⟩

theorem done {a : α} (h : Q a []) : (Plan.done a).Adds env Q :=
  fun past => always_done.2 ⟨[], (List.append_nil past).symm, h⟩

theorem bind {f : α → Plan β} {R : β → Trace → Prop} (h : p.Adds env Q)
    (hf : ∀ a xs, Q a xs → (f a).Adds env fun b ys => R b (xs ++ ys)) : (p >>= f).Adds env R := by
  intro past
  refine always_bind.2 ((h past).mono ?_)
  rintro a past' ⟨xs, rfl, hq⟩
  refine (hf a xs hq (past ++ xs)).mono ?_
  rintro b past'' ⟨ys, rfl, hr⟩
  exact ⟨xs ++ ys, List.append_assoc past xs ys, hr⟩

/-- What a plan that makes only requests of some kind adds. -/
theorem of_only {P : Request → Prop} (h : p.Only P) :
    p.Adds env fun _ more => ∀ e ∈ more, P e.request := by
  intro past
  have asked : p.Asks (fun _ _ => True) past _ := h.asks fun _ _ _ => trivial
  exact always_replying.2 (asked.play env)

/-- A plan from its own beginning. -/
theorem play (h : p.Adds env Q) (past : Trace) :
    Q (p.play (env.after past) []).1 (p.play (env.after past) []).2 := by
  obtain ⟨more, same, hq⟩ := always_replying.1 (h past)
  rw [play_after] at same hq
  obtain rfl := List.append_cancel_left same
  exact hq

end Adds
end Plan

end PatchTrial
