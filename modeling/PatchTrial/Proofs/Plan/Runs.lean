import PatchTrial.Plan

/-!
Runs of plans. A machine is given by its states and by what it may do on a request: which reply it
may give and which state it may be in afterwards. A run of a plan on such a machine follows one
path of the plan's tree.

What is proved:
  1. `runs_bind`: a run of two plans one after another is a run of the first and then a run of the
     second.
  2. `always_bind` and the rules for the other ways to put plans and attempts together: what all
     runs of a plan have in common follows from what all runs of its parts do.
  3. `always_play`: what all runs have in common holds when an environment gives the replies,
     whatever it is.
  4. `play_bind`: so a plan of two parts can be played part by part.
  5. `always_replying`: the machine that replies as an environment does has one run, which is what the
     plan comes to.
-/
namespace PatchTrial

/-- What a machine may do in a state on a request: the reply and the state after it. -/
abbrev Answers (σ : Type) := σ → (r : Request) → r.Reply → σ → Prop

namespace Plan
variable {α β σ : Type} {S : Answers σ} {s : σ}

/-- The runs of a plan from a state: the value they end in and the state after them. -/
inductive Runs (S : Answers σ) : σ → Plan α → α → σ → Prop
  | done (s : σ) (a : α) : Runs S s (done a) a s
  | ask {s s' s'' : σ} {r : Request} {next : r.Reply → Plan α} {reply : r.Reply} {a : α} :
    S s r reply s' → Runs S s' (next reply) a s'' → Runs S s (ask r next) a s''

/-- All runs of a plan from a state end in a value and a state with a property. -/
def Always (S : Answers σ) (s : σ) (p : Plan α) (Q : α → σ → Prop) : Prop :=
  ∀ a s', Runs S s p a s' → Q a s'

theorem runs_done {a b : α} {s' : σ} : Runs S s (done a) b s' ↔ b = a ∧ s' = s := by
  constructor
  · intro h
    cases h
    exact ⟨rfl, rfl⟩
  · intro h
    obtain ⟨rfl, rfl⟩ := h
    exact .done s' b

theorem runs_ask {r : Request} {next : r.Reply → Plan α} {a : α} {s'' : σ} :
    Runs S s (ask r next) a s'' ↔ ∃ reply s', S s r reply s' ∧ Runs S s' (next reply) a s'' := by
  constructor
  · intro h
    cases h with
    | ask hs hr => exact ⟨_, _, hs, hr⟩
  · intro h
    obtain ⟨reply, s', hs, hr⟩ := h
    exact .ask hs hr

theorem runs_bind {p : Plan α} {f : α → Plan β} {b : β} {s'' : σ} :
    Runs S s (p >>= f) b s'' ↔ ∃ a s', Runs S s p a s' ∧ Runs S s' (f a) b s'' := by
  induction p generalizing s with
  | done a =>
    rw [done_bind]
    constructor
    · intro h
      exact ⟨a, s, .done s a, h⟩
    · intro h
      obtain ⟨a', s', h, hf⟩ := h
      obtain ⟨rfl, rfl⟩ := runs_done.1 h
      exact hf
  | ask r next ih =>
    rw [ask_bind, runs_ask]
    constructor
    · intro h
      obtain ⟨reply, s₁, hs, h⟩ := h
      obtain ⟨a, s', hp, hf⟩ := (ih reply).1 h
      exact ⟨a, s', .ask hs hp, hf⟩
    · intro h
      obtain ⟨a, s', hp, hf⟩ := h
      obtain ⟨reply, s₁, hs, hn⟩ := runs_ask.1 hp
      exact ⟨reply, s₁, hs, (ih reply).2 ⟨a, s', hn, hf⟩⟩

theorem runs_request {r : Request} {reply : r.Reply} {s' : σ} (h : S s r reply s') :
    Runs S s (request r) reply s' := .ask h (.done s' reply)

/-! ## Rules for what all runs have in common -/

theorem always_done {a : α} {Q : α → σ → Prop} : Always S s (done a) Q ↔ Q a s := by
  constructor
  · intro h
    exact h a s (.done s a)
  · intro h b s' hr
    obtain ⟨rfl, rfl⟩ := runs_done.1 hr
    exact h

theorem always_ask {r : Request} {next : r.Reply → Plan α} {Q : α → σ → Prop} :
    Always S s (ask r next) Q ↔ ∀ reply s', S s r reply s' → Always S s' (next reply) Q := by
  constructor
  · intro h reply s' hs a s'' hr
    exact h a s'' (.ask hs hr)
  · intro h a s'' hr
    obtain ⟨reply, s', hs, hn⟩ := runs_ask.1 hr
    exact h reply s' hs a s'' hn

theorem always_bind {p : Plan α} {f : α → Plan β} {Q : β → σ → Prop} :
    Always S s (p >>= f) Q ↔ Always S s p fun a s' => Always S s' (f a) Q := by
  constructor
  · intro h a s' hp b s'' hf
    exact h b s'' (runs_bind.2 ⟨a, s', hp, hf⟩)
  · intro h b s'' hr
    obtain ⟨a, s', hp, hf⟩ := runs_bind.1 hr
    exact h a s' hp b s'' hf

theorem always_request {r : Request} {Q : r.Reply → σ → Prop} :
    Always S s (request r) Q ↔ ∀ reply s', S s r reply s' → Q reply s' := by
  rw [request, always_ask]
  simp only [always_done]

theorem Always.mono {p : Plan α} {Q Q' : α → σ → Prop} (h : Always S s p Q)
    (imp : ∀ a s', Q a s' → Q' a s') : Always S s p Q' :=
  fun a s' hr => imp a s' (h a s' hr)

end Plan

/-! ## Attempts -/

namespace Attempt
variable {ε α β σ : Type} {S : Answers σ} {s : σ}

theorem outcome_bind (x : Attempt ε α) (f : α → Attempt ε β) :
    (x >>= f).outcome = x.outcome >>= fun
      | .ok a => (f a).outcome
      | .error e => .done (.error e) := by
  show (x.run >>= ExceptT.bindCont f) = x.run >>= _
  refine congrArg (x.run >>= ·) (funext fun r => ?_)
  cases r <;> rfl

theorem outcome_lift (p : Plan α) :
    (liftM p : Attempt ε α).outcome = p >>= fun a => .done (.ok a) := rfl

theorem outcome_of (f : IoError → ε) (p : Plan (Except IoError α)) :
    (of f p).outcome = p >>= fun
      | .ok a => .done (.ok a)
      | .error e => .done (.error (f e)) := by
  refine congrArg (p >>= ·) (funext fun r => ?_)
  cases r <;> rfl

theorem runs_bind {x : Attempt ε α} {f : α → Attempt ε β} {a : α} {r : Except ε β} {s' s'' : σ}
    (hx : x.outcome.Runs S s (.ok a) s') (hf : (f a).outcome.Runs S s' r s'') :
    (x >>= f).outcome.Runs S s r s'' := by
  rw [outcome_bind, Plan.runs_bind]
  exact ⟨_, s', hx, hf⟩

theorem runs_lift {p : Plan α} {a : α} {s' : σ} (h : p.Runs S s a s') :
    (liftM p : Attempt ε α).outcome.Runs S s (.ok a) s' := by
  rw [outcome_lift, Plan.runs_bind]
  exact ⟨a, s', h, .done s' _⟩

theorem runs_of {f : IoError → ε} {p : Plan (Except IoError α)} {a : α} {s' : σ}
    (h : p.Runs S s (.ok a) s') : (of f p).outcome.Runs S s (.ok a) s' := by
  rw [outcome_of, Plan.runs_bind]
  exact ⟨_, s', h, .done s' _⟩

/-- What is to hold of an outcome: `Q` of a result, `E` of a failure. -/
def Ends (Q : α → σ → Prop) (E : ε → σ → Prop) : Except ε α → σ → Prop
  | .ok a, s => Q a s
  | .error e, s => E e s

/-- All runs of an attempt end in a result with a property or in a failure with another. -/
def Always (S : Answers σ) (s : σ) (x : Attempt ε α) (Q : α → σ → Prop) (E : ε → σ → Prop) : Prop :=
  x.outcome.Always S s (Ends Q E)

variable {Q : α → σ → Prop} {E : ε → σ → Prop}

theorem always_pure {a : α} : Always S s (pure a : Attempt ε α) Q E ↔ Q a s := Plan.always_done

theorem always_throw {e : ε} : Always S s (throw e : Attempt ε α) Q E ↔ E e s := Plan.always_done

theorem always_bind {x : Attempt ε α} {f : α → Attempt ε β} {Q : β → σ → Prop} :
    Always S s (x >>= f) Q E ↔ Always S s x (fun a s' => Always S s' (f a) Q E) E := by
  rw [Always, outcome_bind, Plan.always_bind]
  refine forall_congr' fun r => forall_congr' fun s' => imp_congr_right fun _ => ?_
  cases r with
  | ok a => exact Iff.rfl
  | error e => exact Plan.always_done

theorem always_lift {p : Plan α} :
    Always S s (liftM p : Attempt ε α) Q E ↔ p.Always S s Q := by
  rw [Always, outcome_lift, Plan.always_bind]
  simp only [Plan.always_done, Ends]

theorem always_of {f : IoError → ε} {p : Plan (Except IoError α)} :
    Always S s (of f p) Q E ↔ p.Always S s (Ends Q fun e => E (f e)) := by
  rw [Always, outcome_of, Plan.always_bind]
  refine forall_congr' fun r => forall_congr' fun s' => imp_congr_right fun _ => ?_
  cases r <;> exact Plan.always_done

theorem Always.mono {x : Attempt ε α} {Q' : α → σ → Prop} {E' : ε → σ → Prop}
    (h : Always S s x Q E) (imp : ∀ a s', Q a s' → Q' a s') (imp' : ∀ e s', E e s' → E' e s') :
    Always S s x Q' E' := by
  refine Plan.Always.mono h fun r s' hr => ?_
  cases r with
  | ok a => exact imp a s' hr
  | error e => exact imp' e s' hr

end Attempt

/-! ## Environments -/

/-- A request and the reply it got. -/
structure Exchange where
  request : Request
  reply : request.Reply

/-- What was asked and replied so far. -/
abbrev Trace := List Exchange

/-- Whatever it is that replies: it may go by everything that happened before. -/
abbrev Environment := Trace → (r : Request) → r.Reply

/-- Lets an environment give the replies to a plan: the value the plan ends in, and the trace. -/
def Plan.play {α : Type} (env : Environment) : Trace → Plan α → α × Trace
  | past, .done a => (a, past)
  | past, .ask r next => play env (past ++ [⟨r, env past r⟩]) (next (env past r))

/-- Two plans one after another: the second finds what the first one asked in the trace. -/
theorem Plan.play_bind {α β : Type} (env : Environment) (past : Trace) (p : Plan α)
    (f : α → Plan β) :
    (p >>= f).play env past = (f (p.play env past).1).play env (p.play env past).2 := by
  induction p generalizing past with
  | done a => rfl
  | ask r next ih => exact ih (env past r) (past ++ [⟨r, env past r⟩])

/-- An attempt whose first part succeeds goes on with what that came to. -/
theorem Attempt.play_bind {ε α β : Type} {env : Environment} {past : Trace} {x : Attempt ε α}
    {a : α} (h : (x.outcome.play env past).1 = .ok a) (f : α → Attempt ε β) :
    (x >>= f).outcome.play env past = (f a).outcome.play env (x.outcome.play env past).2 := by
  rw [outcome_bind, Plan.play_bind, h]

theorem Attempt.play_of {ε α : Type} {env : Environment} {past : Trace} {f : IoError → ε}
    {p : Plan (Except IoError α)} {a : α} (h : (p.play env past).1 = .ok a) :
    ((Attempt.of f p).outcome.play env past).1 = .ok a := by
  rw [outcome_of, Plan.play_bind, h]
  rfl

theorem Attempt.play_lift {ε α : Type} {env : Environment} {past : Trace} (p : Plan α) :
    (liftM p : Attempt ε α).outcome.play env past =
      (.ok (p.play env past).1, (p.play env past).2) := by
  rw [outcome_lift, Plan.play_bind]
  rfl

/-- What all runs have in common on a machine whose state can be read off the trace holds under every
environment. -/
theorem Plan.always_play {α σ : Type} {S : Answers σ} {view : Trace → σ}
    (follows : ∀ past r reply, S (view past) r reply (view (past ++ [⟨r, reply⟩]))) {p : Plan α}
    {past : Trace} {Q : α → σ → Prop} (h : p.Always S (view past) Q) (env : Environment) :
    Q (p.play env past).1 (view (p.play env past).2) := by
  induction p generalizing past with
  | done a => exact always_done.1 h
  | ask r next ih =>
    exact ih (env past r) (always_ask.1 h (env past r) _ (follows past r (env past r)))

/-- A machine that replies as an environment does and keeps the trace. -/
def replying (env : Environment) : Answers Trace := fun past r reply past' =>
  reply = env past r ∧ past' = past ++ [⟨r, reply⟩]

/-- What holds of the one run on such a machine is what the plan comes to under the environment. -/
theorem Plan.always_replying {α : Type} {env : Environment} {past : Trace} {p : Plan α}
    {Q : α → Trace → Prop} :
    p.Always (replying env) past Q ↔ Q (p.play env past).1 (p.play env past).2 := by
  induction p generalizing past with
  | done a => exact always_done
  | ask r next ih =>
    rw [always_ask]
    constructor
    · intro h
      exact (ih (env past r)).1 (h _ _ ⟨rfl, rfl⟩)
    · intro h reply past' replied
      obtain ⟨rfl, rfl⟩ := replied
      exact (ih (env past r)).2 h

end PatchTrial
