import Mathlib.Data.List.Induction
import PatchTrial.Proofs.Plan.Runs

/-!
What a plan asks. Whether a request is permitted may depend on everything that was asked and replied
before it. A plan keeps to a rule if it asks only what is permitted, whatever the replies are.

What is proved:
  1. `Plan.asks_bind` and the rules for the other ways to put plans and attempts together.
  2. `Plan.Asks.of_within`: under every environment an exchange of a plan was permitted when it was
     made.
  3. `Plan.Asks.play_congr`: environments that reply alike to what is permitted are the same to the
     plan.
  4. `Plan.within_bind`: an exchange of two plans one after another is one of the first or one of
     the second.
  5. `Plan.Makes.of_asks`: what is so after every run of a plan is so after whatever it may make.
  6. `Plan.Makes.of_bind`: what two plans make one after another, each makes a part of.
  7. `Plan.reaches_bind`: what either of two plans may come to ask.
  8. `Plan.play_until`: environments that reply alike until something is asked reply alike to that.
-/
namespace PatchTrial

/-- What every item of some kind keeps when a list grows by it, a list of such items keeps. -/
theorem grown {α : Type} {P : List α → Prop} {ok : α → Prop} {xs : List α}
    (all : ∀ a ∈ xs, ok a) (nil : P []) (concat : ∀ xs a, ok a → P xs → P (xs ++ [a])) : P xs := by
  induction xs using List.reverseRecOn with
  | nil => exact nil
  | append_singleton xs a ih =>
    have last := all a (List.mem_append_right xs (List.mem_singleton_self a))
    exact concat xs a last (ih fun b hm => all b (List.mem_append_left [a] hm))

/-- What is not behind an item of a list is that item or stands before it. -/
theorem split_cons {α : Type} {xs ys before after : List α} {a b : α}
    (h : xs ++ a :: ys = before ++ b :: after) (hb : b ∉ ys) :
    (before = xs ∧ b = a ∧ after = ys) ∨
      ∃ between, xs = before ++ b :: between ∧ after = between ++ a :: ys := by
  rcases List.append_eq_append_iff.1 h with ⟨since, rfl, split⟩ | ⟨since, rfl, split⟩
  · cases since with
    | nil =>
      obtain ⟨rfl, rfl⟩ := List.cons.inj split
      exact .inl ⟨List.append_nil xs, rfl, rfl⟩
    | cons d since =>
      rw [(List.cons.inj split).2] at hb
      exact absurd (List.mem_append_right since List.mem_cons_self) hb
  · cases since with
    | nil =>
      obtain ⟨rfl, rfl⟩ := List.cons.inj split
      exact .inl ⟨(List.append_nil before).symm, rfl, rfl⟩
    | cons d since =>
      obtain ⟨rfl, rfl⟩ := List.cons.inj split
      exact .inr ⟨since, rfl, rfl⟩

/-- Which requests are permitted after which exchanges. -/
abbrev Permits := Trace → Request → Prop

namespace Plan
variable {α β : Type} {ok : Permits} {past : Trace}

/-- Whatever the replies are, a plan asks only what is permitted and ends in a value and a trace
with a property. -/
def Asks (ok : Permits) : Plan α → Trace → (α → Trace → Prop) → Prop
  | done a, past, Q => Q a past
  | ask r next, past, Q => ok past r ∧ ∀ reply, Asks ok (next reply) (past ++ [⟨r, reply⟩]) Q

/-- Every exchange of a trace was permitted when it was made. -/
def Kept (ok : Permits) (past : Trace) : Prop :=
  ∀ before e, before ++ [e] <+: past → ok before e.request

/-- A plan makes only requests of some kind. -/
def Only (P : Request → Prop) : Plan α → Prop
  | done _ => True
  | ask r next => P r ∧ ∀ reply, Only P (next reply)

/-- A plan may come to a value with some exchanges. -/
inductive Makes : Plan α → α → Trace → Prop
  | done (a : α) : Makes (done a) a []
  | ask {r : Request} {next : r.Reply → Plan α} {a : α} {more : Trace} (reply : r.Reply) :
    Makes (next reply) a more → Makes (ask r next) a (⟨r, reply⟩ :: more)

/-- After some exchanges a plan may ask for something next. -/
inductive Reaches : Plan α → Trace → Request → Prop
  | here {r : Request} {next : r.Reply → Plan α} : Reaches (ask r next) [] r
  | later {r r' : Request} {next : r.Reply → Plan α} {more : Trace} (reply : r.Reply) :
    Reaches (next reply) more r' → Reaches (ask r next) (⟨r, reply⟩ :: more) r'

/-! ## Rules -/

theorem asks_done {a : α} {Q : α → Trace → Prop} : (done a).Asks ok past Q ↔ Q a past := Iff.rfl

theorem asks_ask {r : Request} {next : r.Reply → Plan α} {Q : α → Trace → Prop} :
    (ask r next).Asks ok past Q ↔
      ok past r ∧ ∀ reply, (next reply).Asks ok (past ++ [⟨r, reply⟩]) Q := Iff.rfl

theorem asks_request {r : Request} {Q : r.Reply → Trace → Prop} :
    (request r).Asks ok past Q ↔ ok past r ∧ ∀ reply, Q reply (past ++ [⟨r, reply⟩]) := Iff.rfl

theorem asks_bind {p : Plan α} {f : α → Plan β} {Q : β → Trace → Prop} :
    (p >>= f).Asks ok past Q ↔ p.Asks ok past fun a past' => (f a).Asks ok past' Q := by
  induction p generalizing past with
  | done a => exact Iff.rfl
  | ask r next ih => exact and_congr_right fun _ => forall_congr' fun reply => ih reply

namespace Asks
variable {p : Plan α} {Q Q' : α → Trace → Prop}

theorem mono (h : p.Asks ok past Q) (imp : ∀ a past', Q a past' → Q' a past') :
    p.Asks ok past Q' := by
  induction p generalizing past with
  | done a => exact imp a past h
  | ask r next ih => exact ⟨h.1, fun reply => ih reply (h.2 reply)⟩

theorem weaken {ok' : Permits} (h : p.Asks ok past Q) (imp : ∀ past r, ok past r → ok' past r) :
    p.Asks ok' past Q := by
  induction p generalizing past with
  | done a => exact h
  | ask r next ih => exact ⟨imp past r h.1, fun reply => ih reply (h.2 reply)⟩

theorem play (h : p.Asks ok past Q) (env : Environment) :
    Q (p.play env past).1 (p.play env past).2 := by
  induction p generalizing past with
  | done a => exact h
  | ask r next ih => exact ih _ (h.2 _)

/-- A plan only adds to the trace. -/
theorem longer (h : p.Asks ok past Q) :
    p.Asks ok past fun a past' => Q a past' ∧ past <+: past' := by
  induction p generalizing past with
  | done a => exact ⟨h, List.prefix_rfl⟩
  | ask r next ih =>
    refine ⟨h.1, fun reply => mono (ih reply (h.2 reply)) fun a past' hq => ⟨hq.1, ?_⟩⟩
    exact (List.prefix_append past _).trans hq.2

/-- What is asked may also depend on that only what is permitted was asked before. -/
theorem kept (h : p.Asks ok past Q) (start : Kept ok past) :
    p.Asks (fun past r => Kept ok past ∧ ok past r) past Q := by
  induction p generalizing past with
  | done a => exact h
  | ask r next ih =>
    refine ⟨⟨start, h.1⟩, fun reply => ih reply (h.2 reply) fun before e within => ?_⟩
    rcases List.prefix_concat_iff.1 within with last | earlier
    · obtain ⟨rfl, one⟩ := List.append_inj' last rfl
      obtain rfl := (List.cons.inj one).1
      exact h.1
    · exact start before e earlier

/-- Environments that reply alike to what is permitted are the same to a plan. -/
theorem play_congr (h : p.Asks ok past Q) {env env' : Environment}
    (same : ∀ past r, ok past r → env past r = env' past r) :
    p.play env past = p.play env' past := by
  induction p generalizing past with
  | done a => rfl
  | ask r next ih =>
    rw [Plan.play, Plan.play, ← same past r h.1]
    exact ih _ (h.2 _)

end Asks

/-! ## What a plan may make -/

namespace Makes
variable {p : Plan α} {a : α} {more : Trace}

theorem bind {f : α → Plan β} {b : β} {more' : Trace} (h : p.Makes a more)
    (hf : (f a).Makes b more') : (p >>= f).Makes b (more ++ more') := by
  induction h with
  | done a => exact hf
  | ask reply _ ih => exact .ask reply (ih hf)

/-- What two plans make one after another is what the first makes and what the second makes then. -/
theorem of_bind {f : α → Plan β} {b : β} (h : (p >>= f).Makes b more) :
    ∃ a xs ys, more = xs ++ ys ∧ p.Makes a xs ∧ (f a).Makes b ys := by
  induction p generalizing more with
  | done a => exact ⟨a, [], more, rfl, .done a, h⟩
  | ask r next ih =>
    cases h with
    | ask reply later =>
      obtain ⟨a, xs, ys, rfl, first, second⟩ := ih reply later
      exact ⟨a, ⟨r, reply⟩ :: xs, ys, rfl, .ask reply first, second⟩

/-- A plan that has made its part leaves the rest to the plan after it. -/
theorem rest {f : α → Plan β} {b : β} {later : Trace} (h : p.Makes a more)
    (all : (p >>= f).Makes b (more ++ later)) : (f a).Makes b later := by
  induction h with
  | done a => exact all
  | ask reply _ ih =>
    cases all with
    | ask _ all => exact ih all

/-- What is so after every run of a plan is so after what it may make. -/
theorem of_asks {Q : α → Trace → Prop} (h : p.Makes a more) (asks : p.Asks ok past Q) :
    Q a (past ++ more) := by
  induction h generalizing past with
  | done a =>
    rw [List.append_nil]
    exact asks
  | @ask r next a more reply _ ih =>
    have later := ih (asks.2 reply)
    rw [List.append_assoc] at later
    exact later

end Makes

theorem makes_done {a b : α} {more : Trace} : (done a).Makes b more ↔ b = a ∧ more = [] := by
  constructor
  · rintro ⟨⟩
    exact ⟨rfl, rfl⟩
  · rintro ⟨rfl, rfl⟩
    exact .done b

theorem makes_ask {r : Request} {next : r.Reply → Plan α} {a : α} {more : Trace} :
    (ask r next).Makes a more ↔
      ∃ reply later, more = ⟨r, reply⟩ :: later ∧ (next reply).Makes a later := by
  constructor
  · rintro ⟨⟩
    exact ⟨_, _, rfl, ‹_›⟩
  · rintro ⟨reply, later, rfl, h⟩
    exact .ask reply h

/-- A plan may make what it makes under an environment. -/
theorem exists_makes (p : Plan α) (env : Environment) (past : Trace) :
    ∃ more, (p.play env past).2 = past ++ more ∧ p.Makes (p.play env past).1 more ∧
      ∀ e ∈ more, ∃ before, e.reply = env before e.request := by
  induction p generalizing past with
  | done a => exact ⟨[], (List.append_nil past).symm, .done a, List.forall_mem_nil _⟩
  | ask r next ih =>
    obtain ⟨more, same, makes, replied⟩ := ih (env past r) (past ++ [⟨r, env past r⟩])
    exact ⟨⟨r, env past r⟩ :: more, same.trans (List.append_assoc past _ more), .ask _ makes,
      List.forall_mem_cons.2 ⟨⟨past, rfl⟩, replied⟩⟩

/-! ## What a plan may come to ask -/

namespace Reaches
variable {p : Plan α} {f : α → Plan β} {r : Request} {more : Trace}

theorem bind (h : p.Reaches more r) : (p >>= f).Reaches more r := by
  induction h with
  | here => exact .here
  | later reply _ ih => exact .later reply ih

end Reaches

theorem Makes.reaches {p : Plan α} {f : α → Plan β} {a : α} {more later : Trace} {r : Request}
    (h : p.Makes a more) (hf : (f a).Reaches later r) : (p >>= f).Reaches (more ++ later) r := by
  induction h with
  | done a => exact hf
  | ask reply _ ih => exact .later reply (ih hf)

theorem not_reaches_done {a : α} {more : Trace} {r : Request} : ¬ (done a).Reaches more r := nofun

theorem reaches_ask {r r' : Request} {next : r.Reply → Plan α} {more : Trace} :
    (ask r next).Reaches more r' ↔ (more = [] ∧ r' = r) ∨
      ∃ reply later, more = ⟨r, reply⟩ :: later ∧ (next reply).Reaches later r' := by
  constructor
  · rintro (⟨⟩ | ⟨reply, later⟩)
    · exact .inl ⟨rfl, rfl⟩
    · exact .inr ⟨reply, _, rfl, later⟩
  · rintro (⟨rfl, rfl⟩ | ⟨reply, later, rfl, h⟩)
    · exact .here
    · exact .later reply h

/-- Of two plans one after another, the first or the second comes to ask something. -/
theorem reaches_bind {p : Plan α} {f : α → Plan β} {r : Request} {more : Trace} :
    (p >>= f).Reaches more r ↔ p.Reaches more r ∨
      ∃ a xs ys, more = xs ++ ys ∧ p.Makes a xs ∧ (f a).Reaches ys r := by
  constructor
  · intro h
    induction p generalizing more with
    | done a => exact .inr ⟨a, [], more, rfl, .done a, h⟩
    | ask r' next ih =>
      rcases reaches_ask.1 h with ⟨rfl, rfl⟩ | ⟨reply, later, rfl, behind⟩
      · exact .inl .here
      · rcases ih reply behind with first | ⟨a, xs, ys, rfl, makes, second⟩
        · exact .inl (.later reply first)
        · exact .inr ⟨a, ⟨r', reply⟩ :: xs, ys, rfl, .ask reply makes, second⟩
  · rintro (first | ⟨a, xs, ys, rfl, makes, second⟩)
    · exact first.bind
    · exact makes.reaches second

/-! ## Plans that make only requests of some kind -/

namespace Only
variable {P P' : Request → Prop} {p : Plan α}

theorem done (a : α) : (Plan.done a).Only P := trivial

theorem ask_iff {r : Request} {next : r.Reply → Plan α} :
    (ask r next).Only P ↔ P r ∧ ∀ reply, (next reply).Only P := Iff.rfl

theorem mono (h : p.Only P) (imp : ∀ r, P r → P' r) : p.Only P' := by
  induction p with
  | done a => trivial
  | ask r next ih => exact ⟨imp r h.1, fun reply => ih reply (h.2 reply)⟩

theorem request {r : Request} (h : P r) : (Plan.request r).Only P := ⟨h, fun _ => trivial⟩

theorem bind {f : α → Plan β} (h : p.Only P) (hf : ∀ a, (f a).Only P) : (p >>= f).Only P := by
  induction p with
  | done a => exact hf a
  | ask r next ih => exact ⟨h.1, fun reply => ih reply (h.2 reply)⟩

/-- Such requests are all that is added to the trace, as the plan makes them. -/
theorem asks_making (h : p.Only P)
    (permitted : ∀ more r, (∀ e ∈ more, P e.request) → P r → ok (past ++ more) r) :
    p.Asks ok past fun a past' =>
      ∃ more, past' = past ++ more ∧ (∀ e ∈ more, P e.request) ∧ p.Makes a more := by
  induction p generalizing past with
  | done a => exact ⟨[], (List.append_nil past).symm, (fun _ hm => nomatch hm), .done a⟩
  | ask r next ih =>
    have now := permitted [] r (fun _ hm => nomatch hm) h.1
    rw [List.append_nil] at now
    have all {reply : r.Reply} {more : Trace} (later : ∀ e ∈ more, P e.request) :
        ∀ e ∈ (⟨r, reply⟩ :: more : Trace), P e.request := by
      intro e hm
      rcases List.mem_cons.1 hm with rfl | hm
      · exact h.1
      · exact later e hm
    refine ⟨now, fun reply => (ih reply (h.2 reply) fun more r' later hr => ?_).mono ?_⟩
    · rw [List.append_assoc]
      exact permitted _ r' (all later) hr
    · rintro a past' ⟨more, rfl, later, makes⟩
      exact ⟨⟨r, reply⟩ :: more, List.append_assoc past _ more, all later, .ask reply makes⟩

theorem asks (h : p.Only P) (permitted : ∀ more r, P r → ok (past ++ more) r) :
    p.Asks ok past fun _ past' => ∃ more, past' = past ++ more ∧ ∀ e ∈ more, P e.request :=
  (h.asks_making fun more r _ => permitted more r).mono fun _ _ ⟨more, e, all, _⟩ => ⟨more, e, all⟩

theorem of_reaches (h : p.Only P) {r : Request} {more : Trace} (reaches : p.Reaches more r) :
    P r := by
  induction reaches with
  | here => exact h.1
  | later reply _ ih => exact ih (h.2 reply)

theorem of_makes (h : p.Only P) {a : α} {more : Trace} (makes : p.Makes a more) :
    ∀ e ∈ more, P e.request := by
  have asked : p.Asks (fun _ _ => True) [] _ := h.asks fun _ _ _ => trivial
  obtain ⟨_, rfl, all⟩ := makes.of_asks asked
  exact all

/-- What requests of some kind keep on a machine, a plan of such requests keeps. -/
theorem always {σ : Type} {S : Answers σ} {I : σ → Prop} (h : p.Only P)
    (keeps : ∀ s r reply s', P r → S s r reply s' → I s → I s') {s : σ} (start : I s) :
    p.Always S s fun _ s' => I s' := by
  induction p generalizing s with
  | done a => exact always_done.2 start
  | ask r next ih =>
    exact always_ask.2 fun reply s' step => ih reply (h.2 reply) (keeps s r reply s' h.1 step start)

theorem any (p : Plan α) : p.Only fun _ => True := by
  induction p with
  | done a => trivial
  | ask r next ih => exact ⟨trivial, ih⟩

end Only

/-! ## Exchanges of a plan -/

/-- An exchange that a plan makes, and the trace before it. -/
def Within (p : Plan α) (env : Environment) (past before : Trace) (e : Exchange) : Prop :=
  past <+: before ∧ before ++ [e] <+: (p.play env past).2

variable {p : Plan α} {env : Environment} {before : Trace} {e : Exchange}

theorem prefix_play (p : Plan α) (env : Environment) (past : Trace) :
    past <+: (p.play env past).2 := by
  induction p generalizing past with
  | done a => exact List.prefix_rfl
  | ask r next ih => exact (List.prefix_append past _).trans (ih _ _)

/-- Environments that reply alike until something is asked bring a plan to the same value, or to the
same reply to that. -/
theorem play_until {r : Request} {env' : Environment}
    (same : ∀ past q, (∀ reply, ⟨r, reply⟩ ∉ past) → env past q = env' past q) (p : Plan α)
    {past : Trace} (unasked : ∀ reply, ⟨r, reply⟩ ∉ past) :
    (p.play env past).1 = (p.play env' past).1 ∨
      ∃ reply, ⟨r, reply⟩ ∈ (p.play env past).2 ∧ ⟨r, reply⟩ ∈ (p.play env' past).2 := by
  induction p generalizing past with
  | done a => exact .inl rfl
  | ask q next ih =>
    rw [play, play, ← same past q unasked]
    by_cases asked : q = r
    · subst asked
      have last : (⟨q, env past q⟩ : Exchange) ∈ past ++ [⟨q, env past q⟩] :=
        List.mem_append_right past (List.mem_singleton_self _)
      exact .inr ⟨env past q, ((next _).prefix_play env _).subset last,
        ((next _).prefix_play env' _).subset last⟩
    · refine ih _ fun reply hm => ?_
      rcases List.mem_append.1 hm with earlier | last
      · exact unasked reply earlier
      · exact asked (congrArg Exchange.request (List.mem_singleton.1 last)).symm

/-- What happens when a plan is played happens within it. -/
theorem exists_within (hm : e ∈ (p.play env []).2) : ∃ before, p.Within env [] before e := by
  obtain ⟨before, after, split⟩ := List.append_of_mem hm
  exact ⟨before, List.nil_prefix, after, by rw [split, List.append_assoc, List.singleton_append]⟩

theorem not_within_done {a : α} : ¬ (done a).Within env past before e := by
  rintro ⟨starts, ends⟩
  have longer := (starts.trans (List.prefix_append before [e])).length_le
  have shorter := ends.length_le
  have same := starts.length_le
  simp only [play, List.length_append, List.length_singleton] at longer shorter
  omega

theorem within_ask {r : Request} {next : r.Reply → Plan α}
    (h : (ask r next).Within env past before e) :
    (before = past ∧ e = ⟨r, env past r⟩) ∨
      (next (env past r)).Within env (past ++ [⟨r, env past r⟩]) before e := by
  obtain ⟨⟨since, rfl⟩, ends⟩ := h
  have first := prefix_play (next (env past r)) env (past ++ [⟨r, env past r⟩])
  change _ <+: ((next (env past r)).play env (past ++ [⟨r, env past r⟩])).2 at ends
  cases since with
  | nil =>
    -- the two are the first exchange after the same trace
    rw [List.append_nil] at ends
    have same := List.prefix_of_prefix_length_le ends first (by simp)
    have equal := same.eq_of_length (by simp)
    exact .inl ⟨List.append_nil past, (List.cons.inj (List.append_cancel_left equal)).1⟩
  | cons d since =>
    have same : past ++ [d] <+: past ++ [⟨r, env past r⟩] := by
      refine List.prefix_of_prefix_length_le (List.IsPrefix.trans ?_ ends) first (by simp)
      exact ⟨since ++ [e], by simp⟩
    obtain rfl := (List.cons.inj (List.append_cancel_left (same.eq_of_length (by simp)))).1
    exact .inr ⟨⟨since, by simp⟩, ends⟩

/-- An exchange of two plans is one of the first or one of the second. -/
theorem within_bind {f : α → Plan β} (h : (p >>= f).Within env past before e) :
    p.Within env past before e ∨
      (f (p.play env past).1).Within env (p.play env past).2 before e := by
  induction p generalizing past with
  | done a => exact .inr h
  | ask r next ih =>
    rcases within_ask h with ⟨rfl, rfl⟩ | later
    · exact .inl ⟨List.prefix_rfl, prefix_play (next (env before r)) env _⟩
    · rcases ih _ later with inside | behind
      · exact .inl ⟨(List.prefix_append past _).trans inside.1, inside.2⟩
      · exact .inr behind

/-- The reply in an exchange is that of the environment. -/
theorem Within.replied (h : p.Within env past before e) : e.reply = env before e.request := by
  induction p generalizing past with
  | done a => exact absurd h not_within_done
  | ask r next ih =>
    rcases within_ask h with ⟨rfl, rfl⟩ | later
    · rfl
    · exact ih _ later

theorem Asks.of_within {Q : α → Trace → Prop} (h : p.Asks ok past Q)
    (within : p.Within env past before e) : ok before e.request := by
  induction p generalizing past with
  | done a => exact absurd within not_within_done
  | ask r next ih =>
    rcases within_ask within with ⟨rfl, rfl⟩ | later
    · exact h.1
    · exact ih _ (h.2 _) later

theorem Only.of_within {P : Request → Prop} (h : p.Only P) (within : p.Within env past before e) :
    P e.request := by
  have rule : p.Asks (fun _ r => P r) past _ := h.asks fun _ _ => id
  exact rule.of_within within

-- from here on only the rules take these apart; else a check of types would run the plan
attribute [irreducible] Asks Only

end Plan

/-! ## Attempts -/

namespace Attempt
variable {ε α β : Type} {ok : Permits} {past : Trace}

/-- Whatever the replies are, an attempt asks only what is permitted; it ends in a result with a
property or in a failure with another. -/
def Asks (ok : Permits) (x : Attempt ε α) (past : Trace) (Q : α → Trace → Prop)
    (E : ε → Trace → Prop) : Prop :=
  x.outcome.Asks ok past (Ends Q E)

variable {x : Attempt ε α} {Q : α → Trace → Prop} {E : ε → Trace → Prop}

theorem asks_pure {a : α} : (pure a : Attempt ε α).Asks ok past Q E ↔ Q a past := Plan.asks_done

theorem asks_throw {e : ε} : (throw e : Attempt ε α).Asks ok past Q E ↔ E e past := Plan.asks_done

theorem asks_outcome : x.Asks ok past Q E ↔ x.outcome.Asks ok past (Ends Q E) := Iff.rfl

theorem asks_bind {f : α → Attempt ε β} {Q : β → Trace → Prop} :
    (x >>= f).Asks ok past Q E ↔ x.Asks ok past (fun a past' => (f a).Asks ok past' Q E) E := by
  rw [Asks, outcome_bind, Plan.asks_bind]
  constructor
  · refine fun h => h.mono fun r _ hr => ?_
    cases r with
    | ok a => exact hr
    | error e => exact (Plan.asks_done (Q := Ends Q E)).1 hr
  · refine fun h => h.mono fun r _ hr => ?_
    cases r with
    | ok a => exact hr
    | error e => exact Plan.asks_done.2 hr

theorem asks_lift {p : Plan α} :
    (liftM p : Attempt ε α).Asks ok past Q E ↔ p.Asks ok past Q := by
  rw [Asks, outcome_lift, Plan.asks_bind]
  simp only [Plan.asks_done, Ends]

theorem asks_of {f : IoError → ε} {p : Plan (Except IoError α)} :
    (of f p).Asks ok past Q E ↔ p.Asks ok past (Ends Q fun e => E (f e)) := by
  rw [Asks, outcome_of, Plan.asks_bind]
  constructor
  · refine fun h => h.mono fun r _ hr => ?_
    cases r <;> exact (Plan.asks_done (Q := Ends Q E)).1 hr
  · refine fun h => h.mono fun r _ hr => ?_
    cases r <;> exact Plan.asks_done.2 hr

theorem Asks.mono {Q' : α → Trace → Prop} {E' : ε → Trace → Prop} (h : x.Asks ok past Q E)
    (imp : ∀ a past', Q a past' → Q' a past') (imp' : ∀ e past', E e past' → E' e past') :
    x.Asks ok past Q' E' := by
  refine Plan.Asks.mono h fun r past' hr => ?_
  cases r with
  | ok a => exact imp a past' hr
  | error e => exact imp' e past' hr

theorem Asks.longer (h : x.Asks ok past Q E) :
    x.Asks ok past (fun a past' => Q a past' ∧ past <+: past') fun e past' => E e past' := by
  refine (Plan.Asks.longer h).mono fun r past' hr => ?_
  cases r with
  | ok a => exact hr
  | error e => exact hr.1

/-- If nothing is forbidden, what an attempt ends in is up to its last part. -/
theorem asks_after {f : α → Attempt ε β} {Q : β → Trace → Prop}
    (hf : ∀ a past', (f a).Asks (fun _ _ => True) past' Q fun _ _ => True) :
    (x >>= f).Asks (fun _ _ => True) past Q fun _ _ => True := by
  have all : x.outcome.Asks (fun _ _ => True) past _ := (Plan.Only.any x.outcome).asks fun _ _ => id
  refine asks_bind.2 (asks_outcome.2 (all.mono fun r past' _ => ?_))
  cases r with
  | ok a => exact hf a past'
  | error e => trivial

-- as for plans
attribute [irreducible] Asks

variable {P : Request → Prop}

/-- An exchange of two attempts is one of the first or, whatever went before, one of the second. -/
theorem within_bind {f : α → Attempt ε β} {env : Environment} {before : Trace} {e : Exchange}
    (h : (x >>= f).outcome.Within env past before e) :
    x.outcome.Within env past before e ∨
      ∃ a past', (f a).outcome.Within env past' before e := by
  rw [outcome_bind] at h
  refine (Plan.within_bind h).imp_right fun later => ?_
  revert later
  cases (x.outcome.play env past).1 with
  | ok a => exact fun later => ⟨a, _, later⟩
  | error f => exact fun later => absurd later Plan.not_within_done

theorem only_bind {f : α → Attempt ε β} (h : x.outcome.Only P) (hf : ∀ a, (f a).outcome.Only P) :
    (x >>= f).outcome.Only P := by
  rw [outcome_bind]
  refine h.bind fun r => ?_
  cases r with
  | ok a => exact hf a
  | error e => exact .done _

theorem only_pure (a : α) : (pure a : Attempt ε α).outcome.Only P := .done _

theorem only_throw (e : ε) : (throw e : Attempt ε α).outcome.Only P := .done _

theorem only_lift {p : Plan α} (h : p.Only P) : (liftM p : Attempt ε α).outcome.Only P := by
  rw [outcome_lift]
  exact h.bind fun _ => .done _

theorem only_of {f : IoError → ε} {p : Plan (Except IoError α)} (h : p.Only P) :
    (of f p).outcome.Only P := by
  rw [outcome_of]
  refine h.bind fun r => ?_
  cases r <;> exact .done _

end Attempt
end PatchTrial
