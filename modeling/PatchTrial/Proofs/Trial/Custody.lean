import PatchTrial.Proofs.Trial.Requests

/-!
The targets of a run and the group that is published. A run has at most one target at a time. Its
group is published by the request after the one that starts it, and that is taken back at the end of
a successful termination and when the target is given up. In between every request that concerns a
target concerns this one.

What is proved:
  1. `Proper.moment`: after every proper request a run has no target, has just started one, or has
     one at hand whose group is published.
  2. `Moment.published_iff`: a group is published exactly if a target of it was started, not just
     now, and not dismissed since.
  3. `run_proper`: a trial that begins without a target asks only what is proper, and ends without
     one.
-/
namespace PatchTrial.Trial
open Attempt (Ends)

/-! ## The published group -/

/-- What a request makes of the published group. -/
def republish (group : Option Pid) : Request → Option Pid
  | .publish other => some other
  | .retract other => if group = some other then none else group
  | _ => group

/-- The group that is published at some moment: an interrupt would kill it then. -/
def published (past : Trace) : Option Pid :=
  past.foldl (fun group e => republish group e.request) none

theorem published_concat (past : Trace) (e : Exchange) :
    published (past ++ [e]) = republish (published past) e.request := by
  rw [published, List.foldl_append]
  rfl

/-! ## Targets -/

/-- Whether an exchange starts a target that leads a group. -/
inductive Starts (group : Pid) : Exchange → Prop
  | spawn {argv : List String} {out err : Handle} : Starts group ⟨.spawn argv out err, .ok group⟩

/-- The group that an exchange made by starting a target. -/
def made? : Exchange → Option Pid
  | ⟨.spawn _ _ _, .ok group⟩ => some group
  | _ => none

theorem starts_iff {group : Pid} {e : Exchange} : Starts group e ↔ made? e = some group := by
  constructor
  · intro h
    cases h
    rfl
  · intro h
    obtain ⟨r, reply⟩ := e
    cases r with
    | spawn argv out err =>
      cases reply with
      | ok other =>
        cases h
        exact .spawn
      | error e => cases h
    | _ => cases h

/-- What was asked and replied while a target was stopped with success, or given up. -/
inductive Dismissal (t : Target) (own : Trace) : Prop
  | terminated {t' : Target} : t.terminate.Makes (.ok (), t') own → Dismissal t own
  | disposed : t.dispose.Makes () own → Dismissal t own

/-- In the course of a trace a target that leads a group was stopped with success, or given up. -/
def Dismissed (group : Pid) (since : Trace) : Prop :=
  ∃ t pre own post, t.pid = group ∧ t.stopped = false ∧ since = pre ++ own ++ post ∧ Dismissal t own

/-- Whether a request leaves it at the target that there is, and at the group that is published. -/
def IsSteady : Request → Prop
  | .spawn _ _ _ | .publish _ | .retract _ => False
  | _ => True

/-- A run has no target: nothing is published, and every target that was started was dismissed. -/
structure Idle (past : Trace) : Prop where
  empty : published past = none
  dismissed : ∀ {before start since group}, Starts group start →
    past = before ++ start :: since → Dismissed group since

/-- A run has a target at hand, which leads a group: the group was published right after the start,
and nothing has changed since. -/
def AtHand (past : Trace) (group : Pid) (since : Trace) : Prop :=
  ∃ before start, Idle before ∧ Starts group start ∧ (∀ e ∈ since, IsSteady e.request) ∧
    past = before ++ start :: ⟨.publish group, ()⟩ :: since

/-- What there may be of a target when a request is made. -/
inductive Moment (past : Trace) : Prop
  | idle : Idle past → Moment past
  | started {before : Trace} {start : Exchange} {group : Pid} : Idle before → Starts group start →
    past = before ++ [start] → Moment past
  | held {group : Pid} {since : Trace} : AtHand past group since → Moment past

/-- Which requests are proper at a moment: what concerns a target concerns the one at hand. -/
inductive Proper (past : Trace) : Request → Prop
  | idle {r : Request} : IsAside r → Idle past → Proper past r
  | beside {r : Request} {group : Pid} {since : Trace} : IsAside r → AtHand past group since →
    Proper past r
  | start {argv : List String} {out err : Handle} : Idle past → Proper past (.spawn argv out err)
  | publish {before : Trace} {start : Exchange} {group : Pid} : Idle before → Starts group start →
    past = before ++ [start] → Proper past (.publish group)
  | tend {r : Request} {how : Terminator} {group : Pid} {since : Trace} :
    AtHand past group since → Tends how group r → Proper past r
  | kill {group : Pid} {since : Trace} : AtHand past group since → Proper past (.kill group)
  | await {group : Pid} {since : Trace} : AtHand past group since → Proper past (.await group)
  | retract {group : Pid} {since : Trace} : AtHand past group since →
    Dismissed group (since ++ [⟨.retract group, ()⟩]) → Proper past (.retract group)
  | again {group : Pid} : Idle past → Proper past (.retract group)

/-! ## Moments -/

variable {past since : Trace} {group : Pid}

theorem IsAside.isSteady {r : Request} (h : IsAside r) : IsSteady r := by
  cases r <;> trivial

theorem Tends.isSteady {how : Terminator} {r : Request} (h : Tends how group r) : IsSteady r := by
  cases h with
  | lookup look => exact look.isAside.isSteady
  | _ => trivial

theorem republish_steady {r : Request} (h : IsSteady r) (g : Option Pid) : republish g r = g := by
  cases r <;> first | rfl | exact h.elim

theorem Starts.not_steady {start : Exchange} (h : Starts group start) :
    ¬ IsSteady start.request := by
  cases h
  exact id

theorem published_steady {more : Trace} (h : ∀ e ∈ more, IsSteady e.request) :
    published (past ++ more) = published past := by
  refine grown (P := fun more => published (past ++ more) = published past) h ?_ ?_
  · rw [List.append_nil]
  · intro more e steady same
    rw [← List.append_assoc, published_concat, republish_steady steady, same]

theorem Dismissed.append (h : Dismissed group since) (before after : Trace) :
    Dismissed group (before ++ since ++ after) := by
  obtain ⟨t, pre, own, post, leads, running, rfl, dismissal⟩ := h
  exact ⟨t, before ++ pre, own, post ++ after, leads, running, by simp, dismissal⟩

/-- Dismissing a target takes back that its group is published. -/
theorem Dismissal.retracts {t : Target} {own : Trace} (h : Dismissal t own)
    (running : t.stopped = false) : ∃ e ∈ own, e.request = .retract t.pid := by
  have taken (past : Trace) :
      ∃ e ∈ past ++ [(⟨.retract t.pid, ()⟩ : Exchange)], e.request = .retract t.pid :=
    ⟨_, List.mem_append_right past (List.mem_singleton_self _), rfl⟩
  -- what is asked before plays no part: the last request takes the group back
  have free {α : Type} (p : Plan α) (past : Trace) :
      p.Asks (fun _ _ => True) past fun _ _ => True :=
    ((Plan.Only.any p).asks fun _ _ => id).mono fun _ _ _ => trivial
  cases h with
  | terminated makes =>
    have asks : t.terminate.Asks (fun _ _ => True) [] fun p past => p.1 = .ok () →
        ∃ e ∈ past, e.request = .retract t.pid := by
      rw [Target.terminate, if_neg (by simp [running])]
      refine Plan.asks_bind.2 ((free _ _).mono fun r past₁ _ => ?_)
      cases r with
      | error e => exact Plan.asks_done.2 fun h => by cases h
      | ok u =>
        refine Plan.asks_bind.2 (Plan.asks_request.2 ⟨trivial, fun reply => ?_⟩)
        cases reply with
        | error e => exact Plan.asks_done.2 fun h => by cases h
        | ok status =>
          refine Plan.asks_bind.2 (Plan.asks_request.2 ⟨trivial, fun u => ?_⟩)
          exact Plan.asks_done.2 fun _ => taken _
    exact makes.of_asks asks rfl
  | disposed makes =>
    have asks : t.dispose.Asks (fun _ _ => True) [] fun _ past =>
        ∃ e ∈ past, e.request = .retract t.pid := by
      have last (past : Trace) : (Plan.request (.retract t.pid)).Asks (fun _ _ => True) past
          fun _ past => ∃ e ∈ past, e.request = .retract t.pid :=
        Plan.asks_request.2 ⟨trivial, fun _ => taken past⟩
      rw [Target.dispose, if_neg (by simp [running])]
      refine Plan.asks_bind.2 ((free _ _).mono fun p past₁ _ => ?_)
      obtain ⟨r, t'⟩ := p
      cases r with
      | ok u => exact last _
      | error e =>
        refine Plan.asks_bind.2 ((free _ _).mono fun _ _ _ => ?_)
        refine Plan.asks_bind.2 ((free _ _).mono fun _ _ _ => ?_)
        exact Plan.asks_bind.2 ((free _ _).mono fun _ _ _ => last _)
    exact makes.of_asks asks

theorem Dismissed.retracts (h : Dismissed group since) :
    ∃ e ∈ since, e.request = .retract group := by
  obtain ⟨t, pre, own, post, rfl, running, rfl, dismissal⟩ := h
  obtain ⟨e, hm, asked⟩ := dismissal.retracts running
  exact ⟨e, List.mem_append_left post (List.mem_append_right pre hm), asked⟩

theorem idle_nil : Idle [] := ⟨rfl, fun _ split => absurd split (by simp)⟩

theorem Idle.concat (h : Idle past) {e : Exchange} (unpublished : republish none e.request = none)
    (other : ∀ group, ¬ Starts group e) : Idle (past ++ [e]) where
  empty := by rw [published_concat, h.empty, unpublished]
  dismissed := by
    intro before start since group starts split
    rcases split_cons split List.not_mem_nil with ⟨-, rfl, -⟩ | ⟨since', earlier, rfl⟩
    · exact absurd starts (other group)
    · exact (h.dismissed starts earlier).append [] [e]

/-- A target that could not be started leaves none. -/
theorem Idle.unstarted (h : Idle past) {argv : List String} {out err : Handle} {e : IoError} :
    Idle (past ++ [⟨.spawn argv out err, .error e⟩]) :=
  h.concat rfl fun _ starts => by cases starts

/-- To take back once more what is not published changes nothing. -/
theorem Idle.again (h : Idle past) : Idle (past ++ [⟨.retract group, ()⟩]) :=
  h.concat rfl fun _ starts => by cases starts

theorem Idle.steady (h : Idle past) {e : Exchange} (steady : IsSteady e.request) :
    Idle (past ++ [e]) :=
  h.concat (republish_steady steady none) fun _ starts => starts.not_steady steady

namespace AtHand

theorem published (h : AtHand past group since) : published past = some group := by
  obtain ⟨before, start, idle, starts, steady, rfl⟩ := h
  rw [List.append_cons, List.append_cons, published_steady steady, published_concat]
  rfl

theorem concat (h : AtHand past group since) {e : Exchange} (steady : IsSteady e.request) :
    AtHand (past ++ [e]) group (since ++ [e]) := by
  obtain ⟨before, start, idle, starts, before_steady, rfl⟩ := h
  refine ⟨before, start, idle, starts, fun d hm => ?_, by simp⟩
  rcases List.mem_append.1 hm with hm | hm
  · exact before_steady d hm
  · rw [List.mem_singleton.1 hm]
    exact steady

/-- A target that was started is the one at hand, or it was dismissed. -/
theorem split (h : AtHand past group since) {before : Trace} {start : Exchange} {other : Pid}
    {after : Trace} (starts : Starts other start) (same : past = before ++ start :: after) :
    (other = group ∧ Idle before ∧ after = ⟨.publish group, ()⟩ :: since) ∨
      Dismissed other after := by
  obtain ⟨before', start', idle, starts', steady, rfl⟩ := h
  have later : start ∉ (⟨.publish group, ()⟩ :: since : Trace) := by
    intro hm
    rcases List.mem_cons.1 hm with rfl | hm
    · cases starts
    · exact starts.not_steady (steady start hm)
  rcases split_cons same later with ⟨rfl, rfl, rfl⟩ | ⟨between, earlier, rfl⟩
  · cases starts
    cases starts'
    exact .inl ⟨rfl, idle, rfl⟩
  · exact .inr ((idle.dismissed starts earlier).append [] _)

theorem not_dismissed (h : AtHand past group since) :
    ¬ Dismissed group (⟨.publish group, ()⟩ :: since) := by
  intro dismissed
  obtain ⟨before, start, idle, starts, steady, rfl⟩ := h
  obtain ⟨e, hm, asked⟩ := dismissed.retracts
  rcases List.mem_cons.1 hm with rfl | hm
  · cases asked
  · have stays := steady e hm
    rw [asked] at stays
    exact stays

/-- When the target was dismissed and its group is no longer published, there is no target. -/
theorem dismiss (h : AtHand past group since)
    (dismissed : Dismissed group (since ++ [⟨.retract group, ()⟩])) :
    Idle (past ++ [⟨.retract group, ()⟩]) where
  empty := by
    rw [published_concat, h.published]
    exact if_pos rfl
  dismissed := by
    intro before start since' other starts same
    rcases split_cons same List.not_mem_nil with ⟨-, rfl, -⟩ | ⟨between, earlier, rfl⟩
    · cases starts
    · rcases h.split starts earlier with ⟨rfl, -, rfl⟩ | before
      · have all := dismissed.append [⟨.publish other, ()⟩] []
        rwa [List.append_nil] at all
      · exact before.append [] _

end AtHand

theorem Proper.moment {r : Request} (h : Proper past r) (reply : r.Reply) :
    Moment (past ++ [⟨r, reply⟩]) := by
  cases h with
  | idle aside idle => exact .idle (idle.steady aside.isSteady)
  | beside aside held => exact .held (held.concat aside.isSteady)
  | start idle =>
    cases reply with
    | ok group => exact .started idle .spawn rfl
    | error e => exact .idle idle.unstarted
  | publish idle starts same =>
    subst same
    have none : ∀ e ∈ ([] : Trace), IsSteady e.request := fun _ hm => nomatch hm
    exact .held ⟨_, _, idle, starts, none, List.append_assoc _ _ _⟩
  | tend held tends => exact .held (held.concat tends.isSteady)
  | kill held => exact .held (held.concat trivial)
  | await held => exact .held (held.concat trivial)
  | retract held dismissed => exact .idle (held.dismiss dismissed)
  | again idle => exact .idle idle.again

theorem Moment.atHand_of_published (h : Moment past) (shown : published past = some group) :
    ∃ since, AtHand past group since := by
  cases h with
  | idle idle =>
    rw [idle.empty] at shown
    cases shown
  | started idle starts same =>
    rw [same, published_concat, idle.empty] at shown
    cases starts
    cases shown
  | held held =>
    rw [held.published] at shown
    cases shown
    exact ⟨_, held⟩

/-- A group is published exactly if a target of it was started, not just now, and not dismissed
since. -/
theorem Moment.published_iff (h : Moment past) (group : Pid) :
    published past = some group ↔ ∃ before start since, past = before ++ start :: since ∧
      Starts group start ∧ since ≠ [] ∧ ¬ Dismissed group since := by
  constructor
  · intro shown
    obtain ⟨since, held⟩ := h.atHand_of_published shown
    obtain ⟨before, start, -, starts, -, same⟩ := id held
    exact ⟨before, start, _, same, starts, List.cons_ne_nil _ _, held.not_dismissed⟩
  · rintro ⟨before, start, since, split, starts, later, kept⟩
    cases h with
    | idle idle => exact absurd (idle.dismissed starts split) kept
    | started idle _ same =>
      rw [same] at split
      rcases split_cons split List.not_mem_nil with ⟨-, -, none⟩ | ⟨between, earlier, rfl⟩
      · exact absurd none later
      · exact absurd ((idle.dismissed starts earlier).append [] _) kept
    | held held =>
      rcases held.split starts split with ⟨rfl, -⟩ | dismissed
      · exact held.published
      · exact absurd dismissed kept

/-! ## Trials -/

section Asking
variable {ε α β : Type}

theorem Idle.append (h : Idle past) {more : Trace} (aside : ∀ e ∈ more, IsAside e.request) :
    Idle (past ++ more) := by
  refine grown (P := fun more => Idle (past ++ more)) aside ?_ ?_
  · rwa [List.append_nil]
  · intro more e aside idle
    rw [← List.append_assoc]
    exact idle.steady aside.isSteady

theorem AtHand.append (h : AtHand past group since) {more : Trace}
    (steady : ∀ e ∈ more, IsSteady e.request) : AtHand (past ++ more) group (since ++ more) := by
  refine grown (P := fun more => AtHand (past ++ more) group (since ++ more)) steady ?_ ?_
  · rwa [List.append_nil, List.append_nil]
  · intro more e steady held
    rw [← List.append_assoc, ← List.append_assoc]
    exact held.concat steady

/-- Without a target a run may ask what concerns none. -/
theorem Idle.asks {p : Plan α} (h : Idle past) (only : p.Only IsAside) :
    p.Asks Proper past fun _ past' => Idle past' := by
  refine (only.asks_making fun more r all aside => .idle aside (h.append all)).mono ?_
  rintro a past' ⟨more, rfl, all, -⟩
  exact h.append all

theorem Idle.attempts {x : Attempt ε α} (h : Idle past) (only : x.outcome.Only IsAside) :
    x.Asks Proper past (fun _ past' => Idle past') fun _ past' => Idle past' := by
  refine Attempt.asks_outcome.2 ((h.asks only).mono fun r past' idle => ?_)
  cases r <;> exact idle

theorem Idle.bind {x : Attempt ε α} {f : α → Attempt ε β} {Q : β → Trace → Prop} (h : Idle past)
    (only : x.outcome.Only IsAside)
    (hf : ∀ a past', Idle past' → (f a).Asks Proper past' Q fun _ past'' => Idle past'') :
    (x >>= f).Asks Proper past Q fun _ past' => Idle past' :=
  Attempt.asks_bind.2 ((h.attempts only).mono hf fun _ _ => id)

variable {t : Target}

/-- A target is at hand that is not stopped. -/
def Running (t : Target) (past : Trace) : Prop :=
  t.stopped = false ∧ ∃ since, AtHand past t.pid since

/-- While a target is at hand a run may also ask what does not concern it. -/
theorem Running.attempts {x : Attempt ε α} (h : Running t past) (only : x.outcome.Only IsAside) :
    x.Asks Proper past (fun _ past' => Running t past') fun _ past' => Running t past' := by
  obtain ⟨running, since, held⟩ := h
  have later {more : Trace} (all : ∀ e ∈ more, IsAside e.request) :
      AtHand (past ++ more) t.pid (since ++ more) := held.append fun e hm => (all e hm).isSteady
  have proper (more : Trace) (r : Request) (all : ∀ e ∈ more, IsAside e.request)
      (aside : IsAside r) : Proper (past ++ more) r := .beside aside (later all)
  refine Attempt.asks_outcome.2 ((only.asks_making proper).mono ?_)
  rintro r past' ⟨more, rfl, all, -⟩
  cases r <;> exact ⟨running, _, later all⟩

end Asking

variable (c : Setting) (s : Scenario)

/-- A target is started, and its group is published right after that. -/
theorem launch_proper (h : Idle past) :
    (launch c s).Asks Proper past (fun t past' => Running t past') fun _ past' => Idle past' := by
  refine h.bind (only_line c.log _) fun _ _ h => ?_
  refine h.bind (only_log (only_lines c.log _)) fun _ _ h => ?_
  refine h.bind (only_createCapture _) fun out _ h => ?_
  refine h.bind (only_createCapture _) fun err _ h => ?_
  refine Attempt.asks_of.2 ?_
  cases launchCommand c.harness s with
  | nil => exact Attempt.asks_outcome.1 (Attempt.asks_throw.2 h)
  | cons program args =>
    refine Attempt.asks_outcome.1 (Attempt.asks_bind.2 (Attempt.asks_of.2
      (Plan.asks_request.2 ⟨.start h, fun reply => ?_⟩)))
    cases reply with
    | error e => exact h.unstarted
    | ok pid =>
      refine Attempt.asks_bind.2 (Attempt.asks_lift.2
        (Plan.asks_request.2 ⟨.publish h .spawn rfl, fun _ => ?_⟩))
      have none : ∀ e ∈ ([] : Trace), IsSteady e.request := fun _ hm => nomatch hm
      exact Attempt.asks_pure.2 ⟨rfl, [], _, _, h, .spawn, none, List.append_assoc _ _ _⟩

variable {t : Target}

/-- What is left to do once the terminator is done. -/
def concluding (t : Target) : Except IoError Unit → Plan (Except IoError Unit × Target)
  | .error e => .done (.error e, t)
  | .ok () => .ask (.poll t.pid) fun
    | .error e => .done (.error e, t)
    | .ok status =>
      .ask (.retract t.pid) fun _ => .done (.ok (), { t with finished := status, stopped := true })

theorem terminate_eq (running : t.stopped = false) :
    t.terminate = (t.terminator.terminate t.pid).outcome >>= concluding t := by
  rw [Target.terminate, if_neg (by simp [running])]
  refine congrArg (_ >>= ·) (funext fun r => ?_)
  cases r with
  | error e => rfl
  | ok u =>
    refine congrArg (Plan.ask _) (funext fun reply => ?_)
    cases reply <;> rfl

/-- What is left to do once a target was terminated that is given up. -/
def disposing (t : Target) : Except IoError Unit × Target → Plan Unit
  | (.ok (), _) => Plan.request (.retract t.pid)
  | (.error _, _) =>
    (signalGroup t.pid .kill).outcome >>= fun _ =>
      .ask (.kill t.pid) fun _ => .ask (.await t.pid) fun _ => .ask (.retract t.pid) .done

theorem dispose_eq (running : t.stopped = false) : t.dispose = t.terminate >>= disposing t := by
  rw [Target.dispose, if_neg (by simp [running])]
  refine congrArg (_ >>= ·) (funext fun p => ?_)
  obtain ⟨r, t'⟩ := p
  cases r <;> rfl

/-- How a termination leaves a target: it is stopped and no longer at hand, or the failure left it
as it was. -/
def Terminated (t : Target) (since past : Trace) :
    Except IoError Unit × Target → Trace → Prop
  | (.ok (), t'), past' => t'.stopped = true ∧ Idle past'
  | (.error e, t'), past' => t' = t ∧ ∃ own, past' = past ++ own ∧
      AtHand past' t.pid (since ++ own) ∧ t.terminate.Makes (.error e, t) own

/-- To stop a target only it is asked after and signalled, and that its group is published is taken
back when it is stopped. -/
theorem terminate_proper (running : t.stopped = false) (h : AtHand past t.pid since) :
    t.terminate.Asks Proper past (Terminated t since past) := by
  have tended {more : Trace} (all : ∀ e ∈ more, Tends t.terminator t.pid e.request) :
      AtHand (past ++ more) t.pid (since ++ more) := h.append fun e hm => (all e hm).isSteady
  have eq := terminate_eq running
  rw [eq]
  refine Plan.asks_bind.2 (((only_terminate t.terminator t.pid).asks_making
    fun more r all tends => .tend (tended all) tends).mono ?_)
  rintro r past₁ ⟨more, rfl, all, makes⟩
  -- in each case `made` is the whole termination: that it retracts is proper only as its last step
  cases r with
  | error e =>
    refine Plan.asks_done.2 ⟨rfl, more, rfl, tended all, ?_⟩
    have last : (concluding t (.error e)).Makes (.error e, t) [] := .done _
    have made := makes.bind last
    rwa [← eq, List.append_nil] at made
  | ok u =>
    have polled : Tends t.terminator t.pid (.poll t.pid) := .poll
    refine Plan.asks_ask.2 ⟨.tend (tended all) polled, fun reply => ?_⟩
    have held := (tended all).concat (e := ⟨.poll t.pid, reply⟩) trivial
    cases reply with
    | error e =>
      have last : (concluding t (.ok u)).Makes (.error e, t) [⟨.poll t.pid, .error e⟩] :=
        .ask (r := .poll t.pid) (.error e) (.done _)
      have made := makes.bind last
      rw [← eq] at made
      rw [List.append_assoc since] at held
      exact Plan.asks_done.2 ⟨rfl, _, List.append_assoc past more _, held, made⟩
    | ok status =>
      have last : (concluding t (.ok u)).Makes
          (.ok (), { t with finished := status, stopped := true })
          [⟨.poll t.pid, .ok status⟩, ⟨.retract t.pid, ()⟩] :=
        .ask (r := .poll t.pid) (.ok status) (.ask (r := .retract t.pid) () (.done _))
      have made := makes.bind last
      rw [← eq] at made
      have dismissed : Dismissed t.pid (since ++ more ++ [⟨.poll t.pid, .ok status⟩] ++
          [⟨.retract t.pid, ()⟩]) :=
        ⟨t, since, _, [], rfl, running, by simp, .terminated made⟩
      refine Plan.asks_ask.2 ⟨.retract held dismissed, fun _ => ?_⟩
      exact Plan.asks_done.2 ⟨rfl, held.dismiss dismissed⟩

/-- A target is at hand, or it was stopped and there is none. -/
def InCare (t : Target) (past : Trace) : Prop :=
  Running t past ∨ t.stopped = true ∧ Idle past

theorem Terminated.inCare {p : Except IoError Unit × Target} {past' : Trace}
    (h : Terminated t since past p past') (running : t.stopped = false) : InCare p.2 past' := by
  obtain ⟨r, t'⟩ := p
  cases r with
  | ok u => exact .inr h
  | error e =>
    obtain ⟨rfl, own, -, held, -⟩ := h
    exact .inl ⟨running, _, held⟩

/-- A target that is given up is at hand no longer. -/
theorem dispose_proper (h : InCare t past) :
    t.dispose.Asks Proper past fun _ past' => Idle past' := by
  rcases h with ⟨running, since, held⟩ | ⟨stopped, idle⟩
  · have eq := dispose_eq running
    rw [eq]
    refine Plan.asks_bind.2 ((terminate_proper running held).mono fun p past₁ h => ?_)
    obtain ⟨r, t'⟩ := p
    cases r with
    -- a termination that succeeded has already retracted; to do so once more changes nothing
    | ok u => exact Plan.asks_request.2 ⟨.again h.2, fun _ => h.2.again⟩
    | error e =>
      obtain ⟨-, own, -, held, makes⟩ := h
      refine Plan.asks_bind.2 (((only_signalGroup t.terminator t.pid .kill).asks_making
        fun more r all tends => .tend (held.append fun e hm => (all e hm).isSteady) tends).mono ?_)
      rintro r past₂ ⟨more, rfl, all, sent⟩
      have held := held.append fun e hm => (all e hm).isSteady
      refine Plan.asks_ask.2 ⟨.kill held, fun killed => ?_⟩
      have held := held.concat (e := ⟨.kill t.pid, killed⟩) trivial
      refine Plan.asks_ask.2 ⟨.await held, fun waited => ?_⟩
      have held := held.concat (e := ⟨.await t.pid, waited⟩) trivial
      have last : (disposing t (.error e, t)).Makes () (more ++ [⟨.kill t.pid, killed⟩,
          ⟨.await t.pid, waited⟩, ⟨.retract t.pid, ()⟩]) :=
        sent.bind (.ask killed (.ask waited (.ask (r := .retract t.pid) () (.done ()))))
      have made := makes.bind last
      rw [← eq] at made
      have dismissed : Dismissed t.pid (since ++ own ++ more ++ [⟨.kill t.pid, killed⟩] ++
          [⟨.await t.pid, waited⟩] ++ [⟨.retract t.pid, ()⟩]) :=
        ⟨t, since, _, [], rfl, running, by simp, .disposed made⟩
      refine Plan.asks_ask.2 ⟨.retract held dismissed, fun _ => ?_⟩
      exact Plan.asks_done.2 (held.dismiss dismissed)
  · rw [Target.dispose, if_pos stopped]
    exact Plan.asks_done.2 idle

/-! ## A target at hand -/

/-- To ask whether a target has ended leaves it at hand. -/
theorem exitStatus_proper (h : Running t past) :
    t.exitStatus.Asks Proper past fun p past' => Running p.2 past' := by
  obtain ⟨running, since, held⟩ := h
  have polled : Tends t.terminator t.pid (.poll t.pid) := .poll
  rw [Target.exitStatus]
  cases t.finished with
  | some status => exact Plan.asks_done.2 ⟨running, since, held⟩
  | none =>
    refine Plan.asks_bind.2 (Plan.asks_request.2 ⟨.tend held polled, fun reply => ?_⟩)
    have held := held.concat (e := ⟨.poll t.pid, reply⟩) trivial
    cases reply <;> exact Plan.asks_done.2 ⟨running, _, held⟩

/-- A part of the work with a target that does not concern it. -/
theorem AsksOn.aside {α : Type} {x : Step α} (h : Running t past) (only : x.outcome.Only IsAside) :
    AsksOn Proper t (WithTarget.step x) past fun _ t' past' => Running t' past' := by
  refine AsksOn.of_run ((AsksOn.step (h.attempts only)).run.mono ?_)
  rintro ⟨r, t'⟩ past' ⟨rfl, h⟩
  cases r <;> exact h

theorem observe_proper (pid : Pid) (h : Running t past) :
    AsksOn Proper t (observe c s pid) past fun _ t' past' => Running t' past' := by
  have slept : (liftM (Plan.request (.sleep s.observeMs)) : Step Unit).outcome.Only IsAside :=
    Attempt.only_lift (.request trivial)
  refine (AsksOn.aside h slept).bind (fun _ t₁ past₁ h => ?_) fun _ _ _ => id
  refine (AsksOn.operate (Q := fun _ t' past' => Running t' past') (exitStatus_proper h)).bind
    (fun exited t₂ past₂ h => ?_) fun _ _ _ => id
  cases exited with
  | none => exact .pure h
  | some status =>
    have told : (do let _ ← (c.log.appendFile "target stderr" s.targetErrors).outcome :
        Step Unit).outcome.Only IsAside := by
      refine Attempt.only_bind (Attempt.only_lift ?_) fun _ => Attempt.only_pure ()
      exact only_appendFile c.log _ _
    exact (AsksOn.aside h told).bind (fun _ _ _ h => .throw h) fun _ _ _ => id

theorem stop_proper (pid : Pid) (h : Running t past) :
    AsksOn Proper t (stop c pid) past fun _ t' past' => InCare t' past' := by
  obtain ⟨running, since, held⟩ := h
  refine AsksOn.of_run (show Plan.Asks _ (t.terminate >>= _) past _ from ?_)
  refine Plan.asks_bind.2 ((terminate_proper running held).mono fun p past₁ h => ?_)
  obtain ⟨r, t'⟩ := p
  cases r with
  | ok u => exact Plan.asks_done.2 (h.inCare running)
  | error e =>
    obtain ⟨rfl, own, rfl, held, -⟩ := h
    have still : Running t' (past ++ own) := ⟨running, _, held⟩
    refine Plan.asks_bind.2 ?_
    refine (Attempt.asks_outcome.1 (still.attempts (only_line c.log _))).mono fun r past₂ h => ?_
    cases r <;> exact Plan.asks_done.2 (.inl h)

theorem attend_proper (h : Running t past) :
    AsksOn Proper t (attend c s) past fun _ t' past' => InCare t' past' := by
  have got : AsksOn Proper t (get : WithTarget Target) past
      fun r t' past' => r = .ok t ∧ t' = t ∧ past' = past :=
    .of_run (Plan.asks_done.2 ⟨rfl, rfl, rfl⟩)
  refine got.bind ?_ fun _ _ _ h => nomatch h.1
  rintro t₀ t₁ past₁ ⟨same, rfl, rfl⟩
  obtain rfl : t₀ = t₁ := Except.ok.inj same
  refine (AsksOn.aside h (only_findProgram c s t₀)).bind (fun pid _ _ h => ?_) fun _ _ _ => .inl
  refine (AsksOn.aside h (only_apply c s pid)).bind (fun _ _ _ h => ?_) fun _ _ _ => .inl
  refine (observe_proper c s pid h).bind (fun _ _ _ h => ?_) fun _ _ _ => .inl
  exact stop_proper c pid h

/-! ## The whole trial -/

theorem attempt_proper (v : Validator) (h : Idle past) :
    (attempt c s v).Asks Proper past (fun _ past' => Idle past') fun _ past' => Idle past' := by
  refine h.bind (only_log (only_lines c.log _)) fun _ _ h => ?_
  refine h.bind (only_generate c s) fun _ _ h => ?_
  refine Attempt.asks_bind.2 ((launch_proper c s h).mono (fun t _ h => ?_) fun _ _ => id)
  refine Attempt.asks_bind.2 (Attempt.asks_lift.2 ((attend_proper c s h).run.mono ?_))
  rintro ⟨r, t'⟩ past' h
  -- whatever came of it, the target is given up here
  refine Attempt.asks_bind.2 (Attempt.asks_lift.2 ((dispose_proper h).mono fun _ _ idle => ?_))
  cases r with
  | error f => exact Attempt.asks_throw.2 idle
  | ok u => exact idle.attempts (only_judge c s v)

/-- A trial that begins without a target asks only what is proper, and ends without one. -/
theorem run_proper (v : Validator) (h : Idle past) :
    (run c s v).Asks Proper past fun _ past' => Idle past' := by
  refine Plan.asks_bind.2 ((Attempt.asks_outcome.1 (attempt_proper c s v h)).mono fun r _ h => ?_)
  cases r with
  | ok u => exact Plan.asks_done.2 h
  | error f =>
    have write := (only_recordFailure c.log f).mono fun _ => IsWrite.isAside
    exact Plan.asks_bind.2 ((Idle.asks h write).mono fun _ _ h => Plan.asks_done.2 h)

end PatchTrial.Trial
