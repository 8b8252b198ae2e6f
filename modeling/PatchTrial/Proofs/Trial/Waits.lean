import PatchTrial.Proofs.Plan.Adds
import PatchTrial.Proofs.Trial.Care

/-!
A wait for the end of a group. Signals are sent to a group, directly or by a command, and between
them it is looked at. The group may change at any time, so a look may show anything; all that is
asked of the machine is that its clock goes on.

What is proved:
  1. `lookAt_waited`: a look asks after the leader, and then only for the members.
  2. `waitForGroup_waited`: a wait goes on until a look finds the group gone or the grace is over;
     the bound on the number of looks plays no part.
-/
namespace PatchTrial.Trial
open Plan

/-! ## What happens to a group -/

/-- What happens while a group is stopped, whoever sends the signals. -/
inductive Event
  /-- A signal is sent to the group. -/
  | signal (s : Signal)
  /-- The clock is read. -/
  | clock
  /-- The group is looked at, or time passes. -/
  | look (e : Exchange)

/-- The event in an exchange. To run the command that tells or kills a group is to send it a
signal. -/
def eventOf (wrapper : List String) (group : Pid) : Exchange → Event
  | ⟨.signalGroup g s, reply⟩ =>
    if g = group ∧ s ≠ 0 then .signal s else .look ⟨.signalGroup g s, reply⟩
  | ⟨.run argv out err, reply⟩ =>
    if argv = killCommand wrapper group "-TERM" then .signal .terminate
    else if argv = killCommand wrapper group "-KILL" then .signal .kill
    else .look ⟨.run argv out err, reply⟩
  | ⟨.now, _⟩ => .clock
  | e => .look e

def events (wrapper : List String) (group : Pid) (past : Trace) : List Event :=
  past.map (eventOf wrapper group)

def Event.signal? : Event → Option Signal
  | signal s => some s
  | _ => none

def signals (history : List Event) : List Signal := history.filterMap Event.signal?

/-- What the clock of a machine shows after a trace, in microseconds. -/
def timeAfter (env : Environment) (past : Trace) : Nat := env past .now

/-- The clock of a machine does not go back, and a pause takes as long as it should or longer. -/
structure KeepsTime (env : Environment) : Prop where
  le : ∀ past more, timeAfter env past ≤ timeAfter env (past ++ more)
  sleep : ∀ past ms, timeAfter env past + ms * 1000 ≤ timeAfter env (past ++ [⟨.sleep ms, ()⟩])

/-- Whether a request asks for the members of a group. -/
inductive Glances (group : Pid) : Request → Prop
  | lookup {r : Request} : IsLookup r → Glances group r
  | probe : Glances group (.signalGroup group 0)

/-- Whether a request looks at a group or lets time pass. -/
inductive Looks (group : Pid) : Request → Prop
  | glance {r : Request} : Glances group r → Looks group r
  | poll : Looks group (.poll group)
  | sleep {ms : Nat} : Looks group (.sleep ms)

variable {wrapper : List String} {group : Pid} {env : Environment} {past : Trace}
  {graceMs start : Nat}

theorem events_append (past more : Trace) :
    events wrapper group (past ++ more) = events wrapper group past ++ events wrapper group more :=
  List.map_append

theorem signals_append (xs ys : List Event) : signals (xs ++ ys) = signals xs ++ signals ys :=
  List.filterMap_append

/-- The signals that were sent are the same after a time without any. -/
theorem signals_quiet {past : Trace} (more : Trace)
    (quiet : signals (events wrapper group more) = []) :
    signals (events wrapper group (past ++ more)) = signals (events wrapper group past) := by
  rw [events_append, signals_append, quiet, List.append_nil]

theorem eventOf_look {r : Request} (reply : r.Reply) (h : Looks group r) :
    eventOf wrapper group ⟨r, reply⟩ = .look ⟨r, reply⟩ := by
  cases h with
  | glance glance =>
    cases glance with
    | lookup lookup => cases lookup <;> rfl
    | probe => exact if_neg fun h => h.2 rfl
  | _ => rfl

/-- No signal is sent by a look. -/
theorem signals_looks {more : Trace} (h : ∀ e ∈ more, Looks group e.request) :
    signals (events wrapper group more) = [] := by
  refine List.filterMap_eq_nil_iff.2 fun event hm => ?_
  obtain ⟨⟨r, reply⟩, within, rfl⟩ := List.mem_map.1 hm
  rw [eventOf_look reply (h _ within)]
  rfl

/-! ## A look -/

/-- A look at a group: whether its leader has ended and no member of it is live. -/
def lookAt (group : Pid) : Attempt IoError Bool := do
  let ended ← Attempt.of id (Plan.request (.poll group))
  if ended.isSome then return !(← groupIsAlive group) else return false

/-- A wait is one look after another. -/
theorem waitFrom_succ (group : Pid) (graceMs start looks : Nat) :
    waitFrom group graceMs start (looks + 1) = (do
      if ← lookAt group then return true
      if graceMs * 1000 ≤ (← Plan.request .now) - start then return false
      Plan.request (.sleep pollMs)
      waitFrom group graceMs start looks) := by
  rw [lookAt, LawfulMonad.bind_assoc]
  refine congrArg (_ >>= ·) (funext fun ended => ?_)
  cases ended with
  | none => rfl
  | some status =>
    refine Eq.trans ?_ (LawfulMonad.bind_assoc _ _ _).symm
    rfl

/-- Some look that began in what happened after a trace found the group gone. -/
def FoundGone (env : Environment) (group : Pid) (past more : Trace) : Prop :=
  ∃ before e after, more = before ++ e :: after ∧ e.request = .poll group ∧
    ((lookAt group).outcome.play env (past ++ before)).1 = .ok true

theorem foundGone_append {xs ys : Trace} :
    FoundGone env group past (xs ++ ys) ↔
      FoundGone env group past xs ∨ FoundGone env group (past ++ xs) ys := by
  constructor
  · rintro ⟨before, e, after, split, poll, gone⟩
    rcases List.append_eq_append_iff.1 split with ⟨since, rfl, rfl⟩ | ⟨since, rfl, rest⟩
    · exact .inr ⟨since, e, after, rfl, poll, List.append_assoc past xs since ▸ gone⟩
    · cases since with
      | nil =>
        obtain rfl : e :: after = ys := rest
        exact .inr ⟨[], e, after, rfl, poll, by simpa using gone⟩
      | cons d since =>
        obtain ⟨rfl, rfl⟩ := List.cons.inj rest
        exact .inl ⟨before, e, since, rfl, poll, gone⟩
  · rintro (⟨before, e, after, rfl, poll, gone⟩ | ⟨before, e, after, rfl, poll, gone⟩)
    · exact ⟨before, e, after ++ ys, List.append_assoc .., poll, gone⟩
    · refine ⟨xs ++ before, e, after, (List.append_assoc ..).symm, poll, ?_⟩
      rwa [← List.append_assoc]

theorem not_foundGone {more : Trace} (h : ∀ e ∈ more, e.request ≠ .poll group) :
    ¬ FoundGone env group past more := by
  rintro ⟨before, e, after, rfl, poll, -⟩
  exact h e (List.mem_append_right before List.mem_cons_self) poll

theorem only_glances (group : Pid) : (groupIsAlive group).Only (Glances group) := by
  have found : (Roster.system.groupIsLive group).outcome.Only (Glances group) :=
    Plan.Only.mono (Attempt.only_bind only_scan fun _ => .done _) fun _ => .lookup
  refine found.bind fun r => ?_
  cases r with
  | ok alive => exact .done _
  | error e =>
    have asked : (Plan.request (.signalGroup group 0)).Only (Glances group) := .request .probe
    refine asked.bind fun r => ?_
    cases r <;> exact .done _

theorem only_lookAt (group : Pid) : (lookAt group).outcome.Only (Looks group) := by
  have polled : (Plan.request (.poll group)).Only (Looks group) := .request .poll
  refine Attempt.only_bind (Attempt.only_of polled) fun ended => ?_
  split
  · have glanced := (only_glances group).mono fun _ => Looks.glance
    exact Attempt.only_bind (Attempt.only_lift glanced) fun _ => Attempt.only_pure _
  · exact Attempt.only_pure false

/-- A look asks after the leader, and then only for the members. -/
theorem lookAt_glances (env : Environment) (group : Pid) (past : Trace) :
    Attempt.Always (replying env) past (lookAt group)
      (fun _ past' => ∃ ended glances,
        past' = past ++ (⟨.poll group, .ok ended⟩ :: glances : Trace) ∧
          ∀ e ∈ glances, Glances group e.request)
      fun cause past' => past' = past ++ [⟨.poll group, .error cause⟩] := by
  refine Attempt.always_bind.2 (Attempt.always_of.2 (always_request.2 ?_))
  rintro reply past' ⟨-, rfl⟩
  cases reply with
  | error cause => exact rfl
  | ok ended =>
    cases ended with
    | none => exact Attempt.always_pure.2 ⟨none, [], rfl, fun _ hm => nomatch hm⟩
    | some status =>
      have glanced : (groupIsAlive group).Adds env _ := .of_only (only_glances group)
      refine Attempt.always_bind.2 (Attempt.always_lift.2 ((glanced _).mono ?_))
      rintro alive past' ⟨glances, rfl, all⟩
      exact Attempt.always_pure.2 ⟨some status, glances, List.append_assoc .., all⟩

/-- What a look comes to is what it found. -/
theorem foundGone_look {reply : (Request.poll group).Reply} {glances : Trace}
    (all : ∀ e ∈ glances, Glances group e.request) :
    FoundGone env group past (⟨.poll group, reply⟩ :: glances) ↔
      ((lookAt group).outcome.play env past).1 = .ok true := by
  have others : ∀ e ∈ glances, e.request ≠ .poll group := by
    intro e hm poll
    have glance := all e hm
    rw [poll] at glance
    cases glance with
    | lookup lookup => cases lookup
  constructor
  · rintro ⟨before, e, after, split, poll, gone⟩
    cases before with
    | nil => rwa [List.append_nil] at gone
    | cons d before =>
      rw [(List.cons.inj split).2] at others
      exact absurd poll (others e (List.mem_append_right before List.mem_cons_self))
  · intro gone
    exact ⟨[], _, glances, rfl, rfl, (List.append_nil past).symm ▸ gone⟩

/-! ## A wait -/

/-- What happened in a wait to its end: no signal was sent, and the group was found gone or the
grace has passed. -/
structure WaitedOut (wrapper : List String) (env : Environment) (group : Pid) (graceMs start : Nat)
    (past : Trace) (gone : Bool) (more : Trace) : Prop where
  quiet : signals (events wrapper group more) = []
  found : gone = true ↔ FoundGone env group past more
  late : gone = false → ∃ waited last, more = waited ++ [⟨.now, last⟩] ∧
    graceMs * 1000 ≤ last - start

/-- What happened in a wait that broke off, as the leader could not be asked after. -/
structure BrokeOff (wrapper : List String) (env : Environment) (group : Pid) (past : Trace)
    (cause : IoError) (more : Trace) : Prop where
  quiet : signals (events wrapper group more) = []
  none : ¬ FoundGone env group past more
  refused : ⟨.poll group, .error cause⟩ ∈ more

/-- Every run of an attempt, which may have begun some time ago, is a wait. -/
def Waits (wrapper : List String) (env : Environment) (group : Pid) (graceMs start : Nat)
    (past now : Trace) (x : Attempt IoError Bool) : Prop :=
  Attempt.Always (replying env) now x
    (fun gone past' => ∃ more, past' = past ++ more ∧
      WaitedOut wrapper env group graceMs start past gone more)
    fun cause past' => ∃ more, past' = past ++ more ∧ BrokeOff wrapper env group past cause more

/-- What goes before a wait and finds nothing belongs to it. -/
theorem Waits.after {xs now : Trace} {x : Attempt IoError Bool}
    (h : Waits wrapper env group graceMs start (past ++ xs) now x)
    (quiet : signals (events wrapper group xs) = []) (none : ¬ FoundGone env group past xs) :
    Waits wrapper env group graceMs start past now x := by
  have silent (ys : Trace) : signals (events wrapper group (xs ++ ys)) =
      signals (events wrapper group ys) := by
    rw [events_append, signals_append, quiet]
    rfl
  have later (ys : Trace) : FoundGone env group past (xs ++ ys) ↔
      FoundGone env group (past ++ xs) ys := by
    rw [foundGone_append, or_iff_right none]
  refine Attempt.Always.mono h ?_ ?_
  · rintro gone past' ⟨ys, rfl, waited⟩
    refine ⟨xs ++ ys, List.append_assoc .., (silent ys).trans waited.quiet,
      waited.found.trans (later ys).symm, fun unfound => ?_⟩
    obtain ⟨more, last, rfl, long⟩ := waited.late unfound
    exact ⟨xs ++ more, last, (List.append_assoc ..).symm, long⟩
  · rintro cause past' ⟨ys, rfl, broke⟩
    exact ⟨xs ++ ys, List.append_assoc .., (silent ys).trans broke.quiet,
      mt (later ys).1 broke.none, List.mem_append_right xs broke.refused⟩

/-- A look alone is a wait without grace. -/
theorem lookAt_waited (env : Environment) (group : Pid) (past : Trace) :
    Attempt.Always (replying env) past (lookAt group)
      (fun gone past' => ∃ more, past' = past ++ more ∧ (∀ e ∈ more, Looks group e.request) ∧
        (gone = true ↔ FoundGone env group past more))
      fun cause past' => ∃ more, past' = past ++ more ∧
        BrokeOff wrapper env group past cause more := by
  have looked := always_replying.1 (lookAt_glances env group past)
  refine always_replying.2 ?_
  generalize result : ((lookAt group).outcome.play env past).1 = r at looked
  cases r with
  | error cause =>
    have one : ∀ e ∈ ([⟨.poll group, .error cause⟩] : Trace), Looks group e.request :=
      List.forall_mem_singleton.2 .poll
    refine ⟨_, looked, signals_looks one, ?_, List.mem_cons_self⟩
    have nothing : ∀ e ∈ ([] : Trace), Glances group e.request := by simp
    rw [foundGone_look nothing, result]
    exact fun h => nomatch h
  | ok gone =>
    obtain ⟨ended, glances, added, all⟩ := looked
    refine ⟨_, added, List.forall_mem_cons.2 ⟨.poll, fun e hm => .glance (all e hm)⟩, ?_⟩
    rw [foundGone_look all, result, Except.ok.injEq]

section Waiting
variable (timed : KeepsTime env)

include timed in
/-- One round of a wait. If the grace has not passed then, there is a pause before the next round. -/
theorem round_waits {rest : Attempt IoError Bool}
    (next : ∀ more, timeAfter env past < start + graceMs * 1000 →
      timeAfter env past + pollMs * 1000 ≤ timeAfter env (past ++ more) →
      Waits wrapper env group graceMs start (past ++ more) (past ++ more) rest) :
    Waits wrapper env group graceMs start past past (do
      if ← lookAt group then return true
      if graceMs * 1000 ≤ (← Plan.request .now) - start then return false
      Plan.request (.sleep pollMs)
      rest) := by
  refine Attempt.always_bind.2 ((lookAt_waited env group past).mono ?_ fun _ _ h => h)
  rintro gone past' ⟨xs, rfl, looks, found⟩
  have quiet : signals (events wrapper group xs) = [] := signals_looks looks
  cases gone with
  | true => exact Attempt.always_pure.2 ⟨xs, rfl, quiet, found, fun h => nomatch h⟩
  | false =>
    have none : ¬ FoundGone env group past xs := fun gone => nomatch found.2 gone
    refine Attempt.always_bind.2 (Attempt.always_lift.2 (always_request.2 ?_))
    rintro (last : Nat) past' ⟨time, rfl⟩
    -- nothing was found so far, whether the round goes on or not
    have silent (more : Trace) (looks : ∀ e ∈ more, Looks group e.request) :
        signals (events wrapper group (xs ++ ⟨.now, last⟩ :: more)) = [] := by
      have later : signals (events wrapper group (⟨.now, last⟩ :: more)) = [] :=
        (List.filterMap_cons_none rfl).trans (signals_looks looks)
      rw [signals_quiet _ later, quiet]
    have unseen (more : Trace) (others : ∀ e ∈ more, e.request ≠ .poll group) :
        ¬ FoundGone env group past (xs ++ ⟨.now, last⟩ :: more) := by
      rw [foundGone_append, or_iff_right none]
      exact not_foundGone (List.forall_mem_cons.2 ⟨(fun h => nomatch h), others⟩)
    rw [List.append_assoc]
    split
    · rename_i long
      refine Attempt.always_pure.2 ⟨_, rfl, silent [] (by simp), ?_, fun _ => ⟨xs, last, rfl, long⟩⟩
      exact iff_of_false (fun h => nomatch h) (unseen [] (by simp))
    · rename_i short
      refine Attempt.always_bind.2 (Attempt.always_lift.2 (always_request.2 ?_))
      rintro pause past' ⟨-, rfl⟩
      rw [List.append_assoc, List.append_assoc]
      have early : timeAfter env past < start + graceMs * 1000 := by
        have looked : timeAfter env past ≤ last := time ▸ timed.le past xs
        omega
      have paused : timeAfter env past + pollMs * 1000 ≤
          timeAfter env (past ++ (xs ++ [⟨.now, last⟩, ⟨.sleep pollMs, pause⟩])) := by
        have read := timed.le past (xs ++ [⟨.now, last⟩])
        have slept := timed.sleep (past ++ (xs ++ [⟨.now, last⟩])) pollMs
        rw [List.append_assoc, List.append_assoc] at slept
        exact Nat.le_trans (Nat.add_le_add_right read _) slept
      exact (next _ early paused).after (silent [_] (by simp [Looks.sleep]))
        (unseen [_] (by simp))

include timed in
/-- The grace is over before the looks are used up. -/
theorem waitFrom_waits (looks : Nat)
    (enough : start + graceMs * 1000 ≤ timeAfter env past + looks * (pollMs * 1000)) :
    Waits wrapper env group graceMs start past past (waitFrom group graceMs start (looks + 1)) := by
  induction looks generalizing past with
  | zero =>
    rw [waitFrom_succ]
    exact round_waits timed fun _ short _ => by omega
  | succ looks ih =>
    rw [waitFrom_succ]
    refine round_waits timed fun more _ paused => ih ?_
    calc start + graceMs * 1000
        ≤ timeAfter env past + (looks + 1) * (pollMs * 1000) := enough
      _ = timeAfter env past + pollMs * 1000 + looks * (pollMs * 1000) := by
        rw [Nat.succ_mul, ← Nat.add_assoc, Nat.add_right_comm]
      _ ≤ _ := Nat.add_le_add_right paused _

include timed in
/-- A wait goes on until a look finds the group gone or the grace is over. -/
theorem waitForGroup_waited (wrapper : List String) (graceMs : Nat) (past : Trace) :
    Attempt.Always (replying env) past (waitForGroup group graceMs)
      (fun gone past' => ∃ start more, past' = past ++ ⟨.now, start⟩ :: more ∧
        WaitedOut wrapper env group graceMs start (past ++ [⟨.now, start⟩]) gone more)
      fun cause past' => ∃ start more, past' = past ++ ⟨.now, start⟩ :: more ∧
        BrokeOff wrapper env group (past ++ [⟨.now, start⟩]) cause more := by
  refine Attempt.always_bind.2 (Attempt.always_lift.2 (always_request.2 ?_))
  rintro (start : Nat) past' ⟨time, rfl⟩
  have room : graceMs * 1000 ≤ (graceMs / pollMs + 1) * (pollMs * 1000) := by
    have full : graceMs ≤ graceMs / pollMs * pollMs + pollMs :=
      Nat.le_of_lt (Nat.lt_div_mul_add (by decide))
    rw [← Nat.mul_assoc, Nat.add_one_mul]
    exact Nat.mul_le_mul_right 1000 full
  have later : start ≤ timeAfter env (past ++ [⟨.now, start⟩]) := time ▸ timed.le past _
  have waits : Waits wrapper env group graceMs start (past ++ [⟨.now, start⟩])
      (past ++ [⟨.now, start⟩]) (waitFrom group graceMs start (graceMs / pollMs + 2)) :=
    waitFrom_waits timed _ (Nat.add_le_add later room)
  refine waits.mono ?_ ?_
  · rintro gone past' ⟨more, rfl, waited⟩
    exact ⟨start, more, List.append_assoc .., waited⟩
  · rintro cause past' ⟨more, rfl, broke⟩
    exact ⟨start, more, List.append_assoc .., broke⟩

end Waiting

end PatchTrial.Trial
