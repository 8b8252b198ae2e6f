import PatchTrial.Proofs.Plan.Asks
import PatchTrial.Trial.Run

/-!
What is asked to look after a target. A group is looked up in the roster, its leader is asked after,
time passes, and signals are sent to the group, directly or through a wrapper.

What is proved:
  1. `only_programPid`: the process under test is found by looking at the roster.
  2. `only_terminate`, `only_dispose`: to stop a group and to give up a target, nothing is asked that
     concerns another one.
-/
namespace PatchTrial.Trial

/-- Whether a request looks at the roster. -/
inductive IsLookup : Request → Prop
  | list : IsLookup (.list Roster.system.root)
  | read {pid : Pid} : IsLookup (.read (Roster.system.linePath pid))

/-- Whether a request is made to stop a group in some way, or to wait for its end. -/
inductive Tends (how : Terminator) (group : Pid) : Request → Prop
  | lookup {r : Request} : IsLookup r → Tends how group r
  | poll : Tends how group (.poll group)
  | signal {signal : Signal} : Tends how group (.signalGroup group signal)
  | command {wrapper : List String} {graceMs : Nat} {signal : String} :
    how = .escalated wrapper graceMs → wrapper ≠ [] →
      Tends how group (.run (killCommand wrapper group signal) none none)
  | now : Tends how group .now
  | sleep {ms : Nat} : Tends how group (.sleep ms)

/-- Whether a request is made to give up a target. -/
inductive GivesUp (t : Target) : Request → Prop
  | tends {r : Request} : Tends t.terminator t.pid r → GivesUp t r
  | kill : GivesUp t (.kill t.pid)
  | await : GivesUp t (.await t.pid)
  | retract : GivesUp t (.retract t.pid)

/-! ## The roster -/

theorem only_info? (pid : Pid) : (Roster.system.info? pid).Only IsLookup :=
  (Plan.Only.request .read).bind fun _ => .done _

theorem only_infos (pids : List Pid) : (Roster.system.infos pids).Only IsLookup := by
  induction pids with
  | nil => exact .done _
  | cons pid rest ih => exact (only_info? pid).bind fun _ => ih.bind fun _ => .done _

theorem only_scan : Roster.system.scan.outcome.Only IsLookup := by
  have listing : (Plan.request (.list Roster.system.root)).Only IsLookup := .request .list
  exact Attempt.only_bind (Attempt.only_of listing) fun _ => Attempt.only_lift (only_infos _)

theorem only_followWrappers (comm : String) (steps : Nat) (pid : Pid) :
    (Roster.system.followWrappers comm steps pid).Only IsLookup := by
  induction steps generalizing pid with
  | zero => exact .done _
  | succ steps ih =>
    refine (only_info? pid).bind fun info => ?_
    cases info with
    | none => exact .done _
    | some p =>
      dsimp only
      split
      · exact .done _
      · have children : (Roster.system.liveChildren pid).outcome.Only IsLookup :=
          Attempt.only_bind only_scan fun _ => .done _
        refine children.bind fun r => ?_
        split
        · exact ih _
        · exact .done _

/-- The process under test is found by looking at the roster. -/
theorem only_programPid (t : Target) : t.programPid.Only IsLookup := by
  rw [Target.programPid]
  split
  · exact only_followWrappers _ _ _
  · exact .done _

/-! ## Stopping a group -/

section Stopping
variable (how : Terminator) (group : Pid)

theorem only_signalGroup (signal : Signal) :
    (signalGroup group signal).outcome.Only (Tends how group) := by
  have sent : (Plan.request (.signalGroup group signal)).Only (Tends how group) := .request .signal
  refine sent.bind fun r => ?_
  cases r <;> exact .done _

theorem only_groupIsAlive : (groupIsAlive group).Only (Tends how group) := by
  have found : (Roster.system.groupIsLive group).outcome.Only (Tends how group) :=
    Plan.Only.mono (Attempt.only_bind only_scan fun _ => .done _) fun _ => .lookup
  refine found.bind fun r => ?_
  cases r with
  | ok alive => exact .done _
  | error e =>
    have asked : (Plan.request (.signalGroup group 0)).Only (Tends how group) := .request .signal
    refine asked.bind fun r => ?_
    cases r <;> exact .done _

theorem only_waitFrom (graceMs start looks : Nat) :
    (waitFrom group graceMs start looks).outcome.Only (Tends how group) := by
  induction looks with
  | zero => exact Attempt.only_pure false
  | succ looks ih =>
    have polled : (Plan.request (.poll group)).Only (Tends how group) := .request .poll
    refine Attempt.only_bind (Attempt.only_of polled) fun ended => ?_
    -- what is done after a look that does not find the group gone
    have more : (do
        if graceMs * 1000 ≤ (← Plan.request .now) - start then return false
        Plan.request (.sleep pollMs)
        waitFrom group graceMs start looks : Attempt IoError Bool).outcome.Only
          (Tends how group) := by
      have now : (Plan.request .now).Only (Tends how group) := .request .now
      refine Attempt.only_bind (Attempt.only_lift now) fun _ => ?_
      split
      · exact Attempt.only_pure false
      · have slept : (Plan.request (.sleep pollMs)).Only (Tends how group) := .request .sleep
        exact Attempt.only_bind (Attempt.only_lift slept) fun _ => ih
    cases ended with
    | none => exact more
    | some status =>
      refine Attempt.only_bind (Attempt.only_lift (only_groupIsAlive how group)) fun alive => ?_
      cases alive with
      | false => exact Attempt.only_pure true
      | true => exact more

theorem only_waitForGroup (graceMs : Nat) :
    (waitForGroup group graceMs).outcome.Only (Tends how group) := by
  have now : (Plan.request .now).Only (Tends how group) := .request .now
  exact Attempt.only_bind (Attempt.only_lift now) fun _ => only_waitFrom how group graceMs _ _

theorem only_killThrough {wrapper : List String} {graceMs : Nat}
    (through : how = .escalated wrapper graceMs) (signal : String) :
    (killThrough wrapper group signal).outcome.Only (Tends how group) := by
  cases wrapper with
  | nil => exact Attempt.only_throw _
  | cons first rest =>
    have sent : Tends how group (.run (killCommand (first :: rest) group signal) none none) :=
      .command through (List.cons_ne_nil first rest)
    exact Attempt.only_bind (Attempt.only_of (.request sent)) fun _ => Attempt.only_pure ()

/-- To stop a group, nothing is asked that concerns another one. -/
theorem only_terminate : (how.terminate group).outcome.Only (Tends how group) := by
  have told : (how.tell group).outcome.Only (Tends how group) ∧
      (how.kill group).outcome.Only (Tends how group) := by
    cases how with
    | direct graceMs => exact ⟨only_signalGroup _ group _, only_signalGroup _ group _⟩
    | escalated wrapper graceMs =>
      exact ⟨only_killThrough _ group rfl _, only_killThrough _ group rfl _⟩
  have waits := only_waitForGroup how group how.graceMs
  refine Attempt.only_bind told.1 fun _ => Attempt.only_bind waits fun gone => ?_
  split
  · exact Attempt.only_pure ()
  refine Attempt.only_bind told.2 fun _ => Attempt.only_bind waits fun gone => ?_
  split
  · exact Attempt.only_pure ()
  · exact Attempt.only_throw _

end Stopping

/-- To stop a target, nothing is asked that concerns another one. -/
theorem only_stopTarget (t : Target) : t.terminate.Only (GivesUp t) := by
  rw [Target.terminate]
  split
  · exact .done _
  refine ((only_terminate t.terminator t.pid).mono fun _ => .tends).bind fun r => ?_
  cases r with
  | error e => exact .done _
  | ok u =>
    have asked : (Plan.request (.poll t.pid)).Only (GivesUp t) := .request (.tends .poll)
    refine asked.bind fun reply => ?_
    cases reply with
    | error e => exact .done _
    | ok status =>
      have given : (Plan.request (.retract t.pid)).Only (GivesUp t) := .request .retract
      exact given.bind fun _ => .done _

/-- To give up a target, nothing is asked that concerns another one. -/
theorem only_dispose (t : Target) : t.dispose.Only (GivesUp t) := by
  have given : (Plan.request (.retract t.pid)).Only (GivesUp t) := .request .retract
  rw [Target.dispose]
  split
  · exact .done _
  refine (only_stopTarget t).bind fun p => ?_
  obtain ⟨r, t'⟩ := p
  cases r with
  | ok u => exact given
  | error e =>
    have killed := (only_signalGroup t.terminator t.pid .kill).mono fun _ => GivesUp.tends
    have leader : (Plan.request (.kill t.pid)).Only (GivesUp t) := .request .kill
    have waited : (Plan.request (.await t.pid)).Only (GivesUp t) := .request .await
    exact killed.bind fun _ => leader.bind fun _ => waited.bind fun _ => given

end PatchTrial.Trial
