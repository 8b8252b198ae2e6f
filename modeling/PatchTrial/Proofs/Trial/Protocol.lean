import PatchTrial.Proofs.Trial.Waits

/-!
The protocol by which a group is stopped: it is told to end, waited for, killed, and waited for once
more. The signals are sent directly or by a command. The group may change at any time, also while
the command runs; the grace counts from when the command is done.

What is proved:
  1. `terminate_protocol`: what is sent to a group to stop it, when, and what comes of it.
  2. `sends_direct`, `sends_escalated`: both ways to stop a group send their signals.
-/
namespace PatchTrial.Trial
open Plan

variable {wrapper : List String} {group : Pid} {env : Environment} {past : Trace}
  {graceMs start : Nat}

/-! ## Stopping a group -/

/-- Whatever sends a signal sends it, in one exchange. -/
def Delivers (wrapper : List String) (env : Environment) (group : Pid)
    (send : Attempt IoError Unit) (s : Signal) : Prop :=
  ∀ past, Attempt.Always (replying env) past send
    (fun _ past' => ∃ e, past' = past ++ [e] ∧ eventOf wrapper group e = .signal s)
    fun _ _ => False

/-- Both signals by which a group is stopped are sent when they should be. -/
structure Sends (wrapper : List String) (env : Environment) (group : Pid) (how : Terminator) :
    Prop where
  tell : Delivers wrapper env group (how.tell group) .terminate
  kill : Delivers wrapper env group (how.kill group) .kill

/-- A group was told to end in the first of some exchanges; in the others it was waited for through
the whole grace, and not found gone. -/
def Patient (wrapper : List String) (env : Environment) (group : Pid) (graceMs : Nat)
    (past before : Trace) : Prop :=
  ∃ tell start waited last, before = tell :: ⟨.now, start⟩ :: (waited ++ [⟨.now, last⟩]) ∧
    eventOf wrapper group tell = .signal .terminate ∧ graceMs * 1000 ≤ last - start ∧
    ¬ FoundGone env group past before

/-- What was done to stop a group, and what came of it. -/
structure Protocol (wrapper : List String) (env : Environment) (group : Pid) (graceMs : Nat)
    (timedOut : IoError) (past : Trace) (r : Except IoError Unit) (more : Trace) : Prop where
  /-- It is told to end first; it may be killed then, and nothing else is sent. -/
  sent : signals (events wrapper group more) = [.terminate] ∨
    signals (events wrapper group more) = [.terminate, .kill]
  /-- It is killed only if it was not gone when the whole grace had passed. -/
  patient : ∀ before e after, more = before ++ e :: after →
    eventOf wrapper group e = .signal .kill → Patient wrapper env group graceMs past before
  /-- It is stopped exactly when it was found gone. -/
  stopped : r = .ok () ↔ FoundGone env group past more
  /-- Otherwise the time is over after it was killed, unless its leader could not be asked after. -/
  ends : r = .ok () ∨
    r = .error timedOut ∧ signals (events wrapper group more) = [.terminate, .kill] ∨
    ∃ cause, r = .error cause ∧ ⟨.poll group, .error cause⟩ ∈ more

theorem signals_cons {e : Exchange} {s : Signal} (sent : eventOf wrapper group e = .signal s)
    (more : Trace) : signals (events wrapper group (e :: more)) =
      s :: signals (events wrapper group more) :=
  List.filterMap_cons_some (by rw [sent]; rfl)

theorem signals_clock (time : Nat) (more : Trace) :
    signals (events wrapper group (⟨.now, time⟩ :: more)) = signals (events wrapper group more) :=
  List.filterMap_cons_none rfl

theorem mem_signals {e : Exchange} {s : Signal} {more : Trace} (hm : e ∈ more)
    (sent : eventOf wrapper group e = .signal s) : s ∈ signals (events wrapper group more) :=
  List.mem_filterMap.2 ⟨_, List.mem_map_of_mem hm, by rw [sent]; rfl⟩

theorem signal_ne_poll {e : Exchange} {s : Signal} (sent : eventOf wrapper group e = .signal s) :
    e.request ≠ .poll group := by
  obtain ⟨r, reply⟩ := e
  rintro rfl
  cases sent

/-- A signal and a wait. -/
theorem round_always {send : Attempt IoError Unit} {s : Signal}
    (timed : KeepsTime env) (sends : Delivers wrapper env group send s)
    {rest : Bool → Attempt IoError Unit} {Q : Unit → Trace → Prop} {E : IoError → Trace → Prop}
    (next : ∀ e start more gone, eventOf wrapper group e = .signal s →
      WaitedOut wrapper env group graceMs start (past ++ [e, ⟨.now, start⟩]) gone more →
      Attempt.Always (replying env) (past ++ e :: ⟨.now, start⟩ :: more) (rest gone) Q E)
    (broken : ∀ e start more cause, eventOf wrapper group e = .signal s →
      BrokeOff wrapper env group (past ++ [e, ⟨.now, start⟩]) cause more →
      E cause (past ++ e :: ⟨.now, start⟩ :: more)) :
    Attempt.Always (replying env) past
      (do
        send
        rest (← waitForGroup group graceMs)) Q E := by
  refine Attempt.always_bind.2 ((sends past).mono ?_ fun _ _ h => h.elim)
  rintro - past' ⟨e, rfl, sent⟩
  refine Attempt.always_bind.2 ((waitForGroup_waited timed wrapper graceMs _).mono ?_ ?_)
  · rintro gone past' ⟨start, more, rfl, waited⟩
    rw [List.append_assoc] at waited ⊢
    exact next e start more gone sent waited
  · rintro cause past' ⟨start, more, rfl, broke⟩
    rw [List.append_assoc] at broke ⊢
    exact broken e start more cause sent broke

/-- A group that was told to end and then waited for was not killed. -/
theorem told_alone {tell e : Exchange} {start : Nat} {more : Trace} {s : Signal}
    (told : eventOf wrapper group tell = .signal .terminate)
    (quiet : signals (events wrapper group more) = [])
    (hm : e ∈ (tell :: ⟨.now, start⟩ :: more : Trace))
    (sent : eventOf wrapper group e = .signal s) : s = .terminate := by
  have one := mem_signals hm sent
  rw [signals_cons told, signals_clock, quiet] at one
  exact List.mem_singleton.1 one

/-- A group that was told to end and found gone, or could not be asked after. -/
theorem Protocol.told {tell : Exchange} {more : Trace} {r : Except IoError Unit}
    {timedOut : IoError} (told : eventOf wrapper group tell = .signal .terminate)
    (quiet : signals (events wrapper group more) = [])
    (stopped : r = .ok () ↔ FoundGone env group (past ++ [tell, ⟨.now, start⟩]) more)
    (ends : r = .ok () ∨ ∃ cause, r = .error cause ∧ ⟨.poll group, .error cause⟩ ∈ more) :
    Protocol wrapper env group graceMs timedOut past r (tell :: ⟨.now, start⟩ :: more) where
  sent := by
    rw [signals_cons told, signals_clock, quiet]
    exact .inl rfl
  patient before e after split kill := by
    have hm : e ∈ (tell :: ⟨.now, start⟩ :: more : Trace) :=
      split ▸ List.mem_append_right before List.mem_cons_self
    cases told_alone told quiet hm kill
  stopped := by
    have first : ¬ FoundGone env group past [tell, ⟨.now, start⟩] :=
      not_foundGone (by simp [signal_ne_poll told])
    rw [stopped]
    exact (foundGone_append.trans (or_iff_right first)).symm
  ends := ends.imp_right fun ⟨cause, failed, hm⟩ =>
    .inr ⟨cause, failed, List.mem_cons_of_mem _ (List.mem_cons_of_mem _ hm)⟩

/-- A group that was not gone when it had been told to end and waited for, and so was killed. -/
theorem Protocol.killed {tell kill : Exchange} {start start' : Nat} {more more' : Trace}
    {r : Except IoError Unit} {timedOut : IoError}
    (told : eventOf wrapper group tell = .signal .terminate)
    (waited : WaitedOut wrapper env group graceMs start (past ++ [tell, ⟨.now, start⟩]) false more)
    (killed : eventOf wrapper group kill = .signal .kill)
    (quiet : signals (events wrapper group more') = [])
    (stopped : r = .ok () ↔ FoundGone env group
      (past ++ (tell :: ⟨.now, start⟩ :: more) ++ [kill, ⟨.now, start'⟩]) more')
    (ends : r = .ok () ∨ r = .error timedOut ∨
      ∃ cause, r = .error cause ∧ ⟨.poll group, .error cause⟩ ∈ more') :
    Protocol wrapper env group graceMs timedOut past r
      ((tell :: ⟨.now, start⟩ :: more) ++ kill :: ⟨.now, start'⟩ :: more') := by
  have unseen : ¬ FoundGone env group past (tell :: ⟨.now, start⟩ :: more) := by
    have first : ¬ FoundGone env group past [tell, ⟨.now, start⟩] :=
      not_foundGone (by simp [signal_ne_poll told])
    have later := mt waited.found.2 Bool.false_ne_true
    exact fun gone => (foundGone_append.1 gone).elim first later
  -- the two waits send nothing, so these are all the signals
  have both : signals (events wrapper group
      ((tell :: ⟨.now, start⟩ :: more) ++ kill :: ⟨.now, start'⟩ :: more')) =
      [.terminate, .kill] := by
    rw [events_append, signals_append, signals_cons told, signals_cons killed, signals_clock,
      signals_clock, waited.quiet, quiet]
    rfl
  refine ⟨.inr both, fun before e after split sent => ?_, ?_, ?_⟩
  · have later : e ∉ (⟨.now, start'⟩ :: more' : Trace) := by
      intro hm
      have one := mem_signals hm sent
      rw [signals_clock, quiet] at one
      cases one
    rcases split_cons split later with ⟨rfl, -, -⟩ | ⟨between, early, -⟩
    · obtain ⟨looks, last, rfl, long⟩ := waited.late rfl
      exact ⟨tell, start, looks, last, rfl, told, long, unseen⟩
    · have hm : e ∈ (tell :: ⟨.now, start⟩ :: more : Trace) :=
        early ▸ List.mem_append_right before List.mem_cons_self
      cases told_alone told waited.quiet hm sent
  · have first : ¬ FoundGone env group (past ++ (tell :: ⟨.now, start⟩ :: more))
        [kill, ⟨.now, start'⟩] := not_foundGone (by simp [signal_ne_poll killed])
    rw [stopped, foundGone_append, or_iff_right unseen]
    exact (foundGone_append.trans (or_iff_right first)).symm
  · refine ends.imp_right fun other => other.imp (fun failed => ⟨failed, both⟩) ?_
    rintro ⟨cause, failed, hm⟩
    exact ⟨cause, failed, List.mem_append_right _
      (List.mem_cons_of_mem _ (List.mem_cons_of_mem _ hm))⟩

/-- What is sent to a group to stop it, when, and what comes of it. -/
theorem terminate_protocol {how : Terminator} (timed : KeepsTime env)
    (sends : Sends wrapper env group how) (past : Trace) :
    (how.terminate group).outcome.Always (replying env) past fun r past' => ∃ more,
      past' = past ++ more ∧
        Protocol wrapper env group how.graceMs (how.survived group) past r more := by
  have ended : Attempt.Always (replying env) past (how.terminate group)
      (fun _ past' => ∃ more, past' = past ++ more ∧
        Protocol wrapper env group how.graceMs (how.survived group) past (.ok ()) more)
      fun cause past' => ∃ more, past' = past ++ more ∧
        Protocol wrapper env group how.graceMs (how.survived group) past (.error cause) more := by
    refine round_always timed sends.tell ?_ ?_
    · intro e start more gone told waited
      cases gone with
      | true =>
        have gone := waited.found.1 rfl
        exact Attempt.always_pure.2
          ⟨_, rfl, .told told waited.quiet (iff_of_true rfl gone) (.inl rfl)⟩
      | false =>
        refine round_always timed sends.kill ?_ ?_
        · intro e' start' more' gone' killed waited'
          rw [List.append_assoc]
          cases gone' with
          | true =>
            have gone := waited'.found.1 rfl
            exact Attempt.always_pure.2 ⟨_, rfl,
              .killed told waited killed waited'.quiet (iff_of_true rfl gone) (.inl rfl)⟩
          | false =>
            have missed := mt waited'.found.2 Bool.false_ne_true
            exact Attempt.always_throw.2 ⟨_, rfl, .killed told waited killed waited'.quiet
              (iff_of_false (fun h => nomatch h) missed) (.inr (.inl rfl))⟩
        · intro e' start' more' cause killed broke
          rw [List.append_assoc]
          exact ⟨_, rfl, .killed told waited killed broke.quiet
            (iff_of_false (fun h => nomatch h) broke.none)
            (.inr (.inr ⟨cause, rfl, broke.refused⟩))⟩
    · intro e start more cause told broke
      exact ⟨_, rfl, .told told broke.quiet (iff_of_false (fun h => nomatch h) broke.none)
        (.inr ⟨cause, rfl, broke.refused⟩)⟩
  refine Plan.Always.mono ended fun r past' h => ?_
  cases r with
  | ok u => exact h
  | error cause => exact h

/-! ## Two ways to send signals -/

/-- A signal that is sent directly is sent, whether or not there is a group. -/
theorem delivers_signal {s : Signal} (nonzero : s ≠ 0)
    (answered : ∀ past, env past (.signalGroup group s) = .ok () ∨
      env past (.signalGroup group s) = .error .noSuchTarget) :
    Delivers wrapper env group (signalGroup group s) s := by
  intro past
  have sent : Always (replying env) past (signalGroup group s).outcome fun r past' =>
      r = .ok () ∧ past' = past ++ [⟨.signalGroup group s, env past (.signalGroup group s)⟩] := by
    refine always_bind.2 (always_request.2 ?_)
    rintro reply past' ⟨same, rfl⟩
    rcases answered past with replied | replied
    · rw [same, replied]
      exact always_done.2 ⟨rfl, rfl⟩
    · rw [same, replied]
      exact always_done.2 ⟨rfl, rfl⟩
  refine Plan.Always.mono sent ?_
  rintro r past' ⟨rfl, rfl⟩
  exact ⟨_, rfl, if_pos ⟨rfl, nonzero⟩⟩

/-- A signal that a command sends is sent if the command can be started. -/
theorem delivers_command {signal : String} {s : Signal} (nonempty : wrapper ≠ [])
    (starts : ∀ past, ∃ status,
      env past (.run (killCommand wrapper group signal) none none) = .ok status)
    (sends : ∀ reply, eventOf wrapper group
      ⟨.run (killCommand wrapper group signal) none none, reply⟩ = .signal s) :
    Delivers wrapper env group (killThrough wrapper group signal) s := by
  intro past
  cases wrapper with
  | nil => exact absurd rfl nonempty
  | cons program arguments =>
    refine Attempt.always_bind.2 (Attempt.always_of.2 (always_request.2 ?_))
    rintro reply past' ⟨same, rfl⟩
    obtain ⟨status, replied⟩ := starts past
    rw [same, replied]
    exact Attempt.always_pure.2 ⟨_, rfl, sends _⟩

theorem killCommand_kill_ne_term :
    killCommand wrapper group "-KILL" ≠ killCommand wrapper group "-TERM" := by
  intro same
  have two := List.append_cancel_left same
  simp at two

/-- No direct signal is refused but for want of a group. -/
theorem sends_direct {graceMs : Nat} (answered : ∀ past s, s ≠ 0 →
    env past (.signalGroup group s) = .ok () ∨
      env past (.signalGroup group s) = .error .noSuchTarget) :
    Sends wrapper env group (.direct graceMs) where
  tell := delivers_signal (by decide) fun past => answered past _ (by decide)
  kill := delivers_signal (by decide) fun past => answered past _ (by decide)

/-- The command can always be started. -/
theorem sends_escalated {graceMs : Nat} (nonempty : wrapper ≠ []) (starts : ∀ past signal, ∃ status,
    env past (.run (killCommand wrapper group signal) none none) = .ok status) :
    Sends wrapper env group (.escalated wrapper graceMs) where
  tell := delivers_command nonempty (fun past => starts past _) fun _ => if_pos rfl
  kill := delivers_command nonempty (fun past => starts past _) fun _ =>
    (if_neg killCommand_kill_ne_term).trans (if_pos rfl)

end PatchTrial.Trial
