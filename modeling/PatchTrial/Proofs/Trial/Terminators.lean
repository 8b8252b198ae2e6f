import PatchTrial.Proofs.Trial.Protocol
import PatchTrial.Proofs.Trial.Untroubled

/-!
The two ways to stop a group, side by side. Both follow the protocol, whatever the group does. What
is sent may differ all the same: a command takes its time, the grace counts from when it is done,
and a group that goes on in between gets more time to end by itself. Groups that behave alike
counted from there are sent the same.

What is proved:
  1. `waitForGroup_alike`: waits are alike for groups that behave alike, though their clocks may
     differ.
  2. `terminators_agree`: both ways follow the protocol; they send the same signals to a group that
     behaves alike, look at it at the same moments and come to the same.
  3. `slow_command_differs` (anti-vacuity): without that, a slow command sends less, and a stop that
     fails when it is done directly may succeed.
-/
namespace PatchTrial.Trial
open Plan

/-- How a group behaves over a time of its own, as it is seen by whoever stops it: what a look shows,
and how much of that time has passed, in microseconds. Both may depend on all that happened. -/
structure Behaviour where
  reply : List Event → (r : Request) → r.Reply
  clock : List Event → Nat

/-- A machine shows a group that behaves in some way. It may take time there to send a signal, which
the group does not notice: after so many signals, the clock is ahead of the group by so much. -/
structure ShowsGroup (wrapper : List String) (group : Pid) (b : Behaviour) (ahead : Nat → Nat)
    (env : Environment) : Prop where
  look : ∀ past r, Looks group r → env past r = b.reply (events wrapper group past) r
  now : ∀ past, env past .now = b.clock (events wrapper group past) +
    ahead (signals (events wrapper group past)).length

variable {wrapper : List String} {group : Pid} {b : Behaviour} {ahead ahead' : Nat → Nat}
  {env env' : Environment} {past past' : Trace} {graceMs start : Nat}

/-! ## Two runs -/

/-- Two plays come to the same, with the same events. -/
def Alike {α : Type} (wrapper : List String) (group : Pid) (x y : α × Trace) : Prop :=
  x.1 = y.1 ∧ events wrapper group x.2 = events wrapper group y.2

theorem Alike.bind {ε α β : Type} {x y : Attempt ε α} {f g : α → Attempt ε β}
    (h : Alike wrapper group (x.outcome.play env past) (y.outcome.play env' past'))
    (next : ∀ a, events wrapper group (x.outcome.play env past).2 =
        events wrapper group (y.outcome.play env' past').2 →
      Alike wrapper group ((f a).outcome.play env (x.outcome.play env past).2)
        ((g a).outcome.play env' (y.outcome.play env' past').2)) :
    Alike wrapper group ((x >>= f).outcome.play env past) ((y >>= g).outcome.play env' past') := by
  rw [Attempt.outcome_bind, Attempt.outcome_bind, Plan.play_bind, Plan.play_bind, ← h.1]
  cases result : (x.outcome.play env past).1 with
  | error e => exact ⟨rfl, h.2⟩
  | ok a => exact next a h.2

/-- No signal is sent while a group is looked at. -/
theorem signals_play {α : Type} {p : Plan α} (h : p.Only (Looks group)) :
    signals (events wrapper group (p.play env past).2) = signals (events wrapper group past) := by
  have looking : p.Adds env _ := .of_only h
  obtain ⟨more, added, looks⟩ := always_replying.1 (looking past)
  rw [added]
  exact signals_quiet _ (signals_looks looks)

/-- A wait goes on after a look that did not find the group gone. -/
theorem missed_play (env : Environment) (now : Trace) (rest : Attempt IoError Bool) :
    (if false = true then pure true
      else do
        if graceMs * 1000 ≤ (← Plan.request .now) - start then return false
        Plan.request (.sleep pollMs)
        rest : Attempt IoError Bool).outcome.play env now =
      if graceMs * 1000 ≤ (env now .now : Nat) - start then
        (.ok false, now ++ [⟨.now, env now .now⟩])
      else rest.outcome.play env (now ++ [⟨.now, env now .now⟩, ⟨.sleep pollMs, ()⟩]) := by
  rw [if_neg Bool.false_ne_true, Attempt.outcome_bind, Attempt.outcome_lift, Plan.play_bind,
    Plan.play_bind]
  simp only [Plan.request, Plan.play]
  split
  · rfl
  · rw [Attempt.outcome_bind, Attempt.outcome_lift, Plan.play_bind, Plan.play_bind]
    simp only [Plan.play, List.append_assoc]
    rfl

section Alike
variable (shows : ShowsGroup wrapper group b ahead env)
  (shows' : ShowsGroup wrapper group b ahead' env')
  (same : events wrapper group past = events wrapper group past')

include shows shows' same

/-- Looks see the same after the same events. -/
theorem look_alike {α : Type} {p : Plan α} (h : p.Only (Looks group)) :
    Alike wrapper group (p.play env past) (p.play env' past') := by
  induction p generalizing past past' with
  | done a => exact ⟨rfl, same⟩
  | ask r next ih =>
    obtain ⟨looks, later⟩ := Plan.Only.ask_iff.1 h
    have reply : env past r = env' past' r := by
      rw [shows.look past r looks, shows'.look past' r looks, same]
    rw [Plan.play, Plan.play, ← reply]
    refine ih _ ?_ (later _)
    rw [events_append, events_append, same]

/-- Waits are alike that began at one time of the group, whatever the clocks showed. -/
theorem waitFrom_alike {n : Nat} (sent : (signals (events wrapper group past)).length = n)
    (graceMs c looks : Nat) :
    Alike wrapper group ((waitFrom group graceMs (c + ahead n) looks).outcome.play env past)
      ((waitFrom group graceMs (c + ahead' n) looks).outcome.play env' past') := by
  induction looks generalizing past past' with
  | zero => exact ⟨rfl, same⟩
  | succ looks ih =>
    rw [waitFrom_succ, waitFrom_succ]
    have count : signals (events wrapper group ((lookAt group).outcome.play env past).2) =
        signals (events wrapper group past) := signals_play (only_lookAt group)
    refine (look_alike shows shows' same (only_lookAt group)).bind fun gone looked => ?_
    cases gone with
    | true => exact ⟨rfl, looked⟩
    | false =>
      generalize ((lookAt group).outcome.play env past).2 = now at looked count ⊢
      generalize ((lookAt group).outcome.play env' past').2 = now' at looked ⊢
      rw [← count] at sent
      -- both clocks tell the same time since the waits began
      have elapsed : (env now .now : Nat) - (c + ahead n) = env' now' .now - (c + ahead' n) := by
        rw [shows.now, shows'.now, ← looked, sent, Nat.add_sub_add_right, Nat.add_sub_add_right]
      rw [missed_play, missed_play, ← elapsed]
      split
      · exact ⟨rfl, by rw [events_append, events_append, looked]; rfl⟩
      · refine ih (by rw [events_append, events_append, looked]; rfl) ?_
        rw [signals_quiet [_, _] rfl, sent]

/-- Waits are alike for groups that behave alike. -/
theorem waitForGroup_alike (graceMs : Nat) :
    Alike wrapper group ((waitForGroup group graceMs).outcome.play env past)
      ((waitForGroup group graceMs).outcome.play env' past') := by
  have played (env : Environment) (past : Trace) :
      (waitForGroup group graceMs).outcome.play env past =
        (waitFrom group graceMs (env past .now) (graceMs / pollMs + 2)).outcome.play env
          (past ++ [⟨.now, env past .now⟩]) := by
    rw [waitForGroup, Attempt.outcome_bind, Attempt.outcome_lift, Plan.play_bind, Plan.play_bind]
    rfl
  have read : events wrapper group (past ++ [⟨.now, env past .now⟩]) =
      events wrapper group (past' ++ [⟨.now, env' past' .now⟩]) := by
    rw [events_append, events_append, same]
    rfl
  have waited := waitFrom_alike shows shows' read
    (congrArg List.length (signals_quiet [_] rfl)) graceMs
    (b.clock (events wrapper group past)) (graceMs / pollMs + 2)
  rw [← shows.now, same, ← shows'.now] at waited
  rw [played, played]
  exact waited

end Alike

/-- What a signal that is sent comes to, and its event. -/
theorem Delivers.alike {send send' : Attempt IoError Unit} {s : Signal}
    (sends : Delivers wrapper env group send s) (sends' : Delivers wrapper env' group send' s)
    (same : events wrapper group past = events wrapper group past') :
    Alike wrapper group (send.outcome.play env past) (send'.outcome.play env' past') := by
  have played {env : Environment} {send : Attempt IoError Unit}
      (sends : Delivers wrapper env group send s) (past : Trace) :
      (send.outcome.play env past).1 = .ok () ∧
        events wrapper group (send.outcome.play env past).2 =
          events wrapper group past ++ [.signal s] := by
    have sent := always_replying.1 (sends past)
    generalize send.outcome.play env past = result at sent
    obtain ⟨r, past'⟩ := result
    cases r with
    | error e => exact sent.elim
    | ok u =>
      obtain ⟨e, rfl, event⟩ := sent
      exact ⟨rfl, by rw [events_append, ← event]; rfl⟩
  obtain ⟨result, added⟩ := played sends past
  obtain ⟨result', added'⟩ := played sends' past'
  exact ⟨result.trans result'.symm, by rw [added, added', same]⟩

/-- Both results are the same, but that the words for a group that was not stopped in time may
differ. -/
inductive SameKind (how how' : Terminator) (group : Pid) :
    Except IoError Unit → Except IoError Unit → Prop
  | stopped : SameKind how how' group (.ok ()) (.ok ())
  | timedOut : SameKind how how' group (.error (how.survived group)) (.error (how'.survived group))
  | refused (cause : IoError) : SameKind how how' group (.error cause) (.error cause)

/-- To stop a group is to try to and to say whether it is gone. -/
def stopping (how : Terminator) (group : Pid) : Attempt IoError Bool := do
  how.tell group
  if ← waitForGroup group how.graceMs then return true
  how.kill group
  waitForGroup group how.graceMs

theorem terminate_stopping (how : Terminator) (group : Pid) :
    how.terminate group = (do
      if ← stopping how group then return ()
      throw (how.survived group)) := by
  rw [stopping, LawfulMonad.bind_assoc]
  refine congrArg (_ >>= ·) (funext fun _ => Eq.trans ?_ (LawfulMonad.bind_assoc _ _ _).symm)
  refine congrArg (_ >>= ·) (funext fun gone => ?_)
  cases gone with
  | true => rfl
  | false => exact (LawfulMonad.bind_assoc _ _ _).symm

/-- Two ways to stop a group that behaves alike, if their signals get there, send the same, look at
the group at the same moments, and come to the same. -/
theorem terminate_alike {how how' : Terminator} (grace : how'.graceMs = how.graceMs)
    (sends : Sends wrapper env group how) (sends' : Sends wrapper env' group how')
    (shows : ShowsGroup wrapper group b ahead env) (shows' : ShowsGroup wrapper group b ahead' env')
    (same : events wrapper group past = events wrapper group past') :
    SameKind how how' group ((how.terminate group).outcome.play env past).1
        ((how'.terminate group).outcome.play env' past').1 ∧
      events wrapper group ((how.terminate group).outcome.play env past).2 =
        events wrapper group ((how'.terminate group).outcome.play env' past').2 := by
  -- up to the words for a group that was not stopped in time, both do the same
  have alike : Alike wrapper group ((stopping how group).outcome.play env past)
      ((stopping how' group).outcome.play env' past') := by
    rw [stopping, stopping, grace]
    refine (sends.tell.alike sends'.tell same).bind fun _ told => ?_
    refine (waitForGroup_alike shows shows' told _).bind fun gone waited => ?_
    cases gone with
    | true => exact ⟨rfl, waited⟩
    | false =>
      refine (sends.kill.alike sends'.kill waited).bind fun _ killed => ?_
      exact waitForGroup_alike shows shows' killed _
  have played (how : Terminator) (env : Environment) (past : Trace) :
      (how.terminate group).outcome.play env past =
        (match ((stopping how group).outcome.play env past).1 with
          | .ok true => .ok ()
          | .ok false => .error (how.survived group)
          | .error cause => .error cause, ((stopping how group).outcome.play env past).2) := by
    rw [terminate_stopping, Attempt.outcome_bind, Plan.play_bind]
    cases ((stopping how group).outcome.play env past).1 with
    | error cause => rfl
    | ok gone => cases gone <;> rfl
  rw [played, played, ← alike.1]
  refine ⟨?_, alike.2⟩
  cases ((stopping how group).outcome.play env past).1 with
  | error cause => exact .refused cause
  | ok gone =>
    cases gone with
    | true => exact .stopped
    | false => exact .timedOut

/-- Whether signals are sent directly or by a command, the protocol is the same. If no signal is
refused but for want of a group, and the command can be started and sends what it should, then both
ways keep to the protocol, whatever the group does and however long the command runs. A group that
behaves alike in both runs is sent the same signals at the same moments, and both come to the
same. -/
theorem terminators_agree (group : Pid) (graceMs : Nat) (nonempty : wrapper ≠ [])
    (timed : KeepsTime env) (timed' : KeepsTime env')
    (answered : ∀ past s, s ≠ 0 → env past (.signalGroup group s) = .ok () ∨
      env past (.signalGroup group s) = .error .noSuchTarget)
    (starts : ∀ past signal, ∃ status,
      env' past (.run (killCommand wrapper group signal) none none) = .ok status)
    (past past' : Trace) :
    ∃ r r' more more',
      ((Terminator.direct graceMs).terminate group).outcome.play env past = (r, past ++ more) ∧
      ((Terminator.escalated wrapper graceMs).terminate group).outcome.play env' past' =
        (r', past' ++ more') ∧
      Protocol wrapper env group graceMs ((Terminator.direct graceMs).survived group) past r more ∧
      Protocol wrapper env' group graceMs ((Terminator.escalated wrapper graceMs).survived group)
        past' r' more' ∧
      ∀ b ahead ahead', ShowsGroup wrapper group b ahead env →
        ShowsGroup wrapper group b ahead' env' →
        events wrapper group past = events wrapper group past' →
        events wrapper group more = events wrapper group more' ∧
          SameKind (.direct graceMs) (.escalated wrapper graceMs) group r r' := by
  have sends : Sends wrapper env group (.direct graceMs) := sends_direct answered
  have sends' : Sends wrapper env' group (.escalated wrapper graceMs) :=
    sends_escalated nonempty starts
  obtain ⟨more, added, keeps⟩ := always_replying.1 (terminate_protocol timed sends past)
  obtain ⟨more', added', keeps'⟩ := always_replying.1 (terminate_protocol timed' sends' past')
  refine ⟨_, _, more, more', Prod.ext rfl added, Prod.ext rfl added', keeps, keeps', ?_⟩
  intro b ahead ahead' shows shows' same
  have grace : (Terminator.escalated wrapper graceMs).graceMs =
      (Terminator.direct graceMs).graceMs := rfl
  obtain ⟨kind, all⟩ := terminate_alike grace sends sends' shows shows' same
  rw [added, added', events_append, events_append, same] at all
  exact ⟨List.append_cancel_left all, kind⟩

/-! ## Groups in time -/

/-- How long an event takes, in microseconds, if it takes so long to send a signal. -/
def Event.takes (sending : Nat) : Event → Nat
  | signal _ => sending
  | look ⟨.sleep ms, _⟩ => ms * 1000
  | _ => 0

/-- How long some events take. -/
def elapsed (sending : Nat) : List Event → Nat
  | [] => 0
  | e :: history => e.takes sending + elapsed sending history

/-- The signals that are sent in some events, each with the time at which it is there. The events
begin at a given time. -/
def sentAt (sending : Nat) : Nat → List Event → List (Nat × Signal)
  | _, [] => []
  | time, e :: history =>
    (e.signal?.map fun s => (time, s)).toList ++ sentAt sending (time + e.takes sending) history

/-- A group in time: what a look at it shows at some time, when some signals were sent before. -/
structure TimedGroup where
  shown : (sent : List (Nat × Signal)) → (time : Nat) → (r : Request) → r.Reply

theorem elapsed_append (sending : Nat) (history more : List Event) :
    elapsed sending (history ++ more) = elapsed sending history + elapsed sending more := by
  induction history with
  | nil => exact (Nat.zero_add _).symm
  | cons e history ih => rw [List.cons_append, elapsed, elapsed, ih, Nat.add_assoc]

theorem elapsed_eq (sending : Nat) (history : List Event) :
    elapsed sending history = elapsed 0 history + (signals history).length * sending := by
  induction history with
  | nil => simp [elapsed, signals]
  | cons e history ih =>
    rw [elapsed, elapsed, ih]
    -- only a signal takes longer than it would if it took no time to send one
    cases e with
    | signal s =>
      have count : (signals (.signal s :: history)).length = (signals history).length + 1 := rfl
      rw [count, Event.takes, Event.takes, Nat.succ_mul]
      omega
    | clock =>
      have count : signals (.clock :: history) = signals history := rfl
      have none (sending : Nat) : Event.clock.takes sending = 0 := rfl
      rw [count, none, none, Nat.add_assoc]
    | look d =>
      have count : signals (.look d :: history) = signals history := rfl
      have same : (Event.look d).takes sending = (Event.look d).takes 0 := by
        obtain ⟨r, reply⟩ := d
        cases r <;> rfl
      rw [count, same, Nat.add_assoc]

namespace TimedGroup
variable (g : TimedGroup) (wrapper : List String) (group : Pid) (sending seen : Nat)

/-- A machine with a group on which nothing goes wrong. It takes a while to send a signal; what the
group notices of that while may be less, or all of it, as in real time. -/
def machine : Environment
  | past, .now => elapsed sending (events wrapper group past)
  | past, .signalGroup p s =>
    if s = 0 then g.shown (sentAt seen 0 (events wrapper group past))
      (elapsed seen (events wrapper group past)) (.signalGroup p s)
    else .ok ()
  | _, .run _ _ _ => .ok (.exited 0)
  | past, r => g.shown (sentAt seen 0 (events wrapper group past))
      (elapsed seen (events wrapper group past)) r

theorem timeAfter_machine (past more : Trace) :
    timeAfter (g.machine wrapper group sending seen) (past ++ more) =
      timeAfter (g.machine wrapper group sending seen) past +
        elapsed sending (events wrapper group more) :=
  (congrArg _ (events_append past more)).trans (elapsed_append _ _ _)

theorem keepsTime_machine : KeepsTime (g.machine wrapper group sending seen) where
  le past more := by
    rw [timeAfter_machine]
    exact Nat.le_add_right _ _
  sleep past ms := by
    have pause : elapsed sending (events wrapper group [⟨.sleep ms, ()⟩]) = ms * 1000 :=
      Nat.add_zero _
    exact Nat.le_of_eq (by rw [timeAfter_machine, pause])

/-- How the group behaves if the time that it takes to send a signal does not count. -/
def behaviour : Behaviour where
  reply history := g.shown (sentAt 0 0 history) (elapsed 0 history)
  clock := elapsed 0

theorem showsGroup_machine :
    ShowsGroup wrapper group g.behaviour (fun n => n * sending)
      (g.machine wrapper group sending 0) where
  look past r looks := by
    cases looks with
    | glance glance =>
      cases glance with
      | lookup lookup => cases lookup <;> rfl
      | probe => rfl
    | _ => rfl
  now past := elapsed_eq sending _

end TimedGroup

/-- A group whose only process, the leader, ends some time after it was told to. If it may be killed,
it ends at once when it is. -/
def sluggish (lasts : Nat) (mayBeKilled : Bool) : TimedGroup where
  shown sent time
    | .poll _ => .ok (
        if mayBeKilled && sent.any (·.2 == .kill) then some (.killed 9)
        else if sent.any fun s => s.2 == .terminate && s.1 + lasts ≤ time then some (.exited 0)
        else none)
    | r => untroubled (fun _ _ => false) (fun _ => []) [] r

/-- Both ways tell such a group to end and kill it after the grace, if the time that it takes to run
the command does not count for it. -/
theorem sluggish_agree :
    ∃ r r' more more',
      ((Terminator.direct 50).terminate 7).outcome.play
        ((sluggish 60000 true).machine ["sudo"] 7 0 0) [] = (r, more) ∧
      ((Terminator.escalated ["sudo"] 50).terminate 7).outcome.play
        ((sluggish 60000 true).machine ["sudo"] 7 100000 0) [] = (r', more') ∧
      events ["sudo"] 7 more = events ["sudo"] 7 more' ∧
      SameKind (.direct 50) (.escalated ["sudo"] 50) 7 r r' ∧
      r = .ok () ∧ signals (events ["sudo"] 7 more) = [.terminate, .kill] := by
  have agree := terminators_agree 7 50 (by decide : ["sudo"] ≠ [])
    ((sluggish 60000 true).keepsTime_machine ["sudo"] 7 0 0)
    ((sluggish 60000 true).keepsTime_machine ["sudo"] 7 100000 0)
    (fun _ s nonzero => .inl (if_neg nonzero)) (fun _ _ => ⟨.exited 0, rfl⟩) [] []
  obtain ⟨r, r', more, more', played, played', -, -, alike⟩ := agree
  obtain ⟨same, kind⟩ := alike _ _ _ ((sluggish 60000 true).showsGroup_machine ["sudo"] 7 0)
    ((sluggish 60000 true).showsGroup_machine ["sudo"] 7 100000) rfl
  have ended : (((Terminator.direct 50).terminate 7).outcome.play
        ((sluggish 60000 true).machine ["sudo"] 7 0 0) []).1 = .ok () ∧
      signals (events ["sudo"] 7 (((Terminator.direct 50).terminate 7).outcome.play
        ((sluggish 60000 true).machine ["sudo"] 7 0 0) []).2) = [.terminate, .kill] := by
    decide +kernel
  rw [played] at ended
  exact ⟨r, r', more, more', played, played', same, kind, ended⟩

/-- What becomes of stopping group 7 in real time. -/
def inRealTime (g : TimedGroup) (how : Terminator) (sending : Nat) : Except IoError Unit × Trace :=
  (how.terminate 7).outcome.play (g.machine ["sudo"] 7 sending sending) []

/-- In real time the two ways may differ. A group that ends 60 ms after it was told to is killed
after a grace of 50 ms, but not if the command that tells it runs for 100 ms. One that cannot be
killed and ends after 130 ms survives both signals, but not if that command runs for 150 ms. -/
theorem slow_command_differs :
    (∀ (g : TimedGroup) (sending : Nat), KeepsTime (g.machine ["sudo"] 7 sending sending) ∧
      (∀ past s, s ≠ 0 → g.machine ["sudo"] 7 sending sending past (.signalGroup 7 s) = .ok ()) ∧
      ∀ past signal, g.machine ["sudo"] 7 sending sending past
        (.run (killCommand ["sudo"] 7 signal) none none) = .ok (.exited 0)) ∧
    (signals (events ["sudo"] 7 (inRealTime (sluggish 60000 true) (.direct 50) 0).2) =
        [.terminate, .kill] ∧
      signals (events ["sudo"] 7
        (inRealTime (sluggish 60000 true) (.escalated ["sudo"] 50) 100000).2) = [.terminate]) ∧
    (inRealTime (sluggish 130000 false) (.direct 50) 0).1 =
        .error ((Terminator.direct 50).survived 7) ∧
      (inRealTime (sluggish 130000 false) (.escalated ["sudo"] 50) 150000).1 = .ok () := by
  refine ⟨fun g sending => ?_, ?_, ?_⟩
  · exact ⟨g.keepsTime_machine _ _ _ _, fun _ _ nonzero => if_neg nonzero, fun _ _ => rfl⟩
  · decide +kernel
  · decide +kernel

end PatchTrial.Trial
