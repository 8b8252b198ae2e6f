import PatchTrial.Proofs.Machine.Interrupts
import PatchTrial.Proofs.Machine.Starting
import PatchTrial.Proofs.Suite.Signals

/-!
What an interrupt leaves behind while a suite is run. The group of a target is published after the
target was started, and taken back once its termination succeeded or it was given up.

What is proved:
  1. `interrupt_kills_iff`: an interrupt ends exactly the processes whose group is that of a target
     that was started, not just now, and not dismissed since.
  2. `just_started_survives`: an interrupt that comes before the group of a new target is published
     leaves the target running.
  3. `interrupt_spares_members`: this happens to a target that a machine really starts; and an
     interrupt spares whoever is left of a group whose termination was taken for a success.
-/
namespace PatchTrial.Suite
open Trial Machine

variable {c : Setting} {entries : List Entry} {env : Environment} {past : Trace}
variable {m m' : Machine} {signal : Signal} {pid : Pid} {p : Machine.Process}

/-- An interrupt ends the processes of the group that is published, as far as the requests tell. -/
theorem ended_iff_published (served : m.Serves past m') (guarded : m.guarded = true)
    (fresh : m.published = none) (alive : m'.killed = none) (forwarded : signal ∈ guardedSignals)
    (there : m'.process? pid = some p) (running : p.isRunning = true) :
    (m'.deliverToSelf signal).runs pid = false ↔ published past = some p.group := by
  obtain ⟨guarded, shown⟩ := Prod.mk.inj (served.watch guarded fresh)
  rw [ended_deliverToSelf alive guarded forwarded there running, shown]

/-! ## Whom an interrupt kills -/

/-- While a machine serves the requests of a suite, an interrupt at any moment ends exactly the
processes whose group is that of a target that was started, not just now, and not terminated with
success or given up since. -/
theorem interrupt_kills_iff (moment : past <+: ((run c entries).outcome.play env []).2)
    (served : m.Serves past m') (guarded : m.guarded = true) (fresh : m.published = none)
    (alive : m'.killed = none) (forwarded : signal ∈ guardedSignals)
    (there : m'.process? pid = some p) (running : p.isRunning = true) :
    (m'.deliverToSelf signal).runs pid = false ↔
      ∃ before start since, past = before ++ start :: since ∧ Starts p.group start ∧
        since ≠ [] ∧ ¬ Dismissed p.group since :=
  (ended_iff_published served guarded fresh alive forwarded there running).trans
    ((moment_run moment).published_iff p.group)

/-- What is asked when a target is started: the program and where it writes. -/
def spawned? : Request → Option (List String × Handle × Handle)
  | .spawn argv out err => some (argv, out, err)
  | _ => none

theorem spawned?_eq_some {r : Request} {argv : List String} {out err : Handle}
    (h : spawned? r = some (argv, out, err)) : r = .spawn argv out err := by
  cases r with
  | spawn => cases h; rfl
  | _ => cases h

/-- The group that is made the published one. -/
def announced? : Request → Option Pid
  | .publish group => some group
  | _ => none

theorem announced?_eq_some {r : Request} {group : Pid} (h : announced? r = some group) :
    r = .publish group := by
  cases r with
  | publish => cases h; rfl
  | _ => cases h

/-- Where a target is started and its group is published, and how the run ends. -/
theorem calm_starts : ∃ past more,
    ((run wrapping [plainEntry]).outcome.play calm []).2 =
      past ++ ⟨.spawn ["t/v0/test"] 1 1, .ok 7⟩ :: ⟨.publish 7, ()⟩ :: more ∧
    Trial.published past = none ∧
    Trial.published ((run wrapping [plainEntry]).outcome.play calm []).2 = none := by
  generalize htr : ((run wrapping [plainEntry]).outcome.play calm []).2 = all
  have facts : all[28]?.bind (fun e => spawned? e.request) = some (["t/v0/test"], 1, 1) ∧
      all[28]?.bind made? = some 7 ∧ all[29]?.bind (fun e => announced? e.request) = some 7 ∧
      Trial.published (all.take 28) = none ∧ Trial.published all = none := by
    rw [← htr]
    decide +kernel
  obtain ⟨spawned, made, announced, before, after⟩ := facts
  obtain ⟨start, atStart, spawned⟩ := Option.bind_eq_some_iff.1 spawned
  obtain ⟨⟨r, reply⟩, atNext, announced⟩ := Option.bind_eq_some_iff.1 announced
  obtain rfl := announced?_eq_some announced
  rw [atStart] at made
  have split : all = all.take 28 ++ start :: ⟨.publish 7, reply⟩ :: all.drop 30 := by
    obtain ⟨inRange, rfl⟩ := List.getElem?_eq_some_iff.1 atStart
    obtain ⟨nextInRange, next⟩ := List.getElem?_eq_some_iff.1 atNext
    rw [← next, ← List.drop_eq_getElem_cons, ← List.drop_eq_getElem_cons, List.take_append_drop]
  cases starts_iff.2 made with
  | spawn =>
    cases spawned?_eq_some spawned
    exact ⟨_, _, split, before, after⟩

/-- A target that a machine starts, and whose group is published then, ends at an interrupt. -/
theorem calm_interrupt_kills :
    ∃ past m, past <+: ((run wrapping [plainEntry]).outcome.play calm []).2 ∧
      unmanned.Serves past m ∧ m.killed = none ∧ m.runs 7 = true ∧
      (m.deliverToSelf Signal.interrupt).runs 7 = false := by
  obtain ⟨past, more, split, unpublished, -⟩ := calm_starts
  obtain ⟨m, started, alive⟩ := unmanned_starts 1 1
  obtain ⟨p, there, leads, running⟩ := start_leads started
  have moment : past ++ [⟨.spawn ["t/v0/test"] 1 1, .ok 7⟩] ++ [⟨.publish 7, ()⟩] <+:
      ((run wrapping [plainEntry]).outcome.play calm []).2 := ⟨more, by simp [split]⟩
  have before : unmanned.Serves past unmanned :=
    serves_of_watch rfl rfl past (Prod.ext rfl unpublished.symm)
  have served := (before.ask (.spawn ["t/v0/test"] 1 1) (.ok 7)).ask (.publish 7) ()
  rw [started] at served
  have runs : m.runs 7 = true := by
    rw [Machine.runs, there]
    exact running
  refine ⟨_, _, moment, served, alive, runs, ?_⟩
  refine (interrupt_kills_iff moment served rfl rfl alive (by decide) there running).2 ?_
  rw [leads]
  refine ((moment_run moment).published_iff 7).1 ?_
  rw [published_concat]
  rfl

/-! ## What is left behind -/

/-- Nothing is published when a target is started, nor right after that. -/
theorem unpublished_spawn {argv : List String} {out err : Handle} {reply : Except IoError Pid}
    (moment : past ++ [⟨.spawn argv out err, reply⟩] <+:
      ((run c entries).outcome.play env []).2) :
    Trial.published (past ++ [⟨.spawn argv out err, reply⟩]) = none := by
  have idle : Idle past := by
    cases proper_run moment with
    | start idle => exact idle
    | idle aside | beside aside => cases aside
    | tend _ tends =>
      cases tends with
      | lookup look => cases look
  rw [published_concat, idle.empty]
  rfl

/-- An interrupt that comes when a target was just started leaves it running. -/
theorem just_started_survives {argv : List String} {out err : Handle} {group : Pid}
    {started : Machine}
    (moment : past ++ [⟨.spawn argv out err, .ok group⟩] <+: ((run c entries).outcome.play env []).2)
    (served : m.Serves past m') (guarded : m.guarded = true) (fresh : m.published = none)
    (starts : m'.answer (.spawn argv out err) = (.ok group, started))
    (alive : started.killed = none) (forwarded : signal ∈ guardedSignals) :
    group ∈ started.membersOf group ∧ started.runs group = true ∧
      (started.deliverToSelf signal).runs group = true := by
  obtain ⟨p, there, leads, running⟩ := start_leads starts
  have next := served.ask (.spawn argv out err) (.ok group)
  rw [starts] at next
  have ended := ended_iff_published next guarded fresh alive forwarded there running
  rw [unpublished_spawn moment] at ended
  refine ⟨mem_membersOf.2 ⟨p, there, leads⟩, ?_, by simpa using ended⟩
  rw [runs, there]
  exact running

/-- An interrupt leaves a target running that a machine has just started. After a termination that
succeeds a member of the group may live, and an interrupt spares whoever is left of that group. -/
theorem interrupt_spares_members :
    (∃ past m, past ++ [⟨.spawn ["t/v0/test"] 1 1, .ok 7⟩] <+:
        ((run wrapping [plainEntry]).outcome.play calm []).2 ∧
      unmanned.Serves past unmanned ∧ unmanned.answer (.spawn ["t/v0/test"] 1 1) = (.ok 7, m) ∧
      m.killed = none ∧ 7 ∈ m.membersOf 7 ∧ m.runs 7 = true ∧
      (m.deliverToSelf Signal.interrupt).runs 7 = true) ∧
    (∃ w, Plan.Runs (answers 7) (withLeader (some (inGroup [0xFF] .sleeping)))
        ((Terminator.direct 5000).terminate 7).outcome (.ok ()) w ∧ w.IsMember 7 101) ∧
    ∃ before start since,
      before ++ start :: since <+: ((run wrapping [plainEntry]).outcome.play calm []).2 ∧
      Starts 7 start ∧ Dismissed 7 since ∧
      ∀ (m m' : Machine) (signal : Signal) (pid : Pid) (p : Machine.Process),
        m.guarded = true → m.published = none → m.Serves (before ++ start :: since) m' →
        m'.killed = none → signal ∈ guardedSignals → m'.process? pid = some p →
        p.isRunning = true → (m'.deliverToSelf signal).runs pid = true := by
  obtain ⟨past, more, split, unpublished, retracted⟩ := calm_starts
  refine ⟨?started, ?terminated, ?dismissed⟩
  case started =>
    obtain ⟨m, started, alive⟩ := unmanned_starts 1 1
    have moment : past ++ [⟨.spawn ["t/v0/test"] 1 1, .ok 7⟩] <+:
        ((run wrapping [plainEntry]).outcome.play calm []).2 :=
      ⟨⟨.publish 7, ()⟩ :: more, by simp [split]⟩
    have served : unmanned.Serves past unmanned :=
      serves_of_watch rfl rfl past (Prod.ext rfl unpublished.symm)
    exact ⟨past, m, moment, served, started, alive,
      just_started_survives moment served rfl rfl started alive (by decide)⟩
  case terminated =>
    obtain ⟨w, ran, lives, -⟩ := nameless_outlives (t := .direct 5000) (by simp)
    exact ⟨w, ran, lives⟩
  case dismissed =>
    have moment : past ++ ⟨.spawn ["t/v0/test"] 1 1, .ok 7⟩ :: ⟨.publish 7, ()⟩ :: more <+:
        ((run wrapping [plainEntry]).outcome.play calm []).2 := split ▸ List.prefix_refl _
    rw [split] at retracted
    refine ⟨past, _, _, moment, .spawn, ?_, ?_⟩
    · -- the group was published and is not any more, so the target was dismissed
      by_contra kept
      have shown := ((moment_run moment).published_iff 7).2
        ⟨past, _, _, rfl, .spawn, List.cons_ne_nil _ _, kept⟩
      rw [retracted] at shown
      cases shown
    · intro m m' signal pid p guarded fresh served alive heeded there running
      have ended := ended_iff_published served guarded fresh alive heeded there running
      rw [retracted] at ended
      simpa using ended

end PatchTrial.Suite
