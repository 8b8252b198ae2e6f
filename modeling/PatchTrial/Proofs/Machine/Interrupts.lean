import PatchTrial.Machine.Trials
import PatchTrial.Proofs.Trial.Custody

/-!
Interrupts of a machine. One that comes while the program guards against it kills the processes of
the published group, and no others, and then the program.

What is proved:
  1. `watch_turn`, `watch_answer`: no step of a process changes what an interrupt goes by, and a
     request changes it as the trace of requests tells.
  2. `Serves.watch`: so what an interrupt goes by can be read off the requests, whatever the
     processes do in between and whatever the replies are.
  3. `runs_deliverToSelf`: which processes run after an interrupt.
  4. `start_leads`: a process that was started to lead a group runs and leads it.
-/
namespace PatchTrial.Machine
open Trial (republish published_concat)

/-! ## What an interrupt goes by -/

/-- What an interrupt goes by: whether interrupts are guarded, and the published group. -/
def watch (m : Machine) : Bool × Option Pid := (m.guarded, m.published)

section
variable (m : Machine) (pid : Pid) (p : Process)

theorem watch_foldl {α : Type} {f : Machine → α → Machine} (h : ∀ m a, (f m a).watch = m.watch)
    (xs : List α) (m : Machine) : (xs.foldl f m).watch = m.watch := by
  induction xs generalizing m with
  | nil => rfl
  | cons a rest ih => rw [List.foldl_cons, ih, h]

@[simp] theorem watch_setProcess : (m.setProcess pid p).watch = m.watch := rfl

@[simp] theorem watch_forget : (m.forget pid).watch = m.watch := rfl

@[simp] theorem watch_update (f : Process → Process) : (m.update pid f).watch = m.watch := by
  rw [update]
  split <;> rfl

/-- What becomes of another process when one ends: a child goes to the first process, and is given
up if it ended. -/
def orphan (pid : Pid) (m : Machine) (e : Nat × Process) : Machine :=
  if e.2.parent = pid then
    if e.2.isRunning then m.update e.1 fun c => { c with parent := firstPid } else m.forget e.1
  else m

theorem finish_eq (status : ExitStatus) :
    m.finish pid status = match m.process? pid with
      | none => m
      | some p =>
        let m := m.processes.toList.foldl (orphan pid) m
        if p.parent = firstPid then m.forget pid
        else m.setProcess pid { p with
          life := .ended status, files := [], stopped := false, held := [], wake := none } :=
  rfl

@[simp] theorem watch_finish (status : ExitStatus) : (m.finish pid status).watch = m.watch := by
  have children : (m.processes.toList.foldl (orphan pid) m).watch = m.watch :=
    watch_foldl (fun m e => by rw [orphan]; split_ifs <;> simp) _ m
  rw [finish_eq]
  split
  · rfl
  · dsimp only
    split_ifs <;> simpa using children

@[simp] theorem watch_deliverTo (signal : Signal) : (m.deliverTo pid p signal).watch = m.watch := by
  rw [deliverTo]
  split_ifs <;> simp

@[simp] theorem watch_deliver (signal : Signal) : (m.deliver pid signal).watch = m.watch := by
  rw [deliver]
  split
  · rfl
  · split_ifs
    · rfl
    · rw [watch_foldl fun m s => ?_]
      · simp
      · split
        · split_ifs <;> simp
        · rfl
    · simp

@[simp] theorem watch_deliverToSelf (signal : Signal) :
    (m.deliverToSelf signal).watch = m.watch := by
  rw [deliverToSelf]
  split
  · rfl
  · dsimp only
    split
    · split
      · exact watch_foldl (fun m pid => watch_deliver m pid _) _ _
      · rfl
    · rfl

@[simp] theorem watch_send (signal : Signal) : (m.send pid signal).watch = m.watch := by
  rw [send]
  split_ifs <;> simp

theorem watch_sendAll {pids : List Pid} {signal : Signal} {m' : Machine}
    (h : m.sendAll pids signal = .ok m') : m'.watch = m.watch := by
  rw [sendAll] at h
  split_ifs at h
  · cases h
    rfl
  · cases h
    exact watch_foldl (fun m pid => watch_send m pid signal) pids m

/-! ## Calls -/

namespace Result

def machine {c : Call} : Result c → Machine
  | .blocked m => m
  | .replied _ m => m
  | .became m => m

end Result

@[simp] theorem watch_ofFiles {ε : Type} (r : Except ε Files) :
    (Result.ofFiles m r).2.watch = m.watch := by
  cases r <;> rfl

@[simp] theorem watch_writeNode (file : Nat) (o : OpenFile) (id : Nat) (b : Bytes) :
    (m.writeNode file o id b).2.watch = m.watch := by
  rw [writeNode]
  split <;> rfl

theorem watch_writeCall (n : Nat) (b : Bytes) :
    (m.writeCall pid p n b).machine.watch = m.watch := by
  rw [writeCall]
  split
  · rfl
  · split
    · rfl
    · split
      · rfl
      · split
        · exact watch_deliver m pid _
        · dsimp only
          split <;> rfl
      · exact watch_writeNode m _ _ _ _

theorem watch_readCall (n most : Nat) : (m.readCall p n most).machine.watch = m.watch := by
  rw [readCall]
  split
  · rfl
  · split
    · rfl
    · dsimp only
      split
      · split <;> rfl
      · rfl
    · split <;> rfl

theorem watch_waitCall (child : Option Pid) (block : Bool) :
    (m.waitCall pid p child block).machine.watch = m.watch := by
  rw [waitCall]
  repeat' split
  all_goals rfl

theorem watch_execCall (path : Text) (argv : List Text) (env : Environment) :
    (m.execCall pid p path argv env).machine.watch = m.watch := by
  rw [execCall]
  split <;> rfl

theorem watch_sleepCall (time : Nat) : (m.sleepCall pid p time).machine.watch = m.watch := by
  rw [sleepCall]
  repeat' split
  all_goals rfl

/-- No call of a process changes what an interrupt goes by. -/
theorem watch_attempt (c : Call) : (m.attempt pid p c).machine.watch = m.watch := by
  cases c with
  | write n b => exact watch_writeCall m pid p n b
  | read n most => exact watch_readCall m p n most
  | wait child block => exact watch_waitCall m pid p child block
  | exec path argv env => exact watch_execCall m pid p path argv env
  | sleep time => exact watch_sleepCall m pid p time
  | kill whom signal =>
    rw [attempt]
    split
    · next sent => exact watch_sendAll m sent
    · rfl
  | makeFolder | removeFolder | remove | rename | link | makeLink => exact watch_ofFiles m _
  | _ =>
    simp only [attempt]
    repeat' split
    all_goals rfl

/-! ## Turns -/

/-- No step of a process changes what an interrupt goes by. -/
theorem watch_turn : (m.turn pid).1.watch = m.watch := by
  rw [turn]
  split
  · rfl
  · next p _ =>
    split
    · rfl
    · split
      · rfl
      · rfl
      · exact watch_finish m pid _
      · exact watch_update _ pid _
      · next c next _ =>
        have kept := watch_attempt m pid p c
        split
        · next e =>
          rw [e] at kept
          exact kept
        · next m' e =>
          rw [e] at kept
          exact (watch_update m' pid _).trans kept
        · next e =>
          rw [e] at kept
          exact kept

theorem watch_round : m.round.1.watch = m.watch := by
  have all (pids : List Nat) (s : Machine × Bool) :
      (pids.foldl (fun s pid => ((s.1.turn pid).1, s.2 || (s.1.turn pid).2)) s).1.watch =
        s.1.watch := by
    induction pids generalizing s with
    | nil => rfl
    | cons pid rest ih =>
      rw [List.foldl_cons, ih]
      exact watch_turn s.1 pid
  exact all _ (m, false)

theorem watch_advance (done : Machine → Bool) (deadline : Option Nat) (budget : Nat) :
    (m.advance done deadline budget).2.watch = m.watch := by
  induction budget generalizing m with
  | zero => rfl
  | succ budget ih =>
    rw [advance]
    split
    · rfl
    · split
      · rfl
      · dsimp only
        split
        · exact (ih _).trans (watch_round m)
        · split
          · exact watch_round m
          · exact (ih _).trans (watch_round m)
          · exact watch_round m
          · exact (ih _).trans (watch_round m)

theorem watch_collect : (m.collect pid).2.watch = m.watch := by
  rw [collect]
  split
  · split <;> rfl
  · rfl

theorem watch_awaitEnd : (m.awaitEnd pid).2.watch = m.watch :=
  (watch_collect _ pid).trans (watch_advance m _ _ _)

/-! ## Requests -/

theorem watch_openFor (path : Path) (how : Files.Writing) :
    (m.openFor path how).2.watch = m.watch := by
  rw [openFor]
  split <;> rfl

theorem watch_writeTo (file : Handle) (b : Bytes) : (m.writeTo file b).2.watch = m.watch := by
  rw [writeTo]
  split
  · split
    · exact watch_writeNode m _ _ _ _
    · rfl
  · rfl

theorem watch_report (text : String) : (m.report text).2.watch = m.watch := by
  rw [report]
  split <;> rfl

theorem watch_openNull : m.openNull.2.watch = m.watch := by
  rw [openNull]
  split <;> rfl

theorem watch_start (argv : List String) (leads : Bool) (out err : Option Handle) :
    (m.start argv leads out err).2.watch = m.watch := by
  rw [start]
  split
  · rfl
  · split
    · rfl
    · exact watch_openNull m

/-- Whether a request makes the program guard against interrupts. -/
def guards : Request → Bool
  | .guard => true
  | _ => false

/-- What a request makes of what an interrupt goes by. -/
theorem watch_answer (r : Request) :
    (m.answer r).2.watch = (m.guarded || guards r, republish m.published r) := by
  -- only the first three requests below are about what an interrupt goes by
  have kept {m' : Machine} (h : m'.watch = m.watch) :
      m'.watch = (m.guarded || false, m.published) := by
    rw [h, Bool.or_false]
    rfl
  cases r with
  | guard => simp [answer, watch, guards, republish]
  | publish group => simp [answer, watch, guards, republish]
  | retract group =>
    simp only [answer, guards, republish, Bool.or_false]
    split <;> rfl
  | create path => exact kept (watch_openFor m path _)
  | openLog path mode => cases mode <;> exact kept (watch_openFor m path _)
  | write file b => exact kept (watch_writeTo m file b)
  | report text => exact kept (watch_report m text)
  | run argv out err =>
    refine kept ?_
    have started := watch_start m argv false out err
    rw [answer]
    split
    · next e =>
      rw [e] at started
      exact started
    · next pid m' e =>
      rw [e] at started
      have ended := (watch_awaitEnd m' pid).trans started
      split
      all_goals
        next e' =>
        rw [e'] at ended
        exact ended
  | spawn argv out err => exact kept (watch_start m argv true _ _)
  | poll pid =>
    refine kept ?_
    have collected := watch_collect m pid
    rw [answer]
    split
    · next e =>
      rw [e] at collected
      exact collected
    · next e =>
      rw [e] at collected
      split <;> exact collected
  | await pid =>
    refine kept ?_
    have ended := watch_awaitEnd m pid
    rw [answer]
    split
    all_goals
      next e =>
      rw [e] at ended
      exact ended
  | kill pid => exact kept (watch_send m pid _)
  | signalGroup group signal =>
    refine kept ?_
    rw [answer]
    split
    · next m' sent => exact watch_sendAll m sent
    · rfl
  | sleep ms => exact kept (watch_advance m _ _ _)
  | _ => exact kept rfl

end

/-! ## Serving requests -/

/-- A machine serves requests one after another. In between its processes, and whoever else is at
work there, may change everything but what an interrupt goes by, so that any reply can be had. -/
inductive Serves (m : Machine) : Trace → Machine → Prop
  | start : Serves m [] m
  | others {past : Trace} {m₁ m₂ : Machine} : Serves m past m₁ → m₂.watch = m₁.watch →
    Serves m past m₂
  | ask {past : Trace} {m₁ : Machine} (r : Request) (reply : r.Reply) : Serves m past m₁ →
    Serves m (past ++ [⟨r, reply⟩]) (m₁.answer r).2

section
variable {m m' : Machine} {past : Trace}

/-- A machine on which interrupts are guarded and no group was published when it began publishes
what the requests tell. -/
theorem Serves.watch (h : m.Serves past m') (guarded : m.guarded = true)
    (fresh : m.published = none) : m'.watch = (true, Trial.published past) := by
  induction h with
  | start => exact Prod.ext guarded fresh
  | others _ same ih => exact same.trans ih
  | ask r reply _ ih =>
    obtain ⟨guarded, shown⟩ := Prod.mk.inj ih
    rw [watch_answer, guarded, shown, published_concat]
    rfl

/-- Every machine that publishes what the requests tell can be had. -/
theorem serves_of_watch (guarded : m.guarded = true) (fresh : m.published = none) (past : Trace)
    (h : m'.watch = (true, Trial.published past)) : m.Serves past m' := by
  induction past using List.reverseRecOn generalizing m' with
  | nil => exact Serves.start.others (h.trans (Prod.ext guarded fresh).symm)
  | append_singleton past e ih =>
    -- the machine before the last request is any that publishes the right group; the one that is
    -- asked for differs from its successor in nothing that `others` may not change
    have before : m.Serves past { m with guarded := true, published := Trial.published past } :=
      ih rfl
    have after := before.ask e.request e.reply
    refine after.others (h.trans ?_)
    rw [after.watch guarded fresh]

/-! ## Which processes run -/

/-- Whether a process is there and runs. -/
def runs (m : Machine) (pid : Pid) : Bool := (m.process? pid).any Process.isRunning

@[simp] theorem process?_setProcess (m : Machine) (pid other : Pid) (p : Process) :
    (m.setProcess pid p).process? other = if pid = other then some p else m.process? other := by
  simp [setProcess, process?, Std.TreeMap.getElem?_insert]

@[simp] theorem process?_forget (m : Machine) (pid other : Pid) :
    (m.forget pid).process? other = if pid = other then none else m.process? other := by
  simp [forget, process?, Std.TreeMap.getElem?_erase]

theorem runs_setProcess (m : Machine) (pid other : Pid) (p : Process) :
    (m.setProcess pid p).runs other = if pid = other then p.isRunning else m.runs other := by
  rw [runs, process?_setProcess]
  split_ifs <;> rfl

theorem runs_forget (m : Machine) (pid other : Pid) :
    (m.forget pid).runs other = (m.runs other && other != pid) := by
  rw [runs, process?_forget]
  split_ifs with same
  · simp [same]
  · simp [runs, Ne.symm same]

theorem runs_update (m : Machine) (pid other : Pid) {f : Process → Process}
    (h : ∀ p, (f p).isRunning = p.isRunning) : (m.update pid f).runs other = m.runs other := by
  rw [update]
  split
  · next p there =>
    rw [runs_setProcess, h]
    split_ifs with same
    · simp [runs, ← same, there]
    · rfl
  · rfl

/-- The children of a process that ends run on if they do. -/
theorem runs_orphans (m : Machine) (pid : Pid) :
    (m.processes.toList.foldl (orphan pid) m).runs = m.runs := by
  have all (xs : List (Nat × Process)) (listed : ∀ e ∈ xs, m.process? e.1 = some e.2)
      (m' : Machine) (same : m'.runs = m.runs) : (xs.foldl (orphan pid) m').runs = m.runs := by
    induction xs generalizing m' with
    | nil => exact same
    | cons e rest ih =>
      refine ih (fun e' hm => listed e' (List.mem_cons_of_mem e hm)) _ ?_
      rw [orphan]
      split_ifs with child running
      · have kept (c : Process) : { c with parent := firstPid }.isRunning = c.isRunning := rfl
        funext k
        rw [runs_update m' e.1 k kept, same]
      · -- the machine may have changed since it was listed, but not whether the process runs
        have ended : m.runs e.1 = false := by
          simpa [runs, listed e List.mem_cons_self] using running
        funext k
        rw [runs_forget, same]
        by_cases here : k = e.1
        · simp [here, ended]
        · simp [here]
      · exact same
  exact all _ (fun e hm => Std.TreeMap.mem_toList_iff_getElem?_eq_some.1 hm) m rfl

/-- A process that ends no longer runs; the others do as before. -/
theorem runs_finish (m : Machine) (pid other : Pid) (status : ExitStatus) :
    (m.finish pid status).runs other = (m.runs other && other != pid) := by
  rw [finish_eq]
  split
  · next none =>
    by_cases same : other = pid
    · simp [same, runs, none]
    · simp [same]
  · dsimp only
    split_ifs
    · rw [runs_forget, runs_orphans]
    · rw [runs_setProcess, runs_orphans]
      split_ifs with same
      · simp [same, Process.isRunning]
      · simp [Ne.symm same]

theorem runs_kill (m : Machine) (pid other : Pid) :
    (m.deliver pid Signal.kill).runs other = (m.runs other && other != pid) := by
  have without (ended : m.runs pid = false) : m.runs other = (m.runs other && other != pid) := by
    by_cases same : other = pid
    · simp [same, ended]
    · simp [same]
  rw [deliver]
  split
  · next none => exact without (by simp [runs, none])
  · next p there =>
    split_ifs with ended goesOn
    · exact without (by simpa [runs, there] using ended)
    · exact absurd goesOn (by simp [Signal.kill, goOnSignal])
    · rw [deliverTo, if_pos rfl, runs_finish]

theorem runs_killAll (pids : List Pid) (m : Machine) (other : Pid) :
    (pids.foldl (fun m pid => m.deliver pid Signal.kill) m).runs other =
      (m.runs other && !pids.contains other) := by
  induction pids generalizing m with
  | nil => simp
  | cons pid rest ih =>
    rw [List.foldl_cons, ih, runs_kill, List.contains_cons, Bool.not_or, Bool.and_assoc]
    rfl

theorem mem_membersOf {group pid : Pid} :
    pid ∈ m.membersOf group ↔ ∃ p, m.process? pid = some p ∧ p.group = group := by
  simp only [membersOf, List.mem_map, List.mem_filter, beq_iff_eq]
  constructor
  · rintro ⟨e, ⟨hm, same⟩, rfl⟩
    exact ⟨e.2, Std.TreeMap.mem_toList_iff_getElem?_eq_some.1 hm, same⟩
  · rintro ⟨p, there, same⟩
    exact ⟨(pid, p), ⟨Std.TreeMap.mem_toList_iff_getElem?_eq_some.2 there, same⟩, rfl⟩

/-! ## Interrupts -/

/-- A guarded interrupt ends the processes of the published group, and no others. -/
theorem runs_deliverToSelf {signal : Signal} (alive : m.killed = none) (guarded : m.guarded = true)
    (forwarded : signal ∈ guardedSignals) (pid : Pid) :
    (m.deliverToSelf signal).runs pid =
      (m.runs pid && !m.published.any fun group => (m.membersOf group).contains pid) := by
  have heeded : ∀ s ∈ guardedSignals, s ≠ 13 ∧ s ∉ idlers := by decide
  rw [deliverToSelf, if_neg (by simp [heeded signal forwarded, alive])]
  dsimp only
  rw [if_pos (by simp [guarded, forwarded])]
  split
  · next group shown =>
    rw [runs_killAll, shown]
    rfl
  · next none =>
    rw [none]
    simp [runs, process?]

/-- An interrupt ends a process that runs exactly if its group is the published one. -/
theorem ended_deliverToSelf {signal : Signal} {pid : Pid} {p : Process} (alive : m.killed = none)
    (guarded : m.guarded = true) (forwarded : signal ∈ guardedSignals)
    (there : m.process? pid = some p) (running : p.isRunning = true) :
    (m.deliverToSelf signal).runs pid = false ↔ m.published = some p.group := by
  have before : m.runs pid = true := by simp [runs, there, running]
  rw [runs_deliverToSelf alive guarded forwarded, before, Bool.true_and, Bool.not_eq_false']
  cases m.published with
  | none => simp
  | some group =>
    simp only [Option.any_some, List.contains_iff_mem, mem_membersOf, there, Option.some.injEq]
    simp [eq_comm]

/-- A process that was started to lead a group runs and leads it. -/
theorem start_leads {argv : List String} {out err : Option Handle} {pid : Pid}
    (h : m.start argv true out err = (.ok pid, m')) :
    ∃ p, m'.process? pid = some p ∧ p.group = pid ∧ p.isRunning = true := by
  rw [start] at h
  split at h
  · cases h
  · split at h
    · cases h
    · cases h
      exact ⟨_, by rw [process?_setProcess, if_pos rfl], rfl, rfl⟩

end

end PatchTrial.Machine
