import PatchTrial.Machine.State

/-!
Signals and the end of processes. A process that ended stays in the table until its parent asks how
it ended; its children go to the first process, which asks at once.
-/
namespace PatchTrial.Machine

def firstPid : Pid := 1

/-- The signal that stops a process whatever it does. -/
def stopSignal : Signal := 19

/-- The signal that lets a process go on. -/
def goOnSignal : Signal := 18

/-- The signals that stop a process if it does nothing about them. -/
def stoppers : List Signal := [20, 21, 22]

/-- The signals that mean nothing to a process that does nothing about them. -/
def idlers : List Signal := [17, goOnSignal, 23, 28]

def forget (m : Machine) (pid : Pid) : Machine := { m with processes := m.processes.erase pid }

def finish (m : Machine) (pid : Pid) (status : ExitStatus) : Machine :=
  match m.process? pid with
  | none => m
  | some p =>
    let m := m.processes.toList.foldl (fun m e =>
      if e.2.parent = pid then
        if e.2.isRunning then m.update e.1 fun c => { c with parent := firstPid } else m.forget e.1
      else m) m
    if p.parent = firstPid then m.forget pid
    else m.setProcess pid
      { p with life := .ended status, files := [], stopped := false, held := [], wake := none }

def deliverTo (m : Machine) (pid : Pid) (p : Process) (signal : Signal) : Machine :=
  if signal = Signal.kill then m.finish pid (.killed signal)
  else if signal = stopSignal then m.setProcess pid { p with stopped := true }
  else if p.stopped then m.setProcess pid { p with held := p.held ++ [signal] }
  else if p.caught.contains signal then
    m.setProcess pid { p with
      pending := if p.pending.contains signal then p.pending else p.pending ++ [signal]
      told := some signal }
  else if p.ignored.contains signal || idlers.contains signal then m
  else if stoppers.contains signal then m.setProcess pid { p with stopped := true }
  else m.finish pid (.killed signal)

/-- Delivers a signal to a process of the machine. One that lets the process go on also delivers
what was held. -/
def deliver (m : Machine) (pid : Pid) (signal : Signal) : Machine :=
  match m.process? pid with
  | none => m
  | some p =>
    if !p.isRunning then m
    else if signal = goOnSignal && p.stopped then
      let m := m.setProcess pid { p with stopped := false, held := [] }
      (p.held ++ [signal]).foldl (fun m s =>
        match m.process? pid with
        | some p => if p.isRunning then m.deliverTo pid p s else m
        | none => m) m
    else m.deliverTo pid p signal

def membersOf (m : Machine) (group : Pid) : List Pid :=
  (m.processes.toList.filter fun e => e.2.group == group).map Prod.fst

def guardedSignals : List Signal := [Signal.hangUp, Signal.interrupt, Signal.terminate]

/-- Delivers a signal to the process whose plan is carried out. A guarded one kills the published
group first. -/
def deliverToSelf (m : Machine) (signal : Signal) : Machine :=
  if signal = 13 || idlers.contains signal || m.killed.isSome then m
  else
    let m := { m with killed := some signal }
    if m.guarded && guardedSignals.contains signal then
      match m.published with
      | some group => (m.membersOf group).foldl (fun m pid => m.deliver pid Signal.kill) m
      | none => m
    else m

def send (m : Machine) (pid : Pid) (signal : Signal) : Machine :=
  if pid = m.self then m.deliverToSelf signal
  else if pid = firstPid then m
  else m.deliver pid signal

def lastSignal : Signal := 64

/-- Sends a signal to processes; zero only asks whether there are any. -/
def sendAll (m : Machine) (pids : List Pid) (signal : Signal) : Except IoError Machine :=
  if lastSignal < signal then .error .invalid
  else if pids.isEmpty then .error .noSuchTarget
  else if signal = 0 then .ok m
  else .ok (pids.foldl (fun m pid => m.send pid signal) m)

/-- The processes a number stands for in the view of a process of a group: one process, the own
group, every process but the first and the own one, or a group. -/
def whomOf (m : Machine) (pid group : Pid) (whom : Int) : List Pid :=
  if 0 < whom then (if (m.process? whom.toNat).isSome then [whom.toNat] else [])
  else if whom = 0 then m.membersOf group
  else if whom = -1 then
    (m.processes.toList.map Prod.fst).filter fun p => p != firstPid && p != pid
  else m.membersOf whom.natAbs

end PatchTrial.Machine
