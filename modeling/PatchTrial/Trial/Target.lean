import PatchTrial.Trial.Roster

/-!
The target of a trial and how it is stopped. A target leads a group of its own, and it is stopped by
telling the whole group to end, waiting for a while, killing it, and waiting once more. Waiting is
over when the leader has ended and no member of its group is live. Signals go to the group directly
or through an escalation command.
-/
namespace PatchTrial.Trial

/-- How a target is stopped. -/
inductive Terminator
  /-- By signals. -/
  | direct (graceMs : Nat)
  /-- By a command that sends the signals. -/
  | escalated (wrapper : List String) (graceMs : Nat)
  deriving DecidableEq, Repr

structure Target where
  pid : Pid
  terminator : Terminator
  /-- The name in the roster of the command it was started through. -/
  wrapperComm : Option String := none
  /-- How the leader ended, once that is known. -/
  finished : Option ExitStatus := none
  /-- Whether it is known to be stopped. -/
  stopped : Bool := false
  deriving DecidableEq, Repr

/-- Sends a signal to a group; a group that is gone is no failure. -/
def signalGroup (group : Pid) (signal : Signal) : Attempt IoError Unit :=
  ExceptT.mk do
    match ← Plan.request (.signalGroup group signal) with
    | .error e => return if e = .noSuchTarget then .ok () else .error e
    | .ok () => return .ok ()

def notPermitted : IoError := .os 1

/-- Whether anything of a group still runs. If the roster cannot be read, it is enough
that the group exists. -/
def groupIsAlive (group : Pid) : Plan Bool := do
  match ← (Roster.system.groupIsLive group).outcome with
  | .ok alive => return alive
  | .error _ =>
    match ← Plan.request (.signalGroup group 0) with
    -- a group that may not be signalled is there all the same
    | .ok () => return true
    | .error e => return e == notPermitted

/-- How long to sleep between two looks at a group, in milliseconds. -/
def pollMs : Nat := 25

/-- Waits until the leader has ended and its group is empty, or until the time is over; looks for at
most so many times more. -/
def waitFrom (pid : Pid) (graceMs start : Nat) : Nat → Attempt IoError Bool
  | 0 => return false
  | looks + 1 => do
    let ended ← Attempt.of id (Plan.request (.poll pid))
    -- the roster is asked for only when the leader has ended
    let gone ← if ended.isSome then pure !(← groupIsAlive pid) else pure false
    if gone then return true
    if graceMs * 1000 ≤ (← Plan.request .now) - start then return false
    Plan.request (.sleep pollMs)
    waitFrom pid graceMs start looks

/-- Waits for a group to be gone. Between two looks at it some time passes, so there are no more
looks than the grace has room for. -/
def waitForGroup (pid : Pid) (graceMs : Nat) : Attempt IoError Bool := do
  waitFrom pid graceMs (← Plan.request .now) (graceMs / pollMs + 2)

/-- The command that sends a signal through a wrapper. -/
def killCommand (wrapper : List String) (group : Pid) (signal : String) : List String :=
  wrapper ++ ["kill", signal, "-" ++ toString group]

/-- Sends a signal to a group through a wrapper; how the command ends does not matter. -/
def killThrough (wrapper : List String) (group : Pid) (signal : String) : Attempt IoError Unit :=
  match wrapper with
  | [] => throw (.other "escalation wrapper is empty")
  | _ :: _ => do
    let _ ← Attempt.of id (Plan.request (.run (killCommand wrapper group signal) none none))
    return ()

namespace Terminator

/-- How long each of the two waits may take. -/
def graceMs : Terminator → Nat
  | direct ms => ms
  | escalated _ ms => ms

def tell (group : Pid) : Terminator → Attempt IoError Unit
  | direct _ => signalGroup group .terminate
  | escalated wrapper _ => killThrough wrapper group "-TERM"

def kill (group : Pid) : Terminator → Attempt IoError Unit
  | direct _ => signalGroup group .kill
  | escalated wrapper _ => killThrough wrapper group "-KILL"

/-- The error of a group that is still there at the end. -/
def survived (group : Pid) : Terminator → IoError
  | direct _ => .other ("process group " ++ toString group ++ " survived SIGKILL")
  | escalated _ _ =>
    .other ("process group " ++ toString group ++ " survived an escalated SIGKILL")

def terminate (t : Terminator) (group : Pid) : Attempt IoError Unit := do
  t.tell group
  if ← waitForGroup group t.graceMs then return ()
  t.kill group
  if ← waitForGroup group t.graceMs then return ()
  throw (t.survived group)

end Terminator

namespace Target

def launch (argv : List String) (out err : Handle) (terminator : Terminator)
    (wrapperComm : Option String) : Attempt IoError Target :=
  match argv with
  | [] => throw (.other "empty target argv")
  | _ :: _ => do
    let pid ← Attempt.of id (Plan.request (.spawn argv out err))
    -- until now nobody but this plan knows of the group
    Plan.request (.publish pid)
    return { pid, terminator, wrapperComm }

/-- The process under test: behind a wrapper, the one the wrapper started. -/
def programPid (t : Target) : Plan Pid :=
  match t.wrapperComm with
  | some comm => Roster.system.resolveWrapped t.pid comm
  | none => return t.pid

/-- How the leader ended, if it has; what was known once stays known. -/
def exitStatus (t : Target) : Plan (Except IoError (Option ExitStatus) × Target) :=
  match t.finished with
  | some status => return (.ok (some status), t)
  | none => do
    match ← Plan.request (.poll t.pid) with
    | .ok status => return (.ok status, { t with finished := status })
    | .error e => return (.error e, t)

/-- Stops the target. After that it is stopped for good; after a failure it can be tried again. -/
def terminate (t : Target) : Plan (Except IoError Unit × Target) :=
  if t.stopped then return (.ok (), t)
  else do
    match ← (t.terminator.terminate t.pid).outcome with
    | .error e => return (.error e, t)
    | .ok () =>
      match ← Plan.request (.poll t.pid) with
      | .error e => return (.error e, t)
      | .ok status =>
        Plan.request (.retract t.pid)
        return (.ok (), { t with finished := status, stopped := true })

/-- Gives the target up: it is stopped if it is not, and if that fails its group is killed and its
leader waited for. -/
def dispose (t : Target) : Plan Unit :=
  if t.stopped then return ()
  else do
    match ← t.terminate with
    | (.ok (), _) => Plan.request (.retract t.pid)
    | (.error _, _) =>
      -- whatever comes of the two kills, the leader is waited for
      let _ ← (signalGroup t.pid .kill).outcome
      let _ ← Plan.request (.kill t.pid)
      let _ ← Plan.request (.await t.pid)
      Plan.request (.retract t.pid)

end Target
end PatchTrial.Trial
