import PatchTrial.Machine.System

/-!
How processes take turns. In a round every process that can go on makes one step, in the order of
their numbers; then the clock moves on. When all have to wait the clock moves to the moment at which
the first of them wakes.
-/
namespace PatchTrial.Machine

/-- How long a round takes, in microseconds. -/
def roundTime : Nat := 20

/-- Lets a process go on as a program, unless it ended meanwhile. -/
def goOn (m : Machine) (pid : Pid) (next : Program) : Machine :=
  m.update pid fun p => if p.isRunning then { p with life := .runs next } else p

/-- Splits a process: the number of the child. -/
def split (m : Machine) (pid : Pid) (p : Process) (child : Program) : Pid × Machine :=
  let id := m.nextPid
  (id, { m with
    nextPid := id + 1
    processes := m.processes.insert id { p with
      parent := pid, life := .runs child, pending := [], told := none, held := [], wake := none } })

/-- One step of a process: whether it could make one. -/
def turn (m : Machine) (pid : Pid) : Machine × Bool :=
  match m.process? pid with
  | none => (m, false)
  | some p =>
    if p.stopped then (m, false)
    else match p.life with
      | .ended _ => (m, false)
      | .outside => (m, false)
      | .runs (.exit code) => (m.finish pid (.exited code), true)
      | .runs (.fork child next) =>
        let (id, m) := m.split pid p child
        (m.goOn pid (next id), true)
      | .runs (.call c next) =>
        match m.attempt pid p c with
        | .blocked m => (m, false)
        | .replied r m => (m.goOn pid (next r), true)
        | .became m => (m, true)

/-- One step of every process: whether any could make one. -/
def round (m : Machine) : Machine × Bool :=
  m.processes.keys.foldl (fun (m, moved) pid =>
    let (m, now) := m.turn pid
    (m, moved || now)) (m, false)

def nextWake (m : Machine) : Option Nat :=
  (m.processes.toList.filterMap fun e => if e.2.stopped then none else e.2.wake).min?

/-- Lets the machine go on until something is the case, or until a moment if there is one; for at
most so many rounds. The reply says whether it is the case. -/
def advance (done : Machine → Bool) (deadline : Option Nat) : Nat → Machine → Bool × Machine
  | 0, m => (false, m)
  | budget + 1, m =>
    if done m || m.killed.isSome then (true, m)
    else if deadline.any fun t => t ≤ m.clock then (false, m)
    else
      let (m, moved) := m.round
      if moved then advance done deadline budget { m with clock := m.clock + roundTime }
      else
        match m.nextWake, deadline with
        | none, none => (false, m)
        | some wake, none => advance done deadline budget { m with clock := max wake m.clock }
        | none, some limit => (done m, { m with clock := max limit m.clock })
        | some wake, some limit =>
          advance done deadline budget { m with clock := max (min wake limit) m.clock }

/-- How many rounds the machine goes on at most. -/
def roundLimit : Nat := 1000000000

def pass (m : Machine) (time : Nat) : Machine :=
  (m.advance (fun _ => false) (some (m.clock + time)) roundLimit).2

/-- How a child of the process whose plan is carried out ended, if it did. -/
def endOf? (m : Machine) (pid : Pid) : Option ExitStatus :=
  match m.process? pid with
  | some p =>
    match p.life with
    | .ended status => some status
    | _ => none
  | none => m.known.lookup pid

/-- How a child ended, if it did; its entry is given up, but how it ended stays known. -/
def collect (m : Machine) (pid : Pid) : Option ExitStatus × Machine :=
  match m.endOf? pid with
  | some status =>
    if (m.process? pid).isSome then
      (some status, { m.forget pid with known := (pid, status) :: m.known })
    else (some status, m)
  | none => (none, m)

/-- Lets the machine go on until a process has ended, and tells how it did. -/
def awaitEnd (m : Machine) (pid : Pid) : Option ExitStatus × Machine :=
  (m.advance (fun m => (m.endOf? pid).isSome) none roundLimit).2.collect pid

end PatchTrial.Machine
