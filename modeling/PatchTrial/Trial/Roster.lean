import PatchTrial.Plan
import PatchTrial.Text.Blank

/-!
The roster of processes, as far as a trial needs it. Each process has a folder by its number, and in
it a line that tells its name, its state, its parent and its group. The name stands in brackets and
may hold anything, brackets too, so it ends at the last closing one.
-/
namespace PatchTrial.Trial

/-- What the line of a process tells. -/
structure Roster.Entry where
  pid : Pid
  comm : String
  state : Char
  parent : Pid
  group : Pid
  deriving DecidableEq, Repr

namespace Roster.Entry

/-- Whether a process still runs; the dead keep their entries for a while. -/
def isLive (p : Roster.Entry) : Bool := !(p.state == 'Z' || p.state == 'X' || p.state == 'x')

def pidLimit : Nat := Nat.pow 2 32 - 1

/-- The number of a process: digits after at most one plus sign. -/
def pid? (cs : List Char) : Option Pid :=
  let digits := match cs with
    | '+' :: rest => rest
    | cs => cs
  if digits.isEmpty || !digits.all Char.isDigit then none
  else
    let n := digits.foldl (fun n c => n * 10 + (c.toNat - '0'.toNat)) 0
    if n ≤ pidLimit then some n else none

/-- What stands before and after the last of a character. -/
def splitLast? (c : Char) (cs : List Char) : Option (List Char × List Char) :=
  match cs.reverse.span (· != c) with
  | (_, []) => none
  | (after, _ :: before) => some (before.reverse, after.reverse)

/-- What stands before and after the first of a character. -/
def splitFirst? (c : Char) (cs : List Char) : Option (List Char × List Char) :=
  match cs.span (· != c) with
  | (_, []) => none
  | (before, _ :: after) => some (before, after)

def ofLine? (pid : Pid) (line : String) : Option Roster.Entry := do
  -- a name may have brackets and blanks in it, so only the last bracket ends it
  let (head, tail) ← splitLast? ')' line.toList
  let (_, comm) ← splitFirst? '(' head
  match Text.blankWords tail with
  | (state :: _) :: parent :: group :: _ =>
    return { pid, comm := String.ofList comm, state, parent := ← pid? parent,
             group := ← pid? group }
  | _ => none

/-- The name under which the roster keeps a program: the last name of its path, cut short. -/
def commLimit : Nat := 15

/-- The name of a program in the roster. -/
def commOf (program : String) : String :=
  String.ofList ((Path.ofString program).label.toList.take commLimit)

end Roster.Entry

structure Roster where
  root : Path
  deriving DecidableEq, Repr

namespace Roster

/-- The roster of the machine. -/
def system : Roster := ⟨.ofString "/proc"⟩

def linePath (t : Roster) (pid : Pid) : Path := (t.root.child (toString pid)).child "stat"

def infoOf? (pid : Pid) : Except IoError Bytes → Option Roster.Entry
  -- a line that is no text is passed over like one that is gone
  | .ok bytes => (Utf8.decode? bytes).bind (Roster.Entry.ofLine? pid)
  | .error _ => none

def info? (t : Roster) (pid : Pid) : Plan (Option Roster.Entry) := do
  return infoOf? pid (← Plan.request (.read (t.linePath pid)))

/-- What the roster tells of some processes; entries that are gone are passed over. -/
def infos (t : Roster) : List Pid → Plan (List Roster.Entry)
  | [] => return []
  | pid :: rest => do
    let info ← t.info? pid
    let more ← infos t rest
    return match info with
      | some p => p :: more
      | none => more

def pidOfName? (name : Bytes) : Option Pid := Roster.Entry.pid? (Utf8.decodeLossy name).toList

def scan (t : Roster) : Attempt IoError (List Roster.Entry) := do
  let names ← Attempt.of id (Plan.request (.list t.root))
  t.infos (names.filterMap pidOfName?)

/-- The numbers of the live children of a process, in order. -/
def liveChildren (t : Roster) (parent : Pid) : Attempt IoError (List Pid) := do
  let live := (← t.scan).filter fun p => p.parent == parent && p.isLive
  return (live.map Roster.Entry.pid).mergeSort

def groupIsLive (t : Roster) (group : Pid) : Attempt IoError Bool := do
  return (← t.scan).any fun p => p.group == group && p.isLive

/-- Follows a chain of processes of one name, each with one live child, for at most so many
steps. -/
def followWrappers (t : Roster) (comm : String) : Nat → Pid → Plan Pid
  | 0, pid => return pid
  | steps + 1, pid => do
    match ← t.info? pid with
    | none => return pid
    | some p =>
      if p.comm ≠ comm then return pid
      match ← (t.liveChildren pid).outcome with
      -- without just one child to go on with, the wrapper itself is taken
      | .ok [child] => followWrappers t comm steps child
      | _ => return pid

/-- The first process on the chain from `pid` on that is no wrapper. A chain that meets no process
twice is no longer than there are numbers of processes. -/
def resolveWrapped (t : Roster) (pid : Pid) (comm : String) : Plan Pid :=
  t.followWrappers comm (Roster.Entry.pidLimit + 1) pid

end Roster
end PatchTrial.Trial
