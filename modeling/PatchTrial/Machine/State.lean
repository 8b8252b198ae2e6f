import PatchTrial.Machine.Program
import Std.Data.TreeMap

/-!
A modelled machine: files, processes, what they have open, and a clock. One process is the program
whose plan the machine carries out; the others run programs of the machine.
-/
namespace PatchTrial

namespace Machine

/-- Where an open file leads. -/
inductive Channel
  | node (id : Nat)
  /-- The end of a pipe that is read. -/
  | outlet (pipe : Nat)
  /-- The end of a pipe that is written. -/
  | inlet (pipe : Nat)
  deriving DecidableEq, Repr

/-- An open file. Those who share it share the place it is read and written at. -/
structure OpenFile where
  channel : Channel
  offset : Nat := 0
  /-- Whether everything goes to the end. -/
  appends : Bool := false
  writable : Bool := false
  deriving DecidableEq, Repr

/-- What became of a process. -/
inductive Life
  | runs (p : Program)
  /-- It is not a program of the machine. -/
  | outside
  /-- It ended and nobody asked how. -/
  | ended (status : ExitStatus)

structure Process where
  parent : Pid
  group : Pid
  /-- The name in the table of processes. -/
  comm : Text
  life : Life
  /-- The open files by the numbers it has for them. -/
  files : List (Nat × Nat) := []
  /-- The folder its paths begin in. -/
  here : Nat
  ignored : List Signal := []
  caught : List Signal := []
  /-- Signals it is to be told of. -/
  pending : List Signal := []
  /-- The last of them, until it waits or asks. -/
  told : Option Signal := none
  stopped : Bool := false
  /-- Signals that came while it was stopped. -/
  held : List Signal := []
  /-- When its sleep is over. -/
  wake : Option Nat := none

end Machine

structure Machine where
  files : Machine.Files
  processes : Std.TreeMap Nat Machine.Process := {}
  nextPid : Pid
  opens : Std.TreeMap Nat Machine.OpenFile := {}
  nextOpen : Nat := 0
  /-- What pipes hold. -/
  pipes : Std.TreeMap Nat Bytes := {}
  nextPipe : Nat := 0
  /-- The time in microseconds. -/
  clock : Nat := 0
  /-- The process whose plan is carried out, its folder, and its variables. -/
  self : Pid
  here : Nat
  environment : Machine.Environment
  /-- How its children ended whose entries were given up. -/
  known : List (Pid × ExitStatus) := []
  /-- The group an interrupt kills, if interrupts are guarded. -/
  published : Option Pid := none
  guarded : Bool := false
  /-- The signal that killed the process whose plan is carried out. -/
  killed : Option Signal := none
  /-- The record of progress, and how many lines and bytes it holds before it is closed. -/
  progress : Bytes := []
  lineLimit : Option Nat := none
  byteLimit : Option Nat := none

namespace Machine

def process? (m : Machine) (pid : Pid) : Option Process := m.processes[pid]?

/-- Puts a process into the table, in the place of the one with its number. -/
def setProcess (m : Machine) (pid : Pid) (p : Process) : Machine :=
  { m with processes := m.processes.insert pid p }

def update (m : Machine) (pid : Pid) (f : Process → Process) : Machine :=
  match m.process? pid with
  | some p => m.setProcess pid (f p)
  | none => m

def Process.isRunning (p : Process) : Bool :=
  match p.life with
  | .ended _ => false
  | _ => true

def openFile (m : Machine) (f : OpenFile) : Nat × Machine :=
  (m.nextOpen, { m with opens := m.opens.insert m.nextOpen f, nextOpen := m.nextOpen + 1 })

/-- Whether a process that runs has an end of a pipe open. -/
def isHeld (m : Machine) (c : Channel) : Bool :=
  m.processes.toList.any fun e => e.2.files.any fun f =>
    match m.opens[f.2]? with
    | some o => o.channel == c
    | none => false

/-- The longest name in the table of processes. -/
def commLimit : Nat := 15

/-- The letter of what a process does. -/
def Process.letter (p : Process) : Char :=
  match p.life with
  | .ended _ => 'Z'
  | _ => if p.stopped then 'T' else 'S'

/-- The line that tells of a process. -/
def Process.line (pid : Pid) (p : Process) : Bytes :=
  Text.toBytes (Text.ofNat pid ++ " (".toList ++ p.comm ++ ") ".toList ++
    p.letter :: ' ' :: Text.ofNat p.parent ++ ' ' :: Text.ofNat p.group ++
      ' ' :: Text.ofNat p.group ++
      " 0 -1 0 0 0 0 0 0 0 0 0 20 0 1 0 0\n".toList)

/-- The machine with its folder of processes up to date. -/
def withTable (m : Machine) : Machine :=
  { m with files := { m.files with
      processes := m.processes.toList.map fun e => (e.1, e.2.line e.1) } }

/-- The first number from `n` on that a process has for no file. -/
def freeFrom (files : List (Nat × Nat)) (n : Nat) : Nat → Nat
  | 0 => n
  | budget + 1 => if (files.lookup n).isSome then freeFrom files (n + 1) budget else n

/-- Gives a process a number for an open file, from `n` on: the lowest that is free. -/
def Process.attach (p : Process) (n file : Nat) : Nat × Process :=
  let free := freeFrom p.files n (p.files.length + 1)
  (free, { p with files := (free, file) :: p.files })

def Process.point (p : Process) (n file : Nat) : Process :=
  { p with files := (n, file) :: p.files.filter fun f => f.1 != n }

def Process.detach (p : Process) (n : Nat) : Process :=
  { p with files := p.files.filter fun f => f.1 != n }

end Machine
end PatchTrial
