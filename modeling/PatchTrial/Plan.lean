import PatchTrial.ExitStatus
import PatchTrial.IoError
import PatchTrial.Path

/-!
What the program asks of the machine it runs on, and plans made of such requests. A plan is a tree:
it is done, or it makes one request and goes on with the reply, whatever that is. So a plan can be
run on a real machine, on a modelled one, or against any sequence of replies, and every statement
about what the program does is a statement about its tree.
-/
namespace PatchTrial

/-- The number of a process, and of a group of processes. -/
abbrev Pid := Nat

/-- A file that was opened. -/
abbrev Handle := Nat

abbrev Signal := Nat

namespace Signal

/-- The terminal is gone. -/
def hangUp : Signal := 1

/-- Somebody at the terminal asks to stop. -/
def interrupt : Signal := 2

/-- Ends a process at once. -/
def kill : Signal := 9

/-- Asks a process to end. -/
def terminate : Signal := 15

end Signal

inductive PathKind
  | file
  | folder
  | other
  deriving DecidableEq, Repr

/-- How a log is opened. -/
inductive LogMode
  /-- It starts empty. -/
  | truncate
  /-- What it holds stays. -/
  | append
  deriving DecidableEq, Repr

/-- A request to the machine. -/
inductive Request
  /-- What a path leads to, if it leads to anything. -/
  | kind (path : Path)
  /-- All bytes of a file. -/
  | read (path : Path)
  /-- The names in a folder, in any order. -/
  | list (path : Path)
  /-- The path of the same file from the topmost folder, without links. -/
  | canonical (path : Path)
  /-- Whether a path leads to a file that may be run. -/
  | isProgram (path : Path)
  /-- The folders in which programs are looked up. -/
  | searchPath
  /-- Opens a file for writing, empty. -/
  | create (path : Path)
  /-- Opens a log for writing. -/
  | openLog (path : Path) (mode : LogMode)
  /-- Writes to a file. -/
  | write (file : Handle) (bytes : Bytes)
  /-- Writes to the record of progress. -/
  | report (text : String)
  /-- Makes what was written to the record of progress visible. -/
  | flush
  /-- Runs a program to its end; what it writes is dropped where no file is given. -/
  | run (argv : List String) (out err : Option Handle)
  /-- Starts a program as the leader of a new group. -/
  | spawn (argv : List String) (out err : Handle)
  /-- Whether a program that was started has ended, and how; its entry is given up if so. -/
  | poll (pid : Pid)
  /-- Waits until a program that was started has ended. -/
  | await (pid : Pid)
  /-- Kills a program that was started and is not known to have ended. -/
  | kill (pid : Pid)
  /-- Sends a signal to a group; signal zero only asks whether there is one. -/
  | signalGroup (group : Pid) (signal : Signal)
  /-- Lets time pass. -/
  | sleep (ms : Nat)
  /-- The time in microseconds since some moment. -/
  | now
  /-- Makes a group the one that an interrupt kills. -/
  | publish (group : Pid)
  /-- Takes that back, unless another group was published since. -/
  | retract (group : Pid)
  /-- From now on an interrupt kills the published group before it ends the program. -/
  | guard

namespace Request

/-- What the machine replies to a request. -/
abbrev Reply : Request → Type
  | kind _ => Option PathKind
  | read _ => Except IoError Bytes
  | list _ => Except IoError (List Bytes)
  | canonical _ => Except IoError Path
  | isProgram _ => Bool
  | searchPath => List Path
  | create _ => Except IoError Handle
  | openLog _ _ => Except IoError Handle
  | write _ _ => Except IoError Unit
  | report _ => Except IoError Unit
  | flush => Except IoError Unit
  | run _ _ _ => Except IoError ExitStatus
  | spawn _ _ _ => Except IoError Pid
  | poll _ => Except IoError (Option ExitStatus)
  | await _ => Except IoError ExitStatus
  | kill _ => Except IoError Unit
  | signalGroup _ _ => Except IoError Unit
  | sleep _ => Unit
  | now => Nat
  | publish _ => Unit
  | retract _ => Unit
  | guard => Unit

end Request

/-- A tree of requests that ends in a value. -/
inductive Plan (α : Type) : Type
  /-- Nothing is left to do. -/
  | done (a : α)
  /-- One request, and how to go on with each reply. -/
  | ask (r : Request) (next : r.Reply → Plan α)

namespace Plan

variable {α β γ : Type}

/-- One plan after another. -/
def bind : Plan α → (α → Plan β) → Plan β
  | done a, f => f a
  | ask r next, f => ask r fun reply => bind (next reply) f

instance : Monad Plan where
  pure := done
  bind := bind

@[simp] theorem pure_eq (a : α) : (pure a : Plan α) = done a := rfl
@[simp] theorem done_bind (a : α) (f : α → Plan β) : (done a >>= f) = f a := rfl
@[simp] theorem ask_bind (r : Request) (next : r.Reply → Plan α) (f : α → Plan β) :
    (ask r next >>= f) = ask r fun reply => next reply >>= f := rfl

theorem bind_done (p : Plan α) : (p >>= done) = p := by
  induction p with
  | done a => rfl
  | ask r next ih => simp only [ask_bind, ih]

theorem bind_assoc (p : Plan α) (f : α → Plan β) (g : β → Plan γ) :
    ((p >>= f) >>= g) = p >>= fun a => f a >>= g := by
  induction p with
  | done a => rfl
  | ask r next ih => simp only [ask_bind, ih]

instance : LawfulMonad Plan := LawfulMonad.mk' Plan
  (by
    intro α p
    show (p >>= fun a => done (id a)) = p
    exact bind_done p)
  (fun _ _ => rfl)
  bind_assoc

def request (r : Request) : Plan r.Reply := ask r done

end Plan

/-- A plan that may fail. -/
abbrev Attempt (ε α : Type) := ExceptT ε Plan α

namespace Attempt

variable {ε α : Type}

/-- A request whose failure is explained by `f`. -/
def of (f : IoError → ε) (p : Plan (Except IoError α)) : Attempt ε α :=
  ExceptT.mk do
    match ← p with
    | .ok a => return .ok a
    | .error e => return .error (f e)

/-- The plan of an attempt, with its outcome. -/
def outcome (x : Attempt ε α) : Plan (Except ε α) := ExceptT.run x

end Attempt
end PatchTrial
