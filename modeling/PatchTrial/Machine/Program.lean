import PatchTrial.ExitStatus
import PatchTrial.Machine.Files
import PatchTrial.Plan

/-!
Programs that run on a modelled machine. A program is a tree of calls to the system: it ends, makes
a call and goes on with the reply, or splits in two. Programs handle text as the bytes it is made
of; a byte is kept as the character of the same number, so that text can be taken apart by
characters.
-/
namespace PatchTrial.Machine

/-- Text as a program sees it: each character stands for one byte. -/
abbrev Text := List Char

namespace Text

def ofBytes (b : Bytes) : Text := b.map fun x => Char.ofNat x.toNat

def toBytes (t : Text) : Bytes := t.map fun c => UInt8.ofNat c.toNat

def ofString (s : String) : Text := ofBytes (Utf8.encode s)

def shown (t : Text) : String := Utf8.decodeLossy (toBytes t)

def ofNat (n : Nat) : Text := Nat.toDigits 10 n

def ofInt (n : Int) : Text := if n < 0 then '-' :: ofNat n.natAbs else ofNat n.natAbs

/-- The number that digits spell, if they are all digits. -/
def toNat? (t : Text) : Option Nat :=
  if t.isEmpty || !t.all Char.isDigit then none
  else some (t.foldl (fun n c => n * 10 + (c.toNat - '0'.toNat)) 0)

/-- The number a text spells, with a sign if it has one. -/
def toInt? : Text → Option Int
  | '-' :: rest => (toNat? rest).map fun n => -(n : Int)
  | '+' :: rest => (toNat? rest).map fun n => (n : Int)
  | t => (toNat? t).map fun n => (n : Int)

/-- The pieces of a text between characters of a kind. -/
def splitOn (p : Char → Bool) : Text → List Text
  | [] => [[]]
  | c :: rest =>
    if p c then [] :: splitOn p rest
    else match splitOn p rest with
      | [] => [[c]]
      | piece :: more => (c :: piece) :: more

/-- The last name of a path; slashes at its end do not count. -/
def baseName (t : Text) : Text :=
  let body := (t.reverse.dropWhile (· == '/')).reverse
  if body.isEmpty then (if t.isEmpty then [] else ['/'])
  else (body.reverse.takeWhile (· != '/')).reverse

def folderName (t : Text) : Text :=
  let body := (t.reverse.dropWhile (· == '/')).reverse
  if body.isEmpty then (if t.isEmpty then ['.'] else ['/'])
  else
    match body.reverse.dropWhile (· != '/') with
    | [] => ['.']
    | rest =>
      let before := (rest.dropWhile (· == '/')).reverse
      if before.isEmpty then ['/'] else before

end Text

abbrev Environment := List (Text × Text)

/-- What a process does about a signal. -/
inductive Disposition
  /-- What the system does otherwise. -/
  | default
  | ignore
  /-- It is told. -/
  | catch
  deriving DecidableEq, Repr

structure Stat where
  node : Nat
  kind : Files.Kind
  size : Nat
  mode : Nat
  deriving DecidableEq, Repr

/-- What waiting for a child gives. -/
inductive Waited
  /-- There is no such child. -/
  | noChild
  /-- No such child has ended. -/
  | running
  | ended (pid : Pid) (status : ExitStatus)
  /-- A signal came that the process is told of. -/
  | interrupted (signal : Signal)
  deriving DecidableEq, Repr

inductive Call
  | write (file : Nat) (bytes : Bytes)
  | read (file : Nat) (most : Nat)
  | openRead (path : Text)
  | openWrite (path : Text) (how : Files.Writing)
  | close (file : Nat)
  /-- Makes the second number stand for the file of the first. -/
  | copy (file other : Nat)
  /-- A number of ten or more for a file. -/
  | save (file : Nat)
  | pipe
  | wait (child : Option Pid) (block : Bool)
  /-- Becomes another program; there is a reply only if that fails. -/
  | exec (path : Text) (argv : List Text) (env : Environment)
  | kill (whom : Int) (signal : Signal)
  /-- Sleeps for so many microseconds. -/
  | sleep (time : Nat)
  | stat (path : Text) (follow : Bool)
  | list (path : Text)
  | makeFolder (path : Text)
  | removeFolder (path : Text)
  | remove (path : Text)
  | rename (source target : Text)
  | link (source target : Text)
  | makeLink (target path : Text)
  | readLink (path : Text)
  | setMode (path : Text) (mode : Nat)
  | setFolder (path : Text)
  | getFolder
  | getPid
  | getParent
  /-- Becomes the leader of a group of its own. -/
  | leadGroup
  | setSignal (signal : Signal) (d : Disposition)
  /-- The signals the process was to be told of and was not yet. -/
  | takeSignals
  /-- Nothing, so that others have their turn. -/
  | rest

abbrev Call.Reply : Call → Type
  | write _ _ => Except IoError Unit
  | read _ _ => Except IoError Bytes
  | openRead _ => Except IoError Nat
  | openWrite _ _ => Except IoError Nat
  | close _ => Unit
  | copy _ _ => Except IoError Unit
  | save _ => Except IoError Nat
  | pipe => Nat × Nat
  | wait _ _ => Waited
  | exec _ _ _ => IoError
  | kill _ _ => Except IoError Unit
  | sleep _ => Unit
  | stat _ _ => Except IoError Stat
  | list _ => Except IoError (List Text)
  | makeFolder _ => Except IoError Unit
  | removeFolder _ => Except IoError Unit
  | remove _ => Except IoError Unit
  | rename _ _ => Except IoError Unit
  | link _ _ => Except IoError Unit
  | makeLink _ _ => Except IoError Unit
  | readLink _ => Except IoError Text
  | setMode _ _ => Except IoError Unit
  | setFolder _ => Except IoError Unit
  | getFolder => Text
  | getPid => Pid
  | getParent => Pid
  | leadGroup => Unit
  | setSignal _ _ => Unit
  | takeSignals => List Signal
  | rest => Unit

inductive Program : Type
  | exit (code : Nat)
  | call (c : Call) (next : c.Reply → Program)
  /-- Splits; the parent is told the number of the child. -/
  | fork (child : Program) (next : Pid → Program)

/-- A program in the making: what it does, given how it goes on. -/
def Task (α : Type) : Type := (α → Program) → Program

namespace Task

instance : Monad Task where
  pure a := fun k => k a
  bind x f := fun k => x fun a => f a k

def call (c : Call) : Task c.Reply := fun k => .call c k

def fork (child : Task Nat) : Task Pid := fun k => .fork (child .exit) k

def toProgram (t : Task Nat) : Program := t .exit

def print (file : Nat) (t : Text) : Task (Except IoError Unit) :=
  if t.isEmpty then pure (.ok ()) else call (.write file (Text.toBytes t))

def complain (s : Text) : Task Unit := do
  let _ ← print 2 s

/-- All bytes that are left of a file, in pieces of at most a page. -/
def readAll (file : Nat) : Nat → Bytes → Task (Except IoError Bytes)
  | 0, before => pure (.ok before)
  | budget + 1, before => do
    match ← call (.read file 65536) with
    | .error e => return .error e
    | .ok [] => return .ok before
    | .ok more => readAll file budget (before ++ more)

/-- How often a program at most asks for more. -/
def manyTimes : Nat := 1000000

end Task
end PatchTrial.Machine
