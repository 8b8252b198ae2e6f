import PatchTrial.Machine.Shell.Run

/-!
The shell as a program. Its words say where its commands come from: from a word, from a file, or
from the input.
-/
namespace PatchTrial.Machine.Shell

structure Invocation where
  /-- Whether the first operand is the text of the commands. -/
  fromWord : Bool := false
  exitOnError : Bool := false
  failUnset : Bool := false
  operands : List Text := []

namespace Invocation

def ofWords (i : Invocation) : List Text → Invocation
  | ['-', '-'] :: rest => { i with operands := rest }
  | ['-'] :: rest => { i with operands := rest }
  | ('-' :: letters) :: rest =>
    let i := { i with
      fromWord := i.fromWord || letters.contains 'c'
      exitOnError := i.exitOnError || letters.contains 'e'
      failUnset := i.failUnset || letters.contains 'u' }
    if letters.contains 'o' then ofWords i (rest.drop 1) else ofWords i rest
  | ('+' :: _) :: rest => ofWords i rest
  | rest => { i with operands := rest }
termination_by words => words.length

end Invocation

/-- How deep and how long a shell goes at most. -/
def budget : Nat := 1000000000

def initialVariables (env : Environment) (here : Text) (parent : Pid) : List (Text × Variable) :=
  let given := (env.filter fun e => isName e.1).map fun e => (e.1, (⟨e.2, true⟩ : Variable))
  let own : List (Text × Variable) :=
    [("IFS".toList, ⟨" \t\n".toList, false⟩), ("PPID".toList, ⟨Text.ofNat parent, false⟩),
      ("PWD".toList, ⟨here, true⟩), ("OPTIND".toList, ⟨['1'], false⟩)]
  let usual : List (Text × Variable) := if given.any fun e => e.1 == "PATH".toList then []
    else [("PATH".toList, ⟨Utility.shellPath.toList, false⟩)]
  own ++ usual ++ given.filter fun e => !(own.any fun o => o.1 == e.1)

/-- Carries out commands to the end of the shell. -/
def carryOut (s : State) (last : Bool) (t : Text) : Task Nat := do
  let (commands, mistake) := program t
  let (_, s) ← (ExceptT.run (runAll budget last commands mistake)).run s
  let (_, s) ← (ExceptT.run (exitTrap budget)).run s
  return s.status

def shell (argv : List Text) (env : Environment) : Task Nat := do
  let name := argv.head?.getD "sh".toList
  let i : Invocation := Invocation.ofWords {} (argv.drop 1)
  let self ← Task.call .getPid
  let bindings := initialVariables env (← Task.call .getFolder) (← Task.call .getParent)
  let s : State :=
    { bindings, name, self, exitOnError := i.exitOnError, failUnset := i.failUnset }
  let fail (words : Text) : Task Nat := do
    Task.complain (name ++ ": 0: ".toList ++ words ++ ['\n'])
    return 2
  match i.fromWord, i.operands with
  | true, [] => fail "-c requires an argument".toList
  | true, text :: [] => carryOut s true text
  | true, text :: zero :: args => carryOut { s with name := zero, args } true text
  | false, path :: args =>
    match ← Task.call (.openRead path) with
    | .error e => fail ("cannot open ".toList ++ path ++ ": ".toList ++ Sh.openError false e)
    | .ok file =>
      let bytes ← Task.readAll file Task.manyTimes []
      Task.call (.close file)
      match bytes with
      | .ok b => carryOut { s with name := path, args } false (Text.ofBytes b)
      | .error _ => return 2
  | false, [] =>
    match ← Task.readAll 0 Task.manyTimes [] with
    | .ok b => carryOut s false (Text.ofBytes b)
    | .error _ => return 2

end PatchTrial.Machine.Shell
