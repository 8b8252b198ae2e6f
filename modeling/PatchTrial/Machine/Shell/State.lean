import PatchTrial.Machine.Shell.Arithmetic
import PatchTrial.Machine.Shell.Parser
import PatchTrial.Machine.Shell.Pattern
import PatchTrial.Machine.Utility.Basic

/-!
What a shell remembers between commands, and the smaller things it does: variables, complaints,
redirections, waiting.
-/
namespace PatchTrial.Machine.Shell

structure Variable where
  value : Text
  exported : Bool := false

/-- What a shell remembers. -/
structure State where
  bindings : List (Text × Variable) := []
  functions : List (Text × Command) := []
  args : List Text := []
  /-- The name it complains under. -/
  name : Text := "sh".toList
  status : Nat := 0
  self : Pid := 0
  last : Option Pid := none
  traps : List (Signal × Text) := []
  /-- The children in the background. -/
  jobs : List Pid := []
  /-- Children that are known to have ended and were not asked for. -/
  ended : List (Pid × ExitStatus) := []
  exitOnError : Bool := false
  failUnset : Bool := false
  /-- Whether the command is a condition, so that its failure ends nothing. -/
  testing : Bool := false
  line : Nat := 1
  /-- Whether a loop or a function runs. -/
  looping : Bool := false
  calling : Bool := false
  /-- Variables of the functions that run, with what they were before. -/
  locals : List (Text × Option Variable) := []

namespace State

def value? (s : State) (name : Text) : Option Text := (s.bindings.lookup name).map Variable.value

def environment (s : State) : Environment :=
  (s.bindings.filter fun e => e.2.exported).reverse.map fun e => (e.1, e.2.value)

end State

/-- What ends a command early. -/
inductive Flow
  /-- So many loops are left. -/
  | leave (loops : Nat)
  /-- The next round of a loop begins, so many loops up. -/
  | again (loops : Nat)
  /-- The function is left. -/
  | back
  /-- The shell ends. -/
  | quit
  deriving DecidableEq, Repr

/-- Something a shell does. -/
abbrev Sh (α : Type) := ExceptT Flow (StateT State Task) α

namespace Sh

def task {α : Type} (t : Task α) : Sh α := ExceptT.mk fun s => do return (.ok (← t), s)

def sys (c : Call) : Sh c.Reply := task (Task.call c)

def setStatus (n : Nat) : Sh Unit := modify fun s => { s with status := n }

/-- Gives a variable a value; it stays handed on if it was. -/
def assign (name value : Text) : Sh Unit := modify fun s =>
  let exported := match s.bindings.lookup name with
    | some v => v.exported
    | none => false
  { s with bindings := (name, ⟨value, exported⟩) :: s.bindings.filter fun e => e.1 != name }

def unset (name : Text) : Sh Unit := modify fun s =>
  { s with bindings := s.bindings.filter fun e => e.1 != name }

/-- Complains with the name of the shell and the line. -/
def complain (words : Text) : Sh Unit := do
  let s ← get
  task (Task.complain
    (s.name ++ ": ".toList ++ Text.ofNat s.line ++ ": ".toList ++ words ++ ['\n']))

def die {α : Type} (words : Text) : Sh α := do
  complain words
  setStatus 2
  throw .quit

/-- The code of how a child ended. -/
def codeOf (e : ExitStatus) : Nat :=
  match e.code?, e.signal? with
  | some n, _ => n
  | none, some s => 128 + s
  | none, none => 128

/-- Waits for a child to end. Other children that end first are noted; `told` says whether a signal
that the shell is told of ends the waiting. -/
def waitFor (told : Bool) (pid : Pid) : Nat → Sh (Except Signal (Option ExitStatus))
  | 0 => return .ok none
  | budget + 1 => do
    match (← get).ended.lookup pid with
    | some e =>
      modify fun s => { s with ended := s.ended.filter fun p => p.1 != pid }
      return .ok (some e)
    | none =>
      match ← sys (.wait none true) with
      | .ended n e =>
        if n == pid then
          tellOf e
          return .ok (some e)
        else
          modify fun s => { s with ended := (n, e) :: s.ended }
          waitFor told pid budget
      | .interrupted signal => if told then return .error signal else waitFor told pid budget
      | _ => return .ok none
where
  /-- Tells how a child was killed if it was. -/
  tellOf (e : ExitStatus) : Sh Unit :=
    match e.signal? with
    | some s =>
      if s != Signal.interrupt && s != 13 then
        task (Task.complain ((Utility.signalText s).toList ++ ['\n']))
      else return ()
    | none => return ()

/-- The code of a child that the shell does not have. -/
def noChildCode : Nat := 127

def awaitForeground (pid : Pid) : Sh Nat := do
  match ← waitFor false pid Task.manyTimes with
  | .ok (some e) => return codeOf e
  | _ => return noChildCode

def openError (create : Bool) (e : IoError) : Text :=
  if e == .notFound || e == .notFolder then
    (if create then "Directory nonexistent" else "No such file").toList
  else Utility.errorText e

def runError (e : IoError) : Text :=
  if e == .notFound || e == .notFolder then "not found".toList else Utility.errorText e

/-- Opens the file of a redirection: its number, or none if a file is only closed. -/
def openTarget (d : Direction) (t : Text) : Sh (Except Text (Option Nat)) := do
  let opened (create : Bool) (c : Except IoError Nat) : Except Text (Option Nat) :=
    match c with
    | .ok n => .ok (some n)
    | .error e =>
      .error ((if create then "cannot create " else "cannot open ").toList ++ t ++ ": ".toList ++
        openError create e)
  match d with
  | .input => return opened false (← sys (.openRead t))
  | .output => return opened true (← sys (.openWrite t .truncate))
  | .append => return opened true (← sys (.openWrite t .append))
  | .inout => return opened true (← sys (.openWrite t .over))
  | .here =>
    let (r, w) ← sys .pipe
    let _ ← task (Task.print w t)
    sys (.close w)
    return .ok (some r)
  | .same =>
    if t == ['-'] then return .ok none
    else
      match Text.toNat? t with
      | some n => return .ok (some n)
      | none => return .error ("Bad fd number".toList)

def restore : List (Nat × Option Nat) → Sh Unit
  | [] => return ()
  | (file, saved) :: rest => do
    match saved with
    | some n =>
      let _ ← sys (.copy n file)
      sys (.close n)
    | none => sys (.close file)
    restore rest

/-- Carries out a redirection whose target is known; what is to be taken back if asked for. -/
def redirect (keep : Bool) (file : Nat) (d : Direction) (t : Text) :
    Sh (Except Text (List (Nat × Option Nat))) := do
  match ← openTarget d t with
  | .error words => return .error words
  | .ok source =>
    let saved ← if keep then do pure [(file, (← sys (.save file)).toOption)] else pure []
    match source with
    | none =>
      sys (.close file)
      return .ok saved
    | some n =>
      if n == file then return .ok saved
      match ← sys (.copy n file) with
      | .error _ =>
        return .error (t ++ ": Bad file descriptor".toList)
      | .ok () =>
        if d != .same then sys (.close n)
        return .ok saved

/-- Splits the shell in two; `child` is all the child does. -/
def fork (child : Sh Unit) (finish : Sh Unit) : Sh Pid := do
  let s ← get
  task (Task.fork do
    let inner : Sh Unit := do
      let caught := s.traps.filter fun t => !t.2.isEmpty
      for t in caught do
        if t.1 != 0 then sys (.setSignal t.1 .default)
      modify fun s => { s with
        traps := s.traps.filter fun t => t.2.isEmpty, jobs := [], ended := [], testing := false }
      child
    let (_, s) ← (ExceptT.run inner).run s
    let (_, s) ← (ExceptT.run finish).run s
    return s.status)

end Sh

/-- A piece of an expanded word. -/
inductive Piece
  /-- A character; `splits` says that it may separate fields. -/
  | char (c : Char) (quoted splits : Bool)
  /-- Quotes: the field is there even if it is empty. -/
  | mark
  /-- The border between two fields. -/
  | cut
  /-- No fields at all where quotes would make one. -/
  | void
  deriving DecidableEq, Repr

namespace Piece

def ofValue (quoted : Bool) (t : Text) : List Piece := t.map fun c => .char c quoted (!quoted)

def ofLiteral (quoted : Bool) (t : Text) : List Piece := t.map fun c => .char c quoted false

def text (ps : List Piece) : Text :=
  ps.filterMap fun p => match p with
    | .char c _ _ => some c
    | .cut => some ' '
    | _ => none

def glob (ps : List Piece) : Glob :=
  ps.filterMap fun p => match p with
    | .char c q _ => some (c, q)
    | _ => none

/-- What separates fields and is white space. -/
def isIfsSpace (ifs : Text) (c : Char) : Bool := ifs.contains c && " \t\n".toList.contains c

/-- The fields of pieces: the field being read (last character first), whether blanks just ended a
field, and the pieces left. -/
def fieldsFrom (ifs : Text) : Option Glob → Bool → List Piece → List Glob
  | current, _, [] => current.toList.map List.reverse
  | current, spaced, p :: rest =>
    match p with
    | .mark => fieldsFrom ifs (some (current.getD [])) false rest
    | .void => fieldsFrom ifs current spaced rest
    | .cut => current.toList.map List.reverse ++ fieldsFrom ifs none false rest
    | .char c q s =>
      if s && !q && ifs.contains c then
        if isIfsSpace ifs c then
          match current with
          | some g => g.reverse :: fieldsFrom ifs none true rest
          | none => fieldsFrom ifs none spaced rest
        else
          match current with
          | some g => g.reverse :: fieldsFrom ifs none false rest
          | none =>
            if spaced then fieldsFrom ifs none false rest else [] :: fieldsFrom ifs none false rest
      else fieldsFrom ifs (some ((c, q) :: current.getD [])) false rest

def fields (ifs : Text) (ps : List Piece) : List Glob :=
  if ps.contains .void && ps.all fun p => p == .void || p == .mark then []
  else fieldsFrom ifs none false ps

end Piece

/-- The names in a folder that a pattern matches; those that begin with a stop only if the pattern
does. -/
def matchingNames (g : Glob) (names : List Text) : List Text :=
  (names.filter fun n =>
    (n.head? != some '.' || g.head? == some ('.', true) || g.head? == some ('.', false)) &&
      g.matches n).mergeSort Utility.textLe

def segments : Glob → List Glob
  | [] => [[]]
  | (c, q) :: rest =>
    if c == '/' then [] :: segments rest
    else match segments rest with
      | [] => [[(c, q)]]
      | s :: more => ((c, q) :: s) :: more

def matchingPaths : Text → List Glob → Sh (List Text)
  | before, [] => return [before]
  | before, g :: rest => do
    let onward (name : Text) : Text := before ++ name ++ if rest.isEmpty then [] else ['/']
    if g.any isActive then
      let folder := if before.isEmpty then ['.'] else before
      match ← Sh.sys (.list folder) with
      | .error _ => return []
      | .ok names =>
        let found ← (matchingNames g names).mapM fun n => matchingPaths (onward n) rest
        return found.flatten
    else
      let path := onward (g.map Prod.fst)
      if rest.isEmpty then
        match ← Sh.sys (.stat path false) with
        | .ok _ => return [path]
        | .error _ => return []
      else matchingPaths path rest
termination_by _ gs => gs.length

/-- The words that a field stands for: the paths it matches, or itself. -/
def wordsOf (g : Glob) : Sh (List Text) := do
  let plain := g.map Prod.fst
  if !g.any isActive then return [plain]
  match ← matchingPaths [] (segments g) with
  | [] => return [plain]
  | paths => return paths

end PatchTrial.Machine.Shell
