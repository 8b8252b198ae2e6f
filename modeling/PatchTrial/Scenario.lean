import PatchTrial.Arguments
import PatchTrial.Plan
import PatchTrial.Refusal
import PatchTrial.Settings

/-!
Scenarios. A scenario is a folder with two program trees, an old and a new one, and with settings of
its own if it has any. What the command line gives wins over the settings, and they win over what
holds otherwise.
-/
namespace PatchTrial

/-- What the command line gives for every scenario of a run. -/
structure Overrides where
  execName : Option String := none
  args : Option (List String) := none
  elevated : Bool := false
  settleMs : Option Nat := none
  observeMs : Option Nat := none
  deriving DecidableEq, Repr

namespace Overrides

def ofArguments (a : Arguments) : Overrides :=
  { execName := a.execName
    args := if a.targetArgs.isEmpty then none else some a.targetArgs
    elevated := a.elevated
    settleMs := a.settleMs
    observeMs := a.observeMs }

/-- The same, with another executable. -/
def withExecName (o : Overrides) (name : String) : Overrides := { o with execName := some name }

end Overrides

structure Scenario where
  name : String
  root : Path
  oldTree : Path
  newTree : Path
  execName : String
  args : List String
  elevated : Bool
  settleMs : Nat
  observeMs : Nat
  deriving DecidableEq, Repr

/-- Whether a path leads to a folder. -/
def Plan.isFolder (path : Path) : Plan Bool := do
  return (← Plan.request (.kind path)) == some .folder

def Plan.isFile (path : Path) : Plan Bool := do
  return (← Plan.request (.kind path)) == some .file

/-- The file with the settings of a scenario. -/
def Settings.path (root : Path) : Path := root.child "scenario.json"

/-- The settings of a scenario; if there is no file, nothing is set. -/
def Settings.load (root : Path) : Attempt Refusal Settings := do
  let path := Settings.path root
  if (← Plan.request (.kind path)).isNone then return {}
  let bytes ← Attempt.of (Refusal.unreadable path) (Plan.request (.read path))
  match Settings.ofBytes bytes with
  | .error p => throw (.badDocument path p)
  | .ok settings =>
    if settings.hasBlankName then throw (.blankExecName path)
    return settings

namespace Scenario

def oldName : String := "v0"

def newName : String := "v1"

/-- The executable if none is named. -/
def defaultExecName : String := "test"

/-- How long a target settles and is observed if nothing else is said, in milliseconds. -/
def defaultMs : Nat := 500

/-- The scenario in a folder. -/
def of (root : Path) (o : Overrides) (s : Settings) : Scenario :=
  { name := root.label
    root
    oldTree := root.child oldName
    newTree := root.child newName
    execName := (o.execName.or s.execName).getD defaultExecName
    args := (o.args.or s.args).getD []
    elevated := o.elevated || s.elevated.getD false
    settleMs := (o.settleMs.or s.settleMs).getD defaultMs
    observeMs := (o.observeMs.or s.observeMs).getD defaultMs }

def load (root : Path) (o : Overrides) : Attempt Refusal Scenario := do
  if !(← Plan.isFolder root) then throw (.noScenarioFolder root)
  if !(← Plan.isFolder (root.child oldName)) then throw (.noTree (root.child oldName))
  if !(← Plan.isFolder (root.child newName)) then throw (.noTree (root.child newName))
  return of root o (← Settings.load root)

def targetPath (s : Scenario) : Path := s.oldTree.child s.execName

def capturedLog (s : Scenario) : Path := s.root.child "log"

def targetErrors (s : Scenario) : Path := s.root.child "target_err.log"

def artifact (s : Scenario) : Path := s.root.child "patch.po"

def generateOut (s : Scenario) : Path := s.root.child "generate.log"

def generateErrors (s : Scenario) : Path := s.root.child "generate_err.log"

def applyOut (s : Scenario) : Path := s.root.child "apply.log"

def applyErrors (s : Scenario) : Path := s.root.child "apply_err.log"

end Scenario
end PatchTrial
