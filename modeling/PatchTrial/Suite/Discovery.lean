import PatchTrial.Scenario

/-!
Which scenarios a command line asks for: one folder, all scenarios of a folder, or the default
suite, which ends with scenarios of real programs whether or not they are there.
-/
namespace PatchTrial.Suite

/-- A scenario that is to be run. -/
structure Entry where
  root : Path
  label : String
  overrides : Overrides
  deriving DecidableEq, Repr

def Entry.of (root : Path) (overrides : Overrides) : Entry := ⟨root, root.label, overrides⟩

def scenarioLetter : Char := 't'

def isScenarioName (name : Bytes) : Bool :=
  (Utf8.decodeLossy name).toList.head? == some scenarioLetter

/-- The order of names by their bytes. -/
def nameLe : Bytes → Bytes → Bool
  | [], _ => true
  | _ :: _, [] => false
  | a :: as, b :: bs => if a = b then nameLe as bs else a < b

def folderNames (folder : Path) : List Bytes → Plan (List Bytes)
  | [] => return []
  | name :: rest => do
    let isFolder ← Plan.isFolder (folder.join ⟨name⟩)
    let more ← folderNames folder rest
    return if isFolder then name :: more else more

/-- The scenarios in a folder, in the order of their names. -/
def scenariosIn (folder : Path) (overrides : Overrides) : Attempt Refusal (List Entry) := do
  let names ← Attempt.of (Refusal.unreadable folder) (Plan.request (.list folder))
  let found ← folderNames folder (names.filter isScenarioName)
  return (found.mergeSort nameLe).map fun name => Entry.of (folder.join ⟨name⟩) overrides

def defaultFolder : String := "tests"

def realScenarios : List (String × String) := [("real_tests/apache", "httpd")]

/-- The scenarios a command line asks for, in the order in which they are run. -/
def discover (a : Arguments) : Attempt Refusal (List Entry) := do
  let overrides := Overrides.ofArguments a
  match a.scenario with
  | some path =>
    if a.directory then scenariosIn path overrides
    else
      if !(← Plan.isFolder path) then throw (.noScenario path)
      return [Entry.of path overrides]
  | none =>
    let found ← scenariosIn (a.root.child defaultFolder) overrides
    return found ++ realScenarios.map fun (place, execName) =>
      Entry.of (a.root.child place) (overrides.withExecName execName)

end PatchTrial.Suite
