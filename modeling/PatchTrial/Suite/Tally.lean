/-!
How many scenarios were run and how many of them passed.
-/
namespace PatchTrial.Suite

/-- The count of a run. -/
structure Tally where
  passed : Nat := 0
  total : Nat := 0
  deriving DecidableEq, Repr

namespace Tally

def record (t : Tally) (pass : Bool) : Tally :=
  { passed := if pass then t.passed + 1 else t.passed, total := t.total + 1 }

def allPassed (t : Tally) : Bool := t.passed == t.total

/-- The counts after each of some results, from a first one on. -/
def history (t : Tally) : List Bool → List Tally
  | [] => [t]
  | pass :: rest => t :: history (t.record pass) rest

end Tally
end PatchTrial.Suite
