import PatchTrial.Suite.Discovery
import PatchTrial.Suite.Tally
import PatchTrial.Trial.Run

/-!
Running the scenarios of a suite one after another. Each is announced on the record of progress
before it begins and its result follows when it is over; a scenario that cannot be loaded fails, and
a record of progress that cannot be written ends the suite.
-/
namespace PatchTrial.Suite

def announcementWidth : Nat := 35

def announcement (label : String) : String :=
  let text := "running test " ++ label
  text ++ String.ofList (List.replicate (announcementWidth - text.length) '.') ++ "|"

def resultLine (pass : Bool) : String := (if pass then "PASSED" else "FAILED") ++ "\n"

def recordUnloadable (log : DiagnosticLog) (root : Path) (f : Trial.Failure) : Plan Unit := do
  let _ ← (log.banner (Trial.title root)).outcome
  Trial.recordFailure log f

def runEntry (c : Trial.Setting) (e : Entry) : Plan Bool := do
  match ← (Scenario.load e.root e.overrides).outcome with
  | .error r =>
    recordUnloadable c.log e.root (.badScenario e.root r.message)
    return false
  | .ok scenario =>
    match ← (Validator.load e.root).outcome with
    | .error r =>
      recordUnloadable c.log e.root (.badValidator e.root r.message)
      return false
    | .ok validator =>
      match ← Trial.run c scenario validator with
      | .ok () => return true
      | .error _ => return false

def report (text : String) : Attempt Refusal Unit :=
  Attempt.of Refusal.noProgress (Plan.request (.report text))

/-- Runs scenarios in order, counting on from a tally. -/
def runFrom (c : Trial.Setting) : Tally → List Entry → Attempt Refusal Tally
  | tally, [] => return tally
  | tally, e :: rest => do
    report (announcement e.label)
    Attempt.of Refusal.noProgress (Plan.request .flush)
    let pass ← runEntry c e
    report (resultLine pass)
    runFrom c (tally.record pass) rest

def run (c : Trial.Setting) (entries : List Entry) : Attempt Refusal Tally := runFrom c {} entries

end PatchTrial.Suite
