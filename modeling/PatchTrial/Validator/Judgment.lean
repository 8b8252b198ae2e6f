import PatchTrial.DiagnosticLog
import PatchTrial.Text.Lines
import PatchTrial.Validator.Description

/-!
Validators of scenarios, and how they judge the log of a target. What is wrong is written out as it
is found, and the first write that fails is the last; the verdict does not depend on it.
-/
namespace PatchTrial

/-- A table with the name it is reported by. -/
structure Validator where
  name : String
  table : Validator.Table

namespace Validator

/-- The file that describes the validator of a scenario. -/
def path (root : Path) : Path := root.child "validate.json"

/-- Loads the validator of a scenario. A preset is reported by its own name, and any other validator
by the path of its file. -/
def load (root : Path) : Attempt Refusal Validator := do
  let path := Validator.path root
  let bytes ← Attempt.of (Refusal.unreadable path) (Plan.request (.read path))
  match Spec.ofBytes bytes with
  | .error p => throw (.badDocument path p)
  | .ok spec =>
    match spec.compile with
    | .error e => throw (.badSpec e)
    | .ok table => return ⟨spec.preset.getD path.shown, table⟩

/-- The lines of a log, broken bytes replaced. -/
def logLines (bytes : Bytes) : List String := Text.lines (Utf8.decodeLossy bytes)

/-- The verdict on what reading a log gave. -/
def judge (v : Validator) (log : Path) : Except IoError Bytes → Verdict
  | .ok bytes => v.table.evaluate (logLines bytes)
  | .error e => .fail (.unreadable log.shown e.message)

/-- Writes messages by `put`, each as its text and the end of its line, up to the first write that
fails. -/
def writeAll (put : Bytes → Attempt IoError Unit) : List String → Attempt IoError Unit
  | [] => return ()
  | text :: rest => do
    if !text.isEmpty then put (Utf8.encode text)
    put (Utf8.encode "\n")
    writeAll put rest

/-- Judges a log and writes out what is wrong with it. -/
def validate (v : Validator) (log : Path) (put : Bytes → Attempt IoError Unit) : Plan Verdict := do
  let verdict := v.judge log (← Plan.request (.read log))
  let _ ← (writeAll put verdict.diagnostics).outcome
  return verdict

end Validator
end PatchTrial
