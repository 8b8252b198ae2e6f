import PatchTrial.Plan
import PatchTrial.Refusal
import PatchTrial.Text.ShellWords

/-!
The diagnostic log of a run. It is only ever appended to; a stage of a trial writes its command into
it before the command is run, under a heading, and copies what the command wrote into it afterwards.

A line is one request here, which the machine takes or refuses as a whole. A formatter hands it over
in pieces, and a machine may refuse one of them when others are already in the file; such a part of
a line is not modelled for this log. For the writer of a verdict it is (`Validator.Writer`).
-/
namespace PatchTrial

structure DiagnosticLog where
  path : Path
  file : Handle
  deriving DecidableEq, Repr

namespace DiagnosticLog

def openAt (path : Path) (mode : LogMode) : Attempt Refusal DiagnosticLog := do
  return ⟨path, ← Attempt.of (Refusal.noLog path) (Plan.request (.openLog path mode))⟩

def mark : String := "############################"

def bannerLines (title : String) : List String := [mark, title]

def sectionLine (heading : String) : String := "---- " ++ heading ++ " ----"

def commandLines (argv : List String) : List String := ["running:", " " ++ ShellWords.join argv]

def put (log : DiagnosticLog) (bytes : Bytes) : Attempt IoError Unit :=
  if bytes.isEmpty then return () else Attempt.of id (Plan.request (.write log.file bytes))

/-- Writes a line, as a whole or not at all. -/
def line (log : DiagnosticLog) (text : String) : Attempt IoError Unit :=
  log.put (Utf8.encode (text ++ "\n"))

/-- Writes lines, up to the first that fails. -/
def lines (log : DiagnosticLog) : List String → Attempt IoError Unit
  | [] => return ()
  | text :: rest => do
    log.line text
    lines log rest

/-- Begins the block of a scenario. -/
def banner (log : DiagnosticLog) (title : String) : Attempt IoError Unit :=
  log.lines (bannerLines title)

def section_ (log : DiagnosticLog) (heading : String) : Attempt IoError Unit :=
  log.line (sectionLine heading)

/-- Writes a command as a line that can be given to a shell. -/
def command (log : DiagnosticLog) (argv : List String) : Attempt IoError Unit :=
  log.lines (commandLines argv)

/-- Copies a file under a heading. -/
def appendFile (log : DiagnosticLog) (heading : String) (path : Path) : Attempt IoError Unit := do
  log.section_ (heading ++ ": " ++ path.shown)
  log.put (← Attempt.of id (Plan.request (.read path)))

end DiagnosticLog
end PatchTrial
