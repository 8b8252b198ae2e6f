import PatchTrial.Json.Problem
import PatchTrial.Path
import PatchTrial.IoError
import PatchTrial.Validator.Preset

/-!
Why something that a run needs could not be had: a file, a document, a program, or a place to write
to. The words name what was being done first and its cause last.
-/
namespace PatchTrial

/-- Why something that a run needs could not be had. -/
inductive Refusal
  /-- A file or a folder could not be read. -/
  | unreadable (path : Path) (e : IoError)
  /-- A document could not be understood. -/
  | badDocument (path : Path) (p : Json.Problem)
  /-- The settings in a file name an executable by white space. -/
  | blankExecName (path : Path)
  /-- A validator's description is not well formed. -/
  | badSpec (e : Validator.SpecError)
  /-- What was to be the folder of a scenario is none. -/
  | noScenarioFolder (root : Path)
  /-- A program tree is missing. -/
  | noTree (tree : Path)
  /-- The scenario of the command line is no folder. -/
  | noScenario (path : Path)
  /-- The patch tool has no name. -/
  | blankTool
  /-- The path of the patch tool leads nowhere. -/
  | noTool (name : String)
  /-- The path of the patch tool could not be followed. -/
  | lostTool (name : String) (e : IoError)
  /-- No folder of programs has the patch tool. -/
  | toolNotFound (name : String)
  /-- The escalation command has a quote that is never closed. -/
  | openQuote (line : String)
  /-- The escalation command has no words. -/
  | noEscalation
  /-- The diagnostic log could not be opened. -/
  | noLog (path : Path) (e : IoError)
  /-- The record of progress could not be written. -/
  | noProgress (e : IoError)
  /-- The summary could not be written. -/
  | noSummary (e : IoError)
  deriving DecidableEq, Repr

namespace Refusal

inductive Cause
  /-- The machine refused. -/
  | machine
  /-- A document has a problem of this kind. -/
  | document (c : Json.Category)
  /-- A command line has an open quote. -/
  | words
  /-- A program was not found. -/
  | search
  /-- What was given makes no sense. -/
  | request
  deriving DecidableEq, Repr

def cause : Refusal → Cause
  | unreadable _ _ => .machine
  | badDocument _ p => .document p.category
  | lostTool _ _ => .machine
  | toolNotFound _ => .search
  | openQuote _ => .words
  | noLog _ _ => .machine
  | noProgress _ => .machine
  | noSummary _ => .machine
  | _ => .request

def openQuoteText : String := "missing closing quote"

def searchText : String := "cannot find binary path"

def message : Refusal → String
  | unreadable path e => "read " ++ path.shown ++ ": " ++ e.message
  | badDocument path p => "parse " ++ path.shown ++ ": " ++ p.message
  | blankExecName path => path.shown ++ ": exec_name must be non-empty"
  | badSpec e => e.message
  | noScenarioFolder root => "scenario root " ++ root.shown ++ " is not a directory"
  | noTree tree => "missing program tree " ++ tree.shown
  | noScenario path => "scenario " ++ path.shown ++ " is not a directory"
  | blankTool => "resolve patch tool: program name is empty"
  | noTool name => "resolve patch tool: " ++ name ++ " does not exist"
  | lostTool name e => "resolve patch tool: resolve " ++ name ++ ": " ++ e.message
  | toolNotFound name => "resolve patch tool: " ++ name ++ " not found on PATH: " ++ searchText
  | openQuote line => "parse --escalate-with " ++ Text.quoted line ++ ": " ++ openQuoteText
  | noEscalation => "--escalate-with must name a command"
  | noLog path e => "open diagnostic log " ++ path.shown ++ ": " ++ e.message
  | noProgress e => "write progress: " ++ e.message
  | noSummary e => e.message

end Refusal
end PatchTrial
