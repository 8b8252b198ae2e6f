import PatchTrial.Validator.State

/-!
Tables of line shapes. Of the shapes whose start a line has, the one with the longest start judges
it; no two shapes of a table have the same start, so the order of the shapes means nothing. A log
passes when every line is accepted and nothing that the log was to show is missing at its end.
-/
namespace PatchTrial.Validator

/-- A pattern with checks on its groups, each of which the pattern has. -/
structure Judged where
  pattern : Regex
  checks : List Check
  within : ∀ c ∈ checks, ∀ g ∈ c.groups, 1 ≤ g ∧ g ≤ pattern.groupCount

/-- A kind of line, known by its start. Without a pattern its lines are accepted as they are. -/
structure Shape where
  start : String
  judged? : Option Judged

/-- Whether a line has the start of a shape. -/
def Shape.covers (s : Shape) (line : String) : Bool := s.start.toList.isPrefixOf line.toList

/-- What a log must have shown when it ends. -/
inductive Requirement
  /-- The key made its change. -/
  | changed (key : String)
  /-- The key was met. -/
  | seen (key : String)
  deriving DecidableEq, Repr

def Requirement.met (s : State) : Requirement → Bool
  | changed key => s.changed key
  | seen key => s.hasSeen key

def Requirement.message : Requirement → String
  | changed key => "patching never happened: " ++ key ++ " never changed"
  | seen key => "patching never happened: " ++ key ++ " never appeared"

/-- The shapes of a log's lines and what the log must show. -/
structure Table where
  shapes : List Shape
  requirements : List Requirement
  nodup : (shapes.map Shape.start).Nodup

/-- What became of a line. -/
inductive Outcome
  /-- Nothing is wrong with it. -/
  | accepted
  /-- It has the start of no shape. -/
  | unrecognized
  /-- It does not match the pattern of its shape. -/
  | mismatch (pattern : String)
  /-- It breaks a check. -/
  | violation (v : Violation)
  deriving DecidableEq, Repr

/-- Why a log failed. -/
inductive Failure
  /-- A line was not accepted. -/
  | line (number : Nat) (text : String) (outcome : Outcome) (patched : Bool)
  /-- The log ended with these requirements unmet. -/
  | unmet (requirements : List Requirement)
  /-- The log could not be read. -/
  | unreadable (log reason : String)
  deriving DecidableEq, Repr

def Outcome.description (number : Nat) (text : String) : Outcome → List String
  | accepted => []
  | unrecognized =>
    ["Line " ++ toString number ++ " does not start like any expected line",
      "Offending line is: " ++ text]
  | mismatch pattern =>
    ["Line " ++ toString number ++ " did not match pattern",
      "Offending line is: " ++ text,
      "and the pattern (regex) is: " ++ pattern]
  | violation v =>
    ["Line " ++ toString number ++ " did not pass validation: " ++ v.message,
      "Offending line is: " ++ text]

/-- The note after a failing line when the patch had shown before. -/
def patchedNote : String := "Note, patching has been done"

def Failure.diagnostics : Failure → List String
  | line number text outcome patched =>
    outcome.description number text ++ if patched then [patchedNote] else []
  | unmet requirements => requirements.map Requirement.message
  | unreadable log reason => ["cannot read log file " ++ log ++ ": " ++ reason]

/-- The judgment on a log. -/
inductive Verdict
  | pass
  | fail (why : Failure)
  deriving DecidableEq, Repr

namespace Verdict

def passed : Verdict → Bool
  | pass => true
  | fail _ => false

def diagnostics : Verdict → List String
  | pass => []
  | fail why => why.diagnostics

end Verdict

/-- Of the shapes whose start a line has, the one with the longest start. -/
def Shape.dispatch (line : String) : List Shape → Option Shape
  | [] => none
  | s :: rest =>
    if s.covers line then
      -- two starts of one line that are of one length are the same, so ties play no part
      match dispatch line rest with
      | some t => if s.start.length ≤ t.start.length then some t else some s
      | none => some s
    else dispatch line rest

def Shape.judge (shape : Shape) (line : String) (s : State) : State × Outcome :=
  match shape.judged? with
  | none => (s, .accepted)
  | some j =>
    match j.pattern.captures? line with
    | none => (s, .mismatch j.pattern.text)
    | some captures =>
      match applyAll captures j.checks s with
      | (s', none) => (s', .accepted)
      -- what the checks before the broken one recorded stays
      | (s', some v) => (s', .violation v)

namespace Table

/-- Judges one line. -/
def step (t : Table) (s : State) (line : String) : State × Outcome :=
  match Shape.dispatch line t.shapes with
  -- the line counts whatever becomes of it
  | none => (s.nextLine, .unrecognized)
  | some shape => shape.judge line s.nextLine

/-- The requirements a state leaves unmet, in the order of the table. -/
def unmet (t : Table) (s : State) : List Requirement :=
  t.requirements.filter fun r => !r.met s

def finish (t : Table) (s : State) : Verdict :=
  match t.unmet s with
  | [] => .pass
  | missing => .fail (.unmet missing)

/-- Judges lines from a state on, up to the first that is not accepted. -/
def evaluateFrom (t : Table) : State → List String → Verdict
  | s, [] => t.finish s
  | s, line :: rest =>
    match t.step s line with
    | (s', .accepted) => evaluateFrom t s' rest
    | (s', outcome) => .fail (.line s'.lineNo line outcome s'.patched)

def evaluate (t : Table) (lines : List String) : Verdict := t.evaluateFrom {} lines

/-- Judges every line, also after one that is not accepted: each outcome with the state after
it. -/
def stepsFrom (t : Table) : State → List String → List (State × Outcome)
  | _, [] => []
  | s, line :: rest =>
    let next := t.step s line
    next :: stepsFrom t next.1 rest

end Table
end PatchTrial.Validator
