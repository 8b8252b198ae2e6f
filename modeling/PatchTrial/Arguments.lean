import PatchTrial.Path

/-!
The command line. Words are read from left to right. Three positions are filled by words that are no
options: the scenario, the name of the executable, and the arguments of the target, which take all
words from the first one on. A value is looked at only when the next word that is understood, or the
end, shows that it is complete; so a word that is not understood is reported before a bad value that
stands in front of it.

Words are texts. A word that is not Unicode is left out: the values that are paths (the scenario,
the root and the diagnostic log) could be given by such a word, and any other value is refused then.
-/
namespace PatchTrial

/-- What a run was asked to do. -/
structure Arguments where
  scenario : Option Path := none
  execName : Option String := none
  targetArgs : List String := []
  /-- Whether the scenario is a folder of scenarios. -/
  directory : Bool := false
  elevated : Bool := false
  patchTool : String := "./katana"
  escalateWith : String := "sudo"
  settleMs : Option Nat := none
  observeMs : Option Nat := none
  terminateGraceMs : Nat := 1000
  diagnosticLog : Path := .ofString "validator_log"
  root : Path := .ofString "."
  logLevel : String := "warn"
  deriving DecidableEq, Repr

inductive UsageError
  /-- A word is no option. -/
  | unknownArgument
  /-- An option needs an argument that is not there. -/
  | missingRequired
  /-- An option is given twice. -/
  | conflict
  /-- A value is no number. -/
  | badValue
  /-- A value is missing or empty. -/
  | emptyValue
  /-- A flag has a value. -/
  | tooManyValues
  /-- The help is asked for. -/
  | help
  /-- The version is asked for. -/
  | version
  deriving DecidableEq, Repr

namespace UsageError

def exitCode : UsageError → Nat
  | help => 0
  | version => 0
  | _ => 1

end UsageError

namespace Arguments

/-- What can be given once. -/
inductive Slot
  | scenario
  | execName
  | targetArgs
  | directory
  | elevated
  | patchTool
  | escalateWith
  | settleMs
  | observeMs
  | terminateGraceMs
  | diagnosticLog
  | root
  | logLevel
  deriving DecidableEq, Repr

/-- What a word that begins with hyphens stands for. -/
inductive Switch
  | flag (slot : Slot)
  | valued (slot : Slot)
  | help
  | version
  deriving DecidableEq, Repr

def long? : String → Option Switch
  | "directory" => some (.flag .directory)
  | "elevated" => some (.flag .elevated)
  | "patch-tool" => some (.valued .patchTool)
  | "escalate-with" => some (.valued .escalateWith)
  | "settle-ms" => some (.valued .settleMs)
  | "observe-ms" => some (.valued .observeMs)
  | "terminate-grace-ms" => some (.valued .terminateGraceMs)
  | "diagnostic-log" => some (.valued .diagnosticLog)
  | "root" => some (.valued .root)
  | "log-level" => some (.valued .logLevel)
  | "help" => some .help
  | "version" => some .version
  | _ => none

/-- The options by their letters; none of them has a value. -/
def short? : Char → Option Switch
  | 'd' => some (.flag .directory)
  | 'h' => some .help
  | 'V' => some .version
  | _ => none

def msLimit : Nat := Nat.pow 2 64 - 1

/-- A number of milliseconds: digits after at most one plus sign. -/
def ms? (text : String) : Option Nat :=
  let digits := match text.toList with
    | '+' :: rest => rest
    | cs => cs
  if digits.isEmpty || !digits.all Char.isDigit then none
  else
    let n := digits.foldl (fun n c => n * 10 + (c.toNat - '0'.toNat)) 0
    if n ≤ msLimit then some n else none

def readMs (text : String) : Except UsageError Nat :=
  match ms? text with
  | some n => .ok n
  | none => .error .badValue

/-- A path that is not empty, or the error of one. -/
def readPath (text : String) : Except UsageError Path :=
  if text.isEmpty then .error .emptyValue else .ok (.ofString text)

/-- How far the words are read. -/
structure Reading where
  args : Arguments := {}
  /-- What was given, and is complete. -/
  given : List Slot := []
  /-- What is being given, with its values so far. -/
  pending : Option (Slot × List String) := none
  /-- Whether an option waits for its value. -/
  waiting : Bool := false
  /-- The number of positions filled, the last one never counting as filled. -/
  filled : Nat := 0
  /-- Whether all words from here on fill positions. -/
  trailing : Bool := false

namespace Reading

/-- Gives a slot its values. -/
def give (a : Arguments) : Slot → List String → Except UsageError Arguments
  | .directory, _ => .ok { a with directory := true }
  | .elevated, _ => .ok { a with elevated := true }
  | .targetArgs, values => .ok { a with targetArgs := values }
  | _, [] => .error .emptyValue
  | .scenario, text :: _ => do return { a with scenario := some (← readPath text) }
  | .execName, text :: _ => .ok { a with execName := some text }
  | .patchTool, text :: _ => .ok { a with patchTool := text }
  | .escalateWith, text :: _ => .ok { a with escalateWith := text }
  | .settleMs, text :: _ => do return { a with settleMs := some (← readMs text) }
  | .observeMs, text :: _ => do return { a with observeMs := some (← readMs text) }
  | .terminateGraceMs, text :: _ => do return { a with terminateGraceMs := ← readMs text }
  | .diagnosticLog, text :: _ => do return { a with diagnosticLog := ← readPath text }
  | .root, text :: _ => do return { a with root := ← readPath text }
  | .logLevel, text :: _ => .ok { a with logLevel := text }

/-- Whether a slot has no values of its own. -/
def isFlag (slot : Slot) : Bool := slot == .directory || slot == .elevated

/-- Completes a slot: it has a value if it needs one, it was not given before, and its value can be
read, in this order. -/
def complete (r : Reading) (slot : Slot) (values : List String) : Except UsageError Reading := do
  if values.isEmpty && !isFlag slot then throw .emptyValue
  if slot ∈ r.given then throw .conflict
  return { r with args := ← give r.args slot values, given := slot :: r.given }

/-- Completes what is being given. -/
def settle (r : Reading) : Except UsageError Reading :=
  match r.pending with
  | none => .ok r
  | some (slot, values) => { r with pending := none }.complete slot values

def switch (r : Reading) : Switch → Except UsageError Reading
  | .help => do
    let _ ← r.settle
    throw .help
  | .version => do
    let _ ← r.settle
    throw .version
  | .flag slot => do
    let r ← r.settle
    return { (← r.complete slot []) with waiting := false }
  | .valued slot => do
    let r ← r.settle
    return { r with pending := some (slot, []), waiting := true }

def letters (r : Reading) : List Char → Except UsageError Reading
  | [] => .ok r
  | c :: rest =>
    match short? c with
    | none => .error .unknownArgument
    | some s => do letters (← r.switch s) rest

def fill (r : Reading) (word : String) : Except UsageError Reading :=
  match r.filled with
  | 0 => do
    return { (← r.settle) with pending := some (.scenario, [word]), filled := 1, waiting := false }
  | 1 => do
    return { (← r.settle) with pending := some (.execName, [word]), filled := 2, waiting := false }
  | _ =>
    match r.pending with
    | some (.targetArgs, values) =>
      .ok { r with pending := some (.targetArgs, values ++ [word]), trailing := true }
    | _ => do
      return { (← r.settle) with
        pending := some (.targetArgs, [word]), trailing := true, waiting := false }

/-- Reads a word as the value that is waited for, or else as one that fills a position. -/
def value (r : Reading) (word : String) : Except UsageError Reading :=
  match r.waiting, r.pending with
  | true, some (slot, values) =>
    .ok { r with pending := some (slot, values ++ [word]), waiting := false }
  | _, _ => r.fill word

/-- Whether a word that looks like an option and is none fills the next position: the arguments of
the target may begin with hyphens. -/
def takesHyphens (r : Reading) : Bool := 2 ≤ r.filled

/-- What stands before and after the first equals sign. -/
def splitEquals (cs : List Char) : List Char × Option (List Char) :=
  match cs.span (· != '=') with
  | (name, []) => (name, none)
  | (name, _ :: value) => (name, some value)

def word (r : Reading) (w : String) : Except UsageError Reading :=
  if r.trailing then r.fill w
  else match w.toList with
    | ['-', '-'] => .ok { r with trailing := true }
    | '-' :: '-' :: rest =>
      let (name, attached) := splitEquals rest
      -- a name that is not known may still be a word for the target
      match long? (String.ofList name), attached with
      | none, _ => if r.takesHyphens then r.value w else .error .unknownArgument
      | some (.valued slot), some text => do
        let r ← r.settle
        return { (← r.complete slot [String.ofList text]) with waiting := false }
      | some _, some _ => .error .tooManyValues
      | some s, none => r.switch s
    | '-' :: c :: rest =>
      if r.takesHyphens && (c :: rest).any fun c => (short? c).isNone then r.value w
      else r.letters (c :: rest)
    | _ => r.value w

/-- Reads words in order. -/
def words : Reading → List String → Except UsageError Reading
  | r, [] => .ok r
  | r, w :: rest => do words (← r.word w) rest

end Reading

/-- What a list of words asks for, each of them a text. -/
def ofWords (words : List String) : Except UsageError Arguments := do
  let r ← Reading.words {} words
  let r ← r.settle
  -- the one thing that depends on all words together
  if r.args.directory && r.args.scenario.isNone then throw .missingRequired
  return r.args

end Arguments
end PatchTrial
