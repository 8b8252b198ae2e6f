import PatchTrial.Validator.Check

/-!
What a validation remembers between lines: how many lines there were, the last observation of every
key, and which keys were met. Checks of one line are applied in order up to the first that is
broken; what the earlier ones recorded stays, and so does the key of the broken one.
-/
namespace PatchTrial.Validator

/-- The last observation of every key that has one, in the order of their first values. -/
abbrev Observations := List (String × Observation)

/-- Records an observation in place of the last one of the same key. -/
def Observations.put (key : String) (o : Observation) : Observations → Observations
  | [] => [(key, o)]
  | (k, last) :: rest =>
    if k = key then (key, o) :: rest else (k, last) :: put key o rest

/-- What a validation carries from one line to the next. -/
structure State where
  lineNo : Nat := 0
  observations : Observations := []
  /-- The keys some check met, the latest first. -/
  seen : List String := []
  /-- The keys that were only to appear, the latest first. -/
  appeared : List String := []
  deriving DecidableEq, Repr

namespace State

def observation? (s : State) (key : String) : Option Observation := s.observations.lookup key

def changed (s : State) (key : String) : Bool :=
  match s.observation? key with
  | some o => o.changed
  | none => false

def hasSeen (s : State) (key : String) : Bool := s.seen.contains key

/-- Whether there is any sign of the patch: a change, or a key that was to appear. -/
def patched (s : State) : Bool :=
  !s.appeared.isEmpty || s.observations.any fun entry => entry.2.changed

def nextLine (s : State) : State := { s with lineNo := s.lineNo + 1 }

def meet (s : State) (key : String) : State := { s with seen := key :: s.seen }

def appear (s : State) (key : String) : State := { s with appeared := key :: s.appeared }

def record (s : State) (key : String) (o : Observation) : State :=
  { s with observations := s.observations.put key o }

end State

/-- Applies a check to the captures of a line: the state after it, and how it was broken if it
was. -/
def Check.apply (c : Check) (captures : Regex.Captures) (s : State) : State × Option Violation :=
  match c.key.resolve captures with
  | none => (s, some .keyMissing)
  | some key =>
    let met := s.meet key
    match c.test with
    | .appears => (met.appear key, none)
    | .value group rule =>
      match captures.get? group with
      | none => (met, some (.valueMissing group))
      | some value =>
        match rule.observe key (met.observation? key) value with
        | .ok o => (met.record key o, none)
        | .error v => (met, some v)

/-- Applies checks in order, up to the first that is broken. -/
def applyAll (captures : Regex.Captures) : List Check → State → State × Option Violation
  | [], s => (s, none)
  | c :: rest, s =>
    match c.apply captures s with
    | (s', none) => applyAll captures rest s'
    | (s', some v) => (s', some v)

end PatchTrial.Validator
