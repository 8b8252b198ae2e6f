import PatchTrial.Regex

/-!
Checks. A check reads a key, and most checks a value, from the captures of one line. What a rule
makes of a value depends only on the last observation of the key, so `Rule.observe` is a function
of that observation and the value: either the next observation or a violation.
-/
namespace PatchTrial.Validator

/-- Where a check takes its key from. -/
inductive KeyRef
  /-- The key itself. -/
  | named (name : String)
  /-- The text of a group. -/
  | group (index : Nat)
  deriving DecidableEq, Repr

/-- What is expected of the values of a key. -/
inductive Rule
  /-- The value never differs from the first one. -/
  | stable
  /-- The value changes at most once. -/
  | changeOnce
  /-- The value is one text and from some moment on another. -/
  | transition (before after : String)
  deriving DecidableEq, Repr

/-- What a check looks at. -/
inductive Test
  /-- That the key occurs at all. -/
  | appears
  /-- The text of a group, under a rule. -/
  | value (group : Nat) (rule : Rule)
  deriving DecidableEq, Repr

/-- A check on the captures of a line. -/
structure Check where
  key : KeyRef
  test : Test
  deriving DecidableEq, Repr

/-- The groups a check reads: that of its key first. -/
def Check.groups (c : Check) : List Nat :=
  (match c.key with
    | .named _ => []
    | .group index => [index]) ++
  match c.test with
    | .appears => []
    | .value group _ => [group]

/-- What is known of a key: its last value, and whether that was reached by a change. -/
structure Observation where
  value : String
  changed : Bool
  deriving DecidableEq, Repr

def Observation.baseline (value : String) : Observation := ⟨value, false⟩

inductive Violation
  /-- The group of the key took no part in the match. -/
  | keyMissing
  /-- The group of the value took no part in the match. -/
  | valueMissing (group : Nat)
  /-- A stable value moved. -/
  | moved (key first found : String)
  /-- A value that may change once changed again. -/
  | changedAgain (key previous found : String)
  /-- A value left the text it had changed to. -/
  | leftAfter (key after found : String)
  /-- The later text came before the earlier one was ever seen. -/
  | noBaseline (key found before : String)
  /-- A value other than either text. -/
  | notBefore (key before found : String)
  deriving DecidableEq, Repr

def Violation.message : Violation → String
  | keyMissing => "key capture group did not participate in the match"
  | valueMissing group =>
    "capture group " ++ toString group ++ " did not participate in the match"
  | moved key first found => key ++ " should remain " ++ first ++ ", is " ++ found
  | changedAgain key previous found =>
    key ++ " changed more than once: previous value was " ++ previous ++ ", new value is " ++ found
  | leftAfter key after found =>
    key ++ " should stay " ++ after ++ " after patching, is " ++ found
  | noBaseline key found before =>
    key ++ " was " ++ found ++ " before a baseline of " ++ before ++ " was observed"
  | notBefore key before found =>
    key ++ " should be " ++ before ++ " before patching, is " ++ found

/-- What a rule makes of a value, given the last observation of its key. -/
def Rule.observe (rule : Rule) (key : String) (last : Option Observation) (value : String) :
    Except Violation Observation :=
  match rule, last with
  | stable, none => .ok (.baseline value)
  | stable, some seen =>
    if seen.value = value then .ok seen else .error (.moved key seen.value value)
  | changeOnce, none => .ok (.baseline value)
  | changeOnce, some seen =>
    if seen.value = value then .ok seen
    else if seen.changed then .error (.changedAgain key seen.value value)
    else .ok ⟨value, true⟩
  | transition before after, none =>
    if value = after then .error (.noBaseline key value before)
    else if value = before then .ok (.baseline value)
    else .error (.notBefore key before value)
  | transition before after, some seen =>
    if seen.changed then
      if value = after then .ok seen else .error (.leftAfter key after value)
    else if value = after then .ok ⟨value, true⟩
    else if value = before then .ok (.baseline value)
    else .error (.notBefore key before value)

/-- The key of a check in a line, if its group took part in the match. -/
def KeyRef.resolve (k : KeyRef) (captures : Regex.Captures) : Option String :=
  match k with
  | named name => some name
  | group index => captures.get? index

end PatchTrial.Validator
