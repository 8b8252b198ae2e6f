import PatchTrial.Machine.Program

/-!
Commands of a shell as trees.
-/
namespace PatchTrial.Machine.Shell

inductive Use
  /-- Its value. -/
  | value
  /-- Its value, or a word if it has none; `empty` says whether an empty value counts as none. -/
  | orElse (empty : Bool)
  /-- The same, and the word becomes the value. -/
  | orAssign (empty : Bool)
  /-- Its value, or a complaint and the end. -/
  | orFail (empty : Bool)
  /-- A word if it has a value. -/
  | ifSet (empty : Bool)
  /-- The length of its value. -/
  | length
  /-- Its value without what a pattern matches at its start or its end. -/
  | trimStart (longest : Bool)
  | trimFinish (longest : Bool)
  deriving DecidableEq, Repr

inductive Direction
  | input
  | output
  | append
  | inout
  /-- From or to a file that is open. -/
  | same
  /-- From a text in the program itself. -/
  | here
  deriving DecidableEq, Repr

mutual

inductive Part
  | plain (t : Text)
  | quoted (t : Text)
  | parameter (name : Text) (use : Use) (word : List Part) (inQuotes : Bool)
  | output (c : Command) (inQuotes : Bool)
  | sum (e : List Part) (inQuotes : Bool)

inductive Redirection
  | mk (file : Nat) (direction : Direction) (target : List Part)

inductive Command
  | nothing
  | simple (line : Nat) (assignments : List (Text × List Part)) (words : List (List Part))
      (redirections : List Redirection)
  | pipeline (commands : List Command)
  | not (c : Command)
  | both (a b : Command)
  | either (a b : Command)
  | seq (a b : Command)
  | background (c : Command)
  | cond (test yes no : Command)
  | loop (test body : Command) (negated : Bool)
  | each (name : Text) (words : Option (List (List Part))) (body : Command)
  | choose (word : List Part) (arms : List (List (List Part) × Command))
  | subshell (c : Command)
  | redirected (line : Nat) (c : Command) (redirections : List Redirection)
  | define (name : Text) (body : Command)

end

instance : Inhabited Command := ⟨.nothing⟩
instance : Inhabited Part := ⟨.plain []⟩

abbrev Word := List Part

def isNameStart (c : Char) : Bool := c.isAlpha || c == '_'

def isNamePart (c : Char) : Bool := c.isAlphanum || c == '_'

def isName : Text → Bool
  | [] => false
  | c :: rest => isNameStart c && rest.all isNamePart

/-- A character that ends a word unless it is quoted. -/
def endsWord (c : Char) : Bool := " \t\n;&|<>()".toList.contains c

end PatchTrial.Machine.Shell
