/-!
Tables of character properties, written as runs. A table lists code points in order without naming
them: each entry says how many code points come next and, in a tagged table, what they are.
-/
namespace PatchTrial.Text

/-- The words of a table; lines are broken anywhere between words. -/
def tableWords (text : String) : List String :=
  (text.splitOn "\n").flatMap fun line => (line.splitOn " ").filter (· ≠ "")

/-- Reads a tagged table: words of a tag of `width` characters and a run length. -/
def readTagged (width : Nat) (text : String) : List (String × Nat) :=
  (tableWords text).map fun word =>
    (String.ofList (word.toList.take width),
      (String.ofList (word.toList.drop width)).toNat?.getD 0)

def readRuns (text : String) : List Nat :=
  (tableWords text).map (·.toNat?.getD 0)

/-- Reads a table of names: words of a code, an equals sign, and names with commas between them.
The result lists every name with its code. -/
def readNames (text : String) : List (String × String) :=
  (tableWords text).flatMap fun word =>
    match word.splitOn "=" with
    | [code, names] => (names.splitOn ",").map ((·, code))
    | _ => []

def tagAt : List (String × Nat) → Nat → Option String
  | [], _ => none
  | (tag, length) :: runs, point =>
    if point < length then some tag else tagAt runs (point - length)

/-- Whether a code point lies in an inside run; the runs are outside and inside in turn, the first
one outside. -/
def insideRuns : List Nat → Nat → Bool
  | [], _ => false
  | outside :: rest, point =>
    if point < outside then false
    else match rest with
      | [] => false
      | inside :: more =>
        if point - outside < inside then true else insideRuns more (point - outside - inside)

end PatchTrial.Text
