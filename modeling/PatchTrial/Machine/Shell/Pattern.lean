import PatchTrial.Machine.Program

/-!
Patterns for names and texts: a star for any text, a question mark for any character, and brackets
for a set of characters. A quoted character stands for itself.
-/
namespace PatchTrial.Machine.Shell

/-- A character of a pattern, and whether it is quoted. -/
abbrev Glob := List (Char × Bool)

/-- Whether a character can make a text a pattern. -/
def isActive (c : Char × Bool) : Bool := !c.2 && (c.1 == '*' || c.1 == '?' || c.1 == '[')

/-- The ranges of a set up to its closing bracket, and what follows it. -/
def setOf : Nat → Bool → Glob → Option (List (Char × Char) × Glob)
  | 0, _, _ => none
  | _ + 1, _, [] => none
  | budget + 1, first, (c, q) :: rest =>
    if c == ']' && !q && !first then some ([], rest)
    else
      match rest with
      | ('-', false) :: (d, _) :: more =>
        if d == ']' then (setOf budget false rest).map fun r => ((c, c) :: r.1, r.2)
        else (setOf budget false more).map fun r => ((c, d) :: r.1, r.2)
      | _ => (setOf budget false rest).map fun r => ((c, c) :: r.1, r.2)

/-- A set of characters in brackets: whether it is a complement, its ranges, and what follows. -/
def set? (g : Glob) : Option (Bool × List (Char × Char) × Glob) :=
  let (negated, g) := match g with
    | ('!', false) :: rest => (true, rest)
    | ('^', false) :: rest => (true, rest)
    | g => (false, g)
  (setOf (g.length + 1) true g).map fun r => (negated, r.1, r.2)

/-- Whether a pattern matches a text. The budget is any number above the lengths of both. -/
def matchesWithin : Nat → Glob → Text → Bool
  | 0, _, _ => false
  | _ + 1, [], t => t.isEmpty
  | budget + 1, (c, q) :: rest, t =>
    if !q && c == '*' then
      matchesWithin budget rest t ||
        match t with
        | [] => false
        | _ :: more => matchesWithin budget ((c, q) :: rest) more
    else
      match t with
      | [] => false
      | d :: more =>
        if !q && c == '?' then matchesWithin budget rest more
        else if !q && c == '[' then
          match set? rest with
          | some (negated, ranges, after) =>
            (ranges.any fun r => r.1 ≤ d && d ≤ r.2) != negated && matchesWithin budget after more
          | none => c == d && matchesWithin budget rest more
        else c == d && matchesWithin budget rest more

def Glob.matches (g : Glob) (t : Text) : Bool := matchesWithin (g.length + t.length + 1) g t

/-- A text without what a pattern matches at its start. -/
def Glob.trimStart (g : Glob) (longest : Bool) (t : Text) : Text :=
  let sizes := List.range (t.length + 1)
  let sizes := if longest then sizes.reverse else sizes
  match sizes.find? fun n => g.matches (t.take n) with
  | some n => t.drop n
  | none => t

/-- A text without what a pattern matches at its end. -/
def Glob.trimFinish (g : Glob) (longest : Bool) (t : Text) : Text :=
  let sizes := List.range (t.length + 1)
  let sizes := if longest then sizes else sizes.reverse
  match sizes.find? fun n => g.matches (t.drop n) with
  | some n => t.take n
  | none => t

end PatchTrial.Machine.Shell
