import PatchTrial.Regex.CharSet

/-!
Patterns as trees. A node says what text it accepts; which of several ways is taken is said by the
order of its parts, and by whether a repetition is greedy.
-/
namespace PatchTrial.Regex

/-- A condition on a place between characters. -/
inductive Look
  /-- The start of the text. -/
  | start
  /-- The end of the text. -/
  | finish
  /-- The start of a line. -/
  | lineStart
  /-- The end of a line. -/
  | lineFinish
  /-- The start of a line, where carriage returns end lines too. -/
  | anyLineStart
  /-- The end of a line, where carriage returns end lines too. -/
  | anyLineFinish
  /-- A place between a word character and none. -/
  | wordEdge (parts : CharSet)
  /-- A place that is no word edge. -/
  | noWordEdge (parts : CharSet)
  /-- A place where a word starts. -/
  | wordStart (parts : CharSet)
  /-- A place where a word ends. -/
  | wordFinish (parts : CharSet)
  /-- A place not after a word character. -/
  | noWordBefore (parts : CharSet)
  /-- A place not before a word character. -/
  | noWordAfter (parts : CharSet)

/-- A pattern. -/
inductive Node
  /-- The empty text. -/
  | empty
  /-- One character of a set. -/
  | one (set : CharSet)
  /-- The empty text at a place that meets a condition. -/
  | look (l : Look)
  /-- The text of the part, remembered under a number. -/
  | group (index : Nat) (part : Node)
  /-- One part after another. -/
  | seq (first second : Node)
  /-- One part or another, the first one preferred. -/
  | alt (first second : Node)
  /-- A part at least `least` times and, if `most` is given, at most that often. -/
  | repeated (part : Node) (least : Nat) (most : Option Nat) (greedy : Bool)

namespace Node

/-- The highest number of a group that can take part in a match: a part that is repeated no times
at all counts as if it were not there. -/
def groupCount : Node → Nat
  | empty => 0
  | one _ => 0
  | look _ => 0
  | group index part => max index part.groupCount
  | seq first second => max first.groupCount second.groupCount
  | alt first second => max first.groupCount second.groupCount
  | repeated part least most _ =>
    if least = 0 && most = some 0 then 0 else part.groupCount

/-! ### Size

An engine refuses a pattern when the program it makes of it takes more than `sizeLimit` bytes. How
large that program is depends on how the engine is built. It is estimated here, and the figures
below are those of the estimate. -/

def bytesOf (point : Nat) : Nat :=
  if point < 0x80 then 1 else if point < 0x800 then 2 else if point < 0x10000 then 3 else 4

/-- How many ranges a set of basic characters is written with, if it is one. -/
def basicRanges? : CharSet → Option Nat
  | .empty => some 0
  | .range _ high => if high < 0x80 then some 1 else none
  | .union a b => do return (← basicRanges? a) + (← basicRanges? b)
  | _ => none

/-- An estimate of the room that the characters of a general category take. -/
def categorySize : String → Nat
  | "Lu" => 26300
  | "Ll" => 27300
  | "Lo" => 32000
  | "Lm" => 4600
  | "Mn" => 18100
  | "Mc" => 11000
  | "Nd" => 4500
  | "No" => 5000
  | "Po" => 9500
  | "So" => 12700
  | "Sm" => 3900
  | "Cn" => 40500
  | _ => 1500

/-- An estimate of the room that a set takes at most, however many characters it has. -/
def setLimit : Nat := 47000

/-- An estimate of the room that a set takes when the pattern is made ready for matching. -/
def setSize (s : CharSet) : Nat :=
  match basicRanges? s with
  | some n => if n ≤ 1 then 32 else 32 + 8 * n
  | none => min setLimit (go s)
where
  /-- The estimate for a set that is more than some basic characters. -/
  go : CharSet → Nat
    | .empty => 0
    | .range low high =>
      if low = high then 32 * bytesOf low
      else if bytesOf low = bytesOf high then 200
      else 250 * bytesOf high
    | .category tags => (tags.map categorySize).sum
    | .script _ => 2500
    | .property p => (p.tags.map categorySize).sum + 30 * p.exceptions.length
    | .blank => 700
    | .union a b => go a + go b
    | .inter a b => max (go a) (go b)
    | .complement a => 2 * go a + 600
    | .upToCase a => 2 * go a
    | .upToBasicCase a => 2 * go a

/-- An estimate of the room that a pattern takes when it is made ready for matching. -/
def size : Node → Nat
  | empty => 32
  | one set => setSize set
  | look _ => 32
  | group _ part => 64 + part.size
  | seq first second => first.size + second.size
  | alt first second => 32 + first.size + second.size
  | repeated part least most _ =>
    match most with
    | some most => most * part.size + (most - least) * 40
    | none => max least 1 * part.size + 40

/-- The size of the largest pattern that is accepted, in bytes. -/
def sizeLimit : Nat := 10 * 1024 * 1024

end Node
end PatchTrial.Regex
