import PatchTrial.Text.Blank
import PatchTrial.Text.CaseFold
import PatchTrial.Text.Property
import PatchTrial.Text.Script

/-!
Sets of characters, as patterns write them. A set keeps the shape in which it was written, so that
its meaning is read off that shape: `contains` has one line for each way of building a set.
-/
namespace PatchTrial.Regex

inductive CharSet
  /-- No code point. -/
  | empty
  /-- The code points from `low` to `high`. -/
  | range (low high : Nat)
  /-- The code points whose general category is one of those given. -/
  | category (tags : List String)
  /-- The code points of a script. -/
  | script (code : String)
  /-- The code points with a property. -/
  | property (p : Text.Property)
  /-- White space. -/
  | blank
  /-- What is in either set. -/
  | union (a b : CharSet)
  /-- What is in both sets. -/
  | inter (a b : CharSet)
  /-- What is not in the set. -/
  | complement (a : CharSet)
  /-- What is equal up to case to something in the set. -/
  | upToCase (a : CharSet)
  /-- The same, where case is that of the basic letters alone. -/
  | upToBasicCase (a : CharSet)

namespace CharSet

/-- The basic letter that differs from a code point in case only, or the code point itself. -/
def otherBasicCase (point : Nat) : Nat :=
  if 65 ≤ point && point ≤ 90 then point + 32
  else if 97 ≤ point && point ≤ 122 then point - 32
  else point

def contains : CharSet → Nat → Bool
  | empty, _ => false
  | range low high, n => low ≤ n && n ≤ high
  | category tags, n => Text.hasCategory tags n
  | script code, n => Text.script n == code
  | property p, n => p.holds n
  | blank, n => Text.isBlank (Char.ofNat n) && n < 0x110000
  | union a b, n => a.contains n || b.contains n
  | inter a b, n => a.contains n && b.contains n
  | complement a, n => !a.contains n
  | upToCase a, n => (Text.sameUpToCase n).any a.contains
  | upToBasicCase a, n => a.contains n || a.contains (otherBasicCase n)

def single (c : Char) : CharSet := range c.toNat c.toNat

def all : CharSet := complement empty

/-- What is in one set and not in the other. -/
def diff (a b : CharSet) : CharSet := inter a (complement b)

/-- What is in just one of two sets. -/
def symmDiff (a b : CharSet) : CharSet := union (diff a b) (diff b a)

def ofRanges (ranges : List (Nat × Nat)) : CharSet :=
  ranges.foldr (fun r s => union (range r.1 r.2) s) empty

/-- The first code points, those of seven bits. -/
def basic : CharSet := range 0 127

/-- Whether the set holds none of the bytes above seven bits. -/
def isBasicByteSet (a : CharSet) : Bool :=
  (List.range 128).all fun n => !a.contains (n + 128)

def digits : CharSet := category ["Nd"]

/-- Characters of words: letters, marks, digits, connecting punctuation and joiners. -/
def wordParts : CharSet :=
  union (property .alphabetic)
    (union (category (Text.markTags ++ ["Nd", "Pc"])) (range 0x200C 0x200D))

def basicDigits : CharSet := range 48 57

def basicBlank : CharSet := union (range 9 13) (single ' ')

def basicWordParts : CharSet := ofRanges [(48, 57), (65, 90), (95, 95), (97, 122)]

def named? : String → Option CharSet
  | "alnum" => some (ofRanges [(48, 57), (65, 90), (97, 122)])
  | "alpha" => some (ofRanges [(65, 90), (97, 122)])
  | "ascii" => some basic
  | "blank" => some (ofRanges [(9, 9), (32, 32)])
  | "cntrl" => some (ofRanges [(0, 31), (127, 127)])
  | "digit" => some basicDigits
  | "graph" => some (range 33 126)
  | "lower" => some (range 97 122)
  | "print" => some (range 32 126)
  | "punct" => some (ofRanges [(33, 47), (58, 64), (91, 96), (123, 126)])
  | "space" => some basicBlank
  | "upper" => some (range 65 90)
  | "word" => some basicWordParts
  | "xdigit" => some (ofRanges [(48, 57), (65, 70), (97, 102)])
  | _ => none

end CharSet
end PatchTrial.Regex
