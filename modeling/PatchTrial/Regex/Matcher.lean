import PatchTrial.Regex.Node

/-!
Matching. A node is run with what is to follow it: it takes text from the front and hands the place
it reached to what follows, and when that fails it tries its next way. So the first way that lets
everything after it succeed is the one that is taken, and among the places of a text where a match
can start the first one wins.

A repetition without a bound goes on only while its rounds take text, so as many rounds are enough
as there are characters left.
-/
namespace PatchTrial.Regex

/-- A place in a text: the character before it, if there is one, the text after it, and how many
characters are before it. -/
structure Place where
  prev : Option Char
  rest : List Char
  index : Nat
  deriving DecidableEq, Repr

/-- A part of a text: so many characters from the front of what is left of it. -/
structure Span where
  rest : List Char
  length : Nat
  deriving DecidableEq, Repr

def Span.text (s : Span) : List Char := s.rest.take s.length

/-- The groups that took part so far, the latest first. -/
abbrev Groups := List (Nat × Span)

/-- What is to follow a node. -/
abbrev Follow := Place → Groups → Option Groups

/-- Whether there is a character of a set just before a place. -/
def Place.isAfter (p : Place) (set : CharSet) : Bool :=
  p.prev.any fun c => set.contains c.toNat

/-- Whether there is a character of a set just after a place. -/
def Place.isBefore (p : Place) (set : CharSet) : Bool :=
  p.rest.head?.any fun c => set.contains c.toNat

def Place.spanTo (p q : Place) : Span := ⟨p.rest, q.index - p.index⟩

/-- The place after the first character of what is left. -/
def Place.after (p : Place) (c : Char) (rest : List Char) : Place := ⟨some c, rest, p.index + 1⟩

def Look.holds : Look → Place → Bool
  | start, p => p.prev.isNone
  | finish, p => p.rest.isEmpty
  | lineStart, p => p.prev.all (· == '\n')
  | lineFinish, p => p.rest.head?.all (· == '\n')
  | anyLineStart, p =>
    p.prev.all fun c => c == '\n' || (c == '\r' && p.rest.head? != some '\n')
  | anyLineFinish, p =>
    p.rest.head?.all fun c => c == '\r' || (c == '\n' && p.prev != some '\r')
  | wordEdge parts, p => p.isAfter parts != p.isBefore parts
  | noWordEdge parts, p => p.isAfter parts == p.isBefore parts
  | wordStart parts, p => !p.isAfter parts && p.isBefore parts
  | wordFinish parts, p => p.isAfter parts && !p.isBefore parts
  | noWordBefore parts, p => !p.isAfter parts
  | noWordAfter parts, p => !p.isBefore parts

/-- The first way, or the second if that fails. -/
def Follow.either (first second : Follow) : Follow := fun p g =>
  match first p g with
  | some found => some found
  | none => second p g

/-- Another round or none; a greedy repetition prefers the round. -/
def Follow.round (greedy : Bool) (more stop : Follow) : Follow :=
  if greedy then more.either stop else stop.either more

/-- A part exactly `n` times. -/
def Follow.times (part : Follow → Follow) : Nat → Follow → Follow
  | 0, k => k
  | n + 1, k => part (times part n k)

/-- A part at most `n` times. -/
def Follow.upTo (part : Follow → Follow) (greedy : Bool) : Nat → Follow → Follow
  | 0, k => k
  | n + 1, k => round greedy (part (upTo part greedy n k)) k

/-- Rounds of a part that each take text, at most `n` of them. -/
def Follow.rounds (part : Follow → Follow) (greedy : Bool) (k : Follow) : Nat → Follow
  | 0 => k
  | n + 1 => fun p g =>
    round greedy
      (part fun q g' => if p.index < q.index then rounds part greedy k n q g' else none)
      k p g

/-- One round of a part, and more while they take text. -/
def Follow.many (part : Follow → Follow) (greedy : Bool) (k : Follow) : Follow := fun p g =>
  part (fun q g' =>
    if p.index < q.index then rounds part greedy k q.rest.length q g' else k q g') p g

/-- Runs a node, with what is to follow it. -/
def Node.run : Node → Follow → Follow
  | empty, k => k
  | one set, k => fun p g =>
    match p.rest with
    | c :: rest => if set.contains c.toNat then k (p.after c rest) g else none
    | [] => none
  | look l, k => fun p g => if l.holds p then k p g else none
  | group index part, k => fun p g =>
    part.run (fun q g' => k q ((index, p.spanTo q) :: g')) p g
  | seq first second, k => first.run (second.run k)
  | alt first second, k => Follow.either (first.run k) (second.run k)
  | repeated part least (some most) greedy, k =>
    Follow.times part.run least (Follow.upTo part.run greedy (most - least) k)
  | repeated part 0 none greedy, k =>
    Follow.round greedy (Follow.many part.run greedy k) k
  | repeated part (least + 1) none greedy, k =>
    Follow.times part.run least (Follow.many part.run greedy k)

def Follow.nothing : Follow := fun _ g => some g

/-- The places of a text, from one on whose text is given. -/
def placesFrom (prev : Option Char) (index : Nat) : List Char → List Place
  | [] => [⟨prev, [], index⟩]
  | c :: rest => ⟨prev, c :: rest, index⟩ :: placesFrom (some c) (index + 1) rest

def places (text : List Char) : List Place := placesFrom none 0 text

def Node.matchAt (node : Node) (p : Place) : Option Groups := node.run Follow.nothing p []

end PatchTrial.Regex
