import PatchTrial.Regex.Node
import PatchTrial.Regex.PropertyName

/-!
Reading patterns. A pattern is read once, from left to right, into the tree it stands for; what
flags are in force is known at every character, so the tree holds no flags. Only whether a text is
a pattern matters, not what is wrong with it, so reading answers with an option.

What is read here and what an engine takes differ in two ways. Some names of properties are not
known (`PropertyName` says which), and whether a pattern is too large is decided by an estimate of
its size (`Node.size`), so near that limit a pattern may be taken that an engine refuses, or the
other way round.
-/
namespace PatchTrial.Regex

/-- What letters between a question mark and a colon or bracket turn on. -/
structure Flags where
  ignoreCase : Bool := false
  multiLine : Bool := false
  dotMatchesAll : Bool := false
  lazyFirst : Bool := false
  unicode : Bool := true
  returnsEndLines : Bool := false
  spaced : Bool := false

/-- What is still to be read, the number of groups opened so far, and their names. -/
structure Scan where
  rest : List Char
  groups : Nat := 0
  names : List String := []

/-- A reader of part of a pattern. -/
abbrev Parse := StateT Scan Option

/-- A part of a pattern with the height of its tree; flags that are set for what follows take a
place of their own, since nothing can repeat them. -/
inductive Item
  | part (node : Node) (height : Nat)
  | flags

namespace Parse

def peek : Parse (Option Char) := do return (← get).rest.head?

/-- The next character; fails at the end. -/
def here : Parse Char := do
  match (← get).rest with
  | c :: _ => return c
  | [] => failure

def advance : Parse Unit := modify fun s => { s with rest := s.rest.drop 1 }

def accept (text : List Char) : Parse Bool := do
  let s ← get
  if text.isPrefixOf s.rest then
    set { s with rest := s.rest.drop text.length }
    return true
  else return false

def dropComment (cs : List Char) : List Char := (cs.dropWhile (· != '\n')).drop 1

/-- Drops white space and comments, `budget` pieces of them at most. -/
def dropSpace : Nat → List Char → List Char
  | 0, cs => cs
  | _, [] => []
  | budget + 1, c :: cs =>
    if Text.isBlank c then dropSpace budget cs
    else if c = '#' then dropSpace budget (dropComment cs)
    else c :: cs

/-- Goes past white space and comments where they do not count. -/
def space (f : Flags) : Parse Unit :=
  if f.spaced then modify fun s => { s with rest := dropSpace s.rest.length s.rest }
  else pure ()

/-- Goes past one character and the white space after it. -/
def advanceSpace (f : Flags) : Parse Unit := do
  advance
  space f

def require (b : Bool) : Parse Unit := if b then pure () else failure

def hexValue? (c : Char) : Option Nat :=
  if '0' ≤ c ∧ c ≤ '9' then some (c.toNat - 48)
  else if 'a' ≤ c ∧ c ≤ 'f' then some (c.toNat - 87)
  else if 'A' ≤ c ∧ c ≤ 'F' then some (c.toNat - 55)
  else none

/-- The character of a code point, unless no character has it. -/
def charOf? (point : Nat) : Option Char :=
  if h : point.isValidChar then some (Char.ofNatAux point h) else none

def hexDigits (f : Flags) : Nat → Nat → Parse Nat
  | 0, value => return value
  | n + 1, value => do
    match hexValue? (← here) with
    | some d => advanceSpace f; hexDigits f n (value * 16 + d)
    | none => failure

def bracedDigits (f : Flags) : Nat → Nat → Nat → Parse Nat
  | 0, _, _ => failure
  | budget + 1, count, value => do
    let c ← here
    if c = '\x7d' then
      advanceSpace f
      require (count != 0)
      return value
    else match hexValue? c with
      | some d => advanceSpace f; bracedDigits f budget (count + 1) (value * 16 + d)
      | none => failure

/-- A character written by its code point, from the letter after the backslash on; with it, whether
it was written as two digits. -/
def hexEscape (f : Flags) : Parse (Char × Bool) := do
  let width ← match ← here with
    | 'x' => pure 2
    | 'u' => pure 4
    | _ => pure 8
  advanceSpace f
  if (← here) = '\x7b' then
    advanceSpace f
    let value ← bracedDigits f ((← get).rest.length + 1) 0 0
    return (← charOf? value, false)
  else
    let value ← hexDigits f width 0
    return (← charOf? value, width == 2)

/-- The text up to a closing brace, the brace gone past. -/
def braced (f : Flags) : Nat → List Char → Parse (List Char)
  | 0, _ => failure
  | budget + 1, text => do
    let c ← here
    if c = '\x7d' then
      advance
      return text.reverse
    else
      advanceSpace f
      braced f budget (c :: text)

/-- Cuts a text at the first place where a mark stands. -/
def cutAt? (mark : List Char) : List Char → Option (List Char × List Char)
  | [] => none
  | c :: cs =>
    if mark.isPrefixOf (c :: cs) then some ([], (c :: cs).drop mark.length)
    else (cutAt? mark cs).map fun p => (c :: p.1, p.2)

/-- The set a text between braces asks for, and whether it asks for all others. -/
def propertySet? (text : List Char) : Option (CharSet × Bool) :=
  let value (p : List Char × List Char) :=
    PropertyName.valued? (String.ofList p.1) (String.ofList p.2)
  match cutAt? ['!', '='] text, cutAt? [':'] text, cutAt? ['='] text with
  | some p, _, _ => (value p).map ((·, true))
  | none, some p, _ => (value p).map ((·, false))
  | none, none, some p => (value p).map ((·, false))
  | none, none, none => (PropertyName.named? (String.ofList text)).map ((·, false))

def maybeNot (negated : Bool) (set : CharSet) : CharSet :=
  if negated then .complement set else set

/-- The set up to case, where case does not count. -/
def maybeFold (f : Flags) (set : CharSet) : CharSet :=
  if !f.ignoreCase then set
  else if f.unicode then .upToCase set
  else .upToBasicCase set

/-- A set asked for by property, from the letter after the backslash on. -/
def propertyEscape (f : Flags) : Parse CharSet := do
  require f.unicode
  let negated := (← here) = 'P'
  advanceSpace f
  let c ← here
  let (set, other) ←
    if c = '\x7b' then
      advanceSpace f
      let text ← braced f ((← get).rest.length + 1) []
      (propertySet? text : Option _)
    else
      require (c != '\\')
      advanceSpace f
      let set ← PropertyName.named? (String.ofList [c])
      pure (set, false)
  return maybeNot (negated != other) (maybeFold f set)

/-- The set of a one-letter escape, in characters or in bytes. -/
def letterSet (f : Flags) (c : Char) : Parse CharSet := do
  let set := match c.toLower with
    | 'd' => if f.unicode then CharSet.digits else .basicDigits
    | 's' => if f.unicode then CharSet.blank else .basicBlank
    | _ => if f.unicode then CharSet.wordParts else .basicWordParts
  require (f.unicode || c.isLower)
  return maybeNot c.isUpper set

/-- What stands for itself after a backslash: every basic sign but the angle brackets. -/
def isPlainEscape (c : Char) : Bool :=
  c.toNat < 128 && !c.isAlphanum && c != '<' && c != '>'

/-- What a backslash can introduce, inside brackets and outside. -/
inductive Escape
  | char (c : Char) (twoDigits : Bool)
  | set (s : CharSet)
  | look (l : Look)

/-- The characters of words, as the flags have it. -/
def words (f : Flags) : CharSet :=
  if f.unicode then .wordParts else .basicWordParts

/-- A letter or a hyphen, of which the names of word edges are made. -/
def isEdgeLetter (c : Char) : Bool := c.isAlpha || c == '-'

def edgeLetters (f : Flags) : Nat → List Char → Parse (List Char)
  | 0, text => return text.reverse
  | budget + 1, text => do
    match ← peek with
    | some c =>
      if isEdgeLetter c then
        advanceSpace f
        edgeLetters f budget (c :: text)
      else return text.reverse
    | none => return text.reverse

/-- A word edge, after the letter b: a name in braces chooses the kind of edge. Braces that hold no
letter are left to be read as a repetition. -/
def wordEdge (f : Flags) : Parse Look := do
  let s ← get
  if s.rest.head? != some '\x7b' then return .wordEdge (words f)
  advanceSpace f
  if !isEdgeLetter (← here) then
    set s
    return .wordEdge (words f)
  let name ← edgeLetters f ((← get).rest.length) []
  require ((← here) = '\x7d')
  advance
  match String.ofList name with
  | "start" => return .wordStart (words f)
  | "end" => return .wordFinish (words f)
  | "start-half" => return .noWordBefore (words f)
  | "end-half" => return .noWordAfter (words f)
  | _ => failure

def escape (f : Flags) : Parse Escape := do
  advance
  let c ← here
  if c = 'x' || c = 'u' || c = 'U' then
    let (d, two) ← hexEscape f
    return .char d two
  if c = 'p' || c = 'P' then return .set (← propertyEscape f)
  if "dswDSW".toList.contains c then
    advance
    return .set (← letterSet f c)
  advance
  if isPlainEscape c then return .char c false
  match c with
  | 'a' => return .char '\x07' false
  | 'f' => return .char '\x0c' false
  | 't' => return .char '\t' false
  | 'n' => return .char '\n' false
  | 'r' => return .char '\r' false
  | 'v' => return .char '\x0b' false
  | 'A' => return .look .start
  | 'z' => return .look .finish
  | 'b' => return .look (← wordEdge f)
  | 'B' => return .look (.noWordEdge (words f))
  | '<' => return .look (.wordStart (words f))
  | '>' => return .look (.wordFinish (words f))
  | _ => failure

/-- The set of one character outside brackets, case counting or not. Where patterns are about
bytes, a byte above seven bits would be half a character. -/
def charSet (f : Flags) (c : Char) (twoDigits : Bool) : Parse CharSet := do
  require (f.unicode || !twoDigits || c.toNat < 128)
  return if f.unicode || c.toNat < 128 then maybeFold f (.single c) else .single c

/-- One member of a set in brackets: a character, or a set of its own. -/
def setMember (f : Flags) : Parse (Sum Char CharSet) := do
  let c ← here
  if c = '\\' then
    match ← escape f with
    | .char d two =>
      require (f.unicode || two || d.toNat < 128)
      return .inl d
    | .set s => return .inr s
    | .look _ => failure
  else
    require (f.unicode || c.toNat < 128)
    advanceSpace f
    return .inl c

/-- The next character after the one here, white space left out. -/
def peekSpace (f : Flags) : Parse (Option Char) := do
  let rest := (← get).rest.drop 1
  return (if f.spaced then dropSpace rest.length rest else rest).head?

/-- A member of a set in brackets, or a range of characters. -/
def setRange (f : Flags) : Parse CharSet := do
  let low ← setMember f
  space f
  let c ← here
  let next ← peekSpace f
  if c != '-' || next == some ']' || next == some '-' then
    match low with
    | .inl d => return .single d
    | .inr s => return s
  advanceSpace f
  match low, ← setMember f with
  | .inl a, .inl b =>
    require (a.toNat ≤ b.toNat)
    return .range a.toNat b.toNat
  | _, _ => failure

/-- A named set in brackets and colons, if that is what stands here; otherwise nothing is read. -/
def namedSet? (f : Flags) : Parse (Option CharSet) := do
  let s ← get
  match s.rest with
  | '[' :: ':' :: rest =>
    let (negated, rest) := match rest with
      | '^' :: more => (true, more)
      | _ => (false, rest)
    match cutAt? [':'] rest with
    | some (name, ']' :: after) =>
      match CharSet.named? (String.ofList name) with
      | some set =>
        MonadStateOf.set { s with rest := after }
        return some (maybeNot negated (maybeFold f set))
      | none => return none
    | _ => return none
  | _ => return none

/-- How the part of a set read last is combined with what comes before it. -/
inductive SetOp
  | inter
  | diff
  | symm

/-- Combines two sets, up to case where case does not count. -/
def SetOp.apply (f : Flags) (op : SetOp) (a b : CharSet) : CharSet :=
  match op with
  | .inter => .inter (maybeFold f a) (maybeFold f b)
  | .diff => .diff (maybeFold f a) (maybeFold f b)
  | .symm => .symmDiff (maybeFold f a) (maybeFold f b)

/-- The members of a set in brackets that were read so far: all their characters, how many members
there are, and the height of the tallest set inside. -/
structure Members where
  set : CharSet := .empty
  count : Nat := 0
  tallest : Nat := 0

def Members.add (m : Members) (set : CharSet) (height : Nat) : Members :=
  ⟨.union m.set set, m.count + 1, max m.tallest height⟩

/-- The height of all members together; a single one stands for itself. -/
def Members.height (m : Members) : Nat := if m.count ≤ 1 then m.tallest else m.tallest + 1

/-- Puts what was read so far and the part read last together, with the height of both. -/
def combine (f : Flags) : Option (SetOp × CharSet × Nat) → Members → CharSet × Nat
  | none, last => (last.set, last.height)
  | some (op, before, height), last => (op.apply f before last.set, max height last.height + 1)

/-- Hyphens at the start of a set stand for themselves. -/
def leadingHyphens (f : Flags) : Nat → Members → Parse Members
  | 0, members => return members
  | budget + 1, members => do
    if (← here) = '-' then
      advanceSpace f
      leadingHyphens f budget (members.add (.single '-') 0)
    else return members

/-- The start of a set, from the bracket on: whether it is negated, and the characters that stand
for themselves only in first place. -/
def openSet (f : Flags) : Parse (Bool × Members) := do
  advanceSpace f
  let negated := (← here) = '^'
  if negated then advanceSpace f
  let hyphens := (← here) = '-'
  let members ← leadingHyphens f ((← get).rest.length) {}
  if !hyphens && (← here) = ']' then
    advanceSpace f
    let _ ← here
    return (negated, members.add (.single ']') 0)
  let _ ← here
  return (negated, members)

/-- The rest of a set after its start, with the height of the set: `earlier` is what stands before
the last sign between sets, and `members` what was read since. -/
def setBody (f : Flags) (negated : Bool) :
    Nat → Option (SetOp × CharSet × Nat) → Members → Parse (CharSet × Nat)
  | 0, _, _ => failure
  | budget + 1, earlier, members => do
    space f
    let s ← get
    match s.rest with
    | [] => failure
    | '[' :: _ =>
      match ← namedSet? f with
      | some named => setBody f negated budget earlier (members.add named 0)
      | none =>
        let (innerNegated, start) ← openSet f
        let (inner, height) ← setBody f innerNegated budget none start
        setBody f negated budget earlier (members.add inner height)
    | ']' :: _ =>
      advance
      let (set, height) := combine f earlier members
      return (maybeNot negated (maybeFold f set), height + 1)
    | '&' :: '&' :: rest =>
      MonadStateOf.set { s with rest }
      setBody f negated budget (some (.inter, combine f earlier members)) {}
    | '-' :: '-' :: rest =>
      MonadStateOf.set { s with rest }
      setBody f negated budget (some (.diff, combine f earlier members)) {}
    | '~' :: '~' :: rest =>
      MonadStateOf.set { s with rest }
      setBody f negated budget (some (.symm, combine f earlier members)) {}
    | _ => setBody f negated budget earlier (members.add (← setRange f) 0)

def bracketed (f : Flags) : Parse (CharSet × Nat) := do
  let (negated, start) ← openSet f
  let (set, height) ← setBody f negated ((← get).rest.length + 1) none start
  if f.unicode then return (set, height)
  require set.isBasicByteSet
  return (.inter set .basic, height)

/-- A decimal number, with white space around it and, where it does not count, inside; at most what
fits in 32 bits. -/
def decimal (f : Flags) : Parse Nat := do
  let digits (s : Scan) := s.rest.takeWhile Char.isDigit
  modify fun s => { s with rest := s.rest.dropWhile Text.isBlank }
  let rec more : Nat → Nat → Bool → Parse (Nat × Bool)
    | 0, value, any => return (value, any)
    | budget + 1, value, any => do
      let s ← get
      let here := digits s
      if here.isEmpty then return (value, any)
      set { s with rest := s.rest.drop here.length }
      space f
      more budget (here.foldl (fun v c => v * 10 + (c.toNat - 48)) value) true
  let (value, any) ← more ((← get).rest.length) 0 false
  modify fun s => { s with rest := s.rest.dropWhile Text.isBlank }
  space f
  require (any && value < 4294967296)
  return value

/-- How often a part may come, from the brace on. -/
def counted (f : Flags) : Parse (Nat × Option Nat) := do
  advanceSpace f
  let _ ← here
  let least ← decimal f
  let most ←
    if (← here) = ',' then
      advanceSpace f
      if (← here) = '\x7d' then pure none else (some <$> decimal f)
    else pure (some least)
  require ((← here) = '\x7d')
  require (least ≤ most.getD least)
  return (least, most)

def repeatLast (f : Flags) (least : Nat) (most : Option Nat) (lazy : Bool) :
    List Item → Parse (List Item)
  | .part node height :: before =>
    return .part (.repeated node least most (lazy == f.lazyFirst)) (height + 1) :: before
  | _ => failure

/-- Whether a question mark follows, which asks for as few as possible. -/
def lazyMark : Parse Bool := accept ['?']

/-- The letter of a flag and its new value, applied. -/
def Flags.put (f : Flags) (on : Bool) : Char → Option Flags
  | 'i' => some { f with ignoreCase := on }
  | 'm' => some { f with multiLine := on }
  | 's' => some { f with dotMatchesAll := on }
  | 'U' => some { f with lazyFirst := on }
  | 'u' => some { f with unicode := on }
  | 'R' => some { f with returnsEndLines := on }
  | 'x' => some { f with spaced := on }
  | _ => none

/-- Flags up to a colon or a closing bracket, each at most once, with at most one hyphen, after
which flags are turned off. -/
def flagLetters : Nat → Flags → List Char → Parse Flags
  | 0, _, _ => failure
  | budget + 1, f, seen => do
    let c ← here
    if c = ':' || c = ')' then
      require (seen.head? != some '-')
      return f
    require (!seen.contains c)
    advance
    -- the hyphen is one of the letters seen, so what comes behind it is turned off
    if c = '-' then flagLetters budget f (c :: seen)
    else flagLetters budget (← Flags.put f (!seen.contains '-') c) (c :: seen)

/-- Whether a character may stand in the name of a group, in first place or later. -/
def isNameChar (first : Bool) (c : Char) : Bool :=
  let letter := Text.Property.alphabetic.holds c.toNat
  if first then c == '_' || letter
  else c == '_' || c == '.' || c == '[' || c == ']' || letter ||
    Text.hasCategory ["Nd", "Nl", "No"] c.toNat

/-- The name of a group, up to the closing angle bracket. -/
def groupName : Nat → List Char → Parse String
  | 0, _ => failure
  | budget + 1, text => do
    let c ← here
    advance
    if c = '>' then
      require (!text.isEmpty)
      return String.ofList text.reverse
    require (isNameChar text.isEmpty c)
    groupName budget (c :: text)

/-- What an opening round bracket turned out to start. -/
inductive Opening
  /-- Flags for what follows. -/
  | flags (f : Flags)
  /-- A group without a number, with its flags. -/
  | plain (f : Flags)
  /-- A group with a number. -/
  | numbered (index : Nat)

def nextGroup : Parse Nat := do
  let s ← get
  set { s with groups := s.groups + 1 }
  return s.groups + 1

def opening (f : Flags) : Parse Opening := do
  advance
  space f
  let s ← get
  match s.rest with
  | '?' :: '=' :: _ => failure
  | '?' :: '!' :: _ => failure
  | '?' :: '<' :: '=' :: _ => failure
  | '?' :: '<' :: '!' :: _ => failure
  | _ => pure ()
  if ← (do if ← accept "?P<".toList then return true else accept "?<".toList) then
    let index ← nextGroup
    let name ← groupName ((← get).rest.length + 1) []
    let s ← get
    require (!s.names.contains name)
    set { s with names := name :: s.names }
    return .numbered index
  if ← accept ['?'] then
    let none := (← here) = ')'
    let inner ← flagLetters ((← get).rest.length + 1) f []
    if ← accept [')'] then
      require (!none)
      return .flags inner
    advance
    return .plain inner
  return .numbered (← nextGroup)

/-- The parts of a sequence put together, the one read last first. -/
def sequence : List Item → Node × Nat
  | [] => (.empty, 0)
  | items =>
    let parts := items.reverse.filterMap fun
      | .part node height => some (node, height)
      | .flags => none
    let node := match parts.map (·.1) with
      | [] => .empty
      | first :: others => others.foldl .seq first
    let height := (parts.map (·.2)).foldl max 0
    (node, if items.length = 1 then height else height + 1)

/-- The choices of a group put together, the one read last first. -/
def choices (last : Node × Nat) : List (Node × Nat) → Node × Nat
  | [] => last
  | before =>
    let all := (last :: before).reverse
    let node := match (last :: before).map (·.1) with
      | [] => .empty
      | final :: others => others.foldl (fun acc n => .alt n acc) final
    (node, (all.map (·.2)).foldl max 0 + 1)

def dotSet (f : Flags) : Parse CharSet := do
  require f.unicode
  return if f.dotMatchesAll then .all
    else if f.returnsEndLines then .complement (.union (.single '\n') (.single '\r'))
    else .complement (.single '\n')

def startLook (f : Flags) : Look :=
  if !f.multiLine then .start else if f.returnsEndLines then .anyLineStart else .lineStart

def finishLook (f : Flags) : Look :=
  if !f.multiLine then .finish else if f.returnsEndLines then .anyLineFinish else .lineFinish

/-- One part that is no group, no set in brackets and no repetition. -/
def primitive (f : Flags) : Parse Node := do
  let c ← here
  match c with
  | '\\' =>
    match ← escape f with
    | .char d two => return .one (← charSet f d two)
    | .set s => return .one s
    | .look l => return .look l
  | '.' => advance; return .one (← dotSet f)
  | '^' => advance; return .look (startLook f)
  | '$' => advance; return .look (finishLook f)
  | _ => advance; return .one (← charSet f c false)

/-- A pattern up to a closing round bracket or the end, neither gone past. `done` are the choices
read before this one and `items` the parts of this choice so far, both with the last one first. -/
def choice : Nat → Flags → List (Node × Nat) → List Item → Parse (Node × Nat)
  | 0, _, _, _ => failure
  | budget + 1, f, done, items => do
    space f
    match ← peek with
    | none => return choices (sequence items) done
    | some ')' => return choices (sequence items) done
    | some '|' =>
      advance
      choice budget f (sequence items :: done) []
    | some '(' =>
      match ← opening f with
      | .flags f' => choice budget f' done (.flags :: items)
      | .plain f' =>
        let (node, height) ← choice budget f' [] []
        require (← accept [')'])
        choice budget f done (.part node (height + 1) :: items)
      | .numbered index =>
        let (node, height) ← choice budget f [] []
        require (← accept [')'])
        choice budget f done (.part (.group index node) (height + 1) :: items)
    | some '[' =>
      let (set, height) ← bracketed f
      choice budget f done (.part (.one set) height :: items)
    | some '?' =>
      advance
      choice budget f done (← repeatLast f 0 (some 1) (← lazyMark) items)
    | some '*' =>
      advance
      choice budget f done (← repeatLast f 0 none (← lazyMark) items)
    | some '+' =>
      advance
      choice budget f done (← repeatLast f 1 none (← lazyMark) items)
    -- outside brackets a brace always repeats what stands before it
    | some '\x7b' =>
      require (match items with | .part _ _ :: _ => true | _ => false)
      let (least, most) ← counted f
      advanceSpace f
      choice budget f done (← repeatLast f least most (← lazyMark) items)
    | some _ => choice budget f done (.part (← primitive f) 0 :: items)

end Parse

def nestLimit : Nat := 250

/-- The tree of a pattern, if the text is one without unknown names of properties, and the tree is
neither too high nor, as estimated, too large. -/
def Node.ofText? (text : String) : Option Node := do
  let cs := text.toList
  let ((node, height), s) ← (Parse.choice (2 * cs.length + 1) {} [] []).run { rest := cs }
  if s.rest.isEmpty && height ≤ nestLimit && node.size ≤ Node.sizeLimit then some node else none

end PatchTrial.Regex
