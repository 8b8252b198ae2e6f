import PatchTrial.Json.Token

/-!
Documents as trees. Reading a document never fails: what is wrong with it stands in the tree at the
place where it was met, and nothing comes after it. So a reader of the tree that goes from left to
right meets the first problem of the text and its own objections in the order of the text.
-/
namespace PatchTrial.Json

/-- How the items of a list or the members of an object come to an end. -/
inductive Ending
  /-- The closing bracket. -/
  | closed
  /-- The end of the text. -/
  | stopped
  /-- A comma and the closing bracket. -/
  | commaClosed
  /-- A comma and the end of the text. -/
  | commaStopped
  /-- Something that is neither a comma nor the closing bracket. -/
  | noComma
  /-- They are not read, since they are nested too deep. -/
  | tooDeep
  deriving DecidableEq, Repr

/-- A document, or as much of it as can be read. -/
inductive Document
  /-- The end of the text. -/
  | absent
  /-- Something broken. -/
  | broken (p : Problem)
  /-- A broken text. -/
  | brokenText (p : Problem)
  | null
  | boolean (b : Bool)
  | number (n : Number)
  | text (s : String)
  | list (items : List Document) (ending : Ending)
  /-- The members are keys with values; the value is a problem if there is no colon before it. -/
  | object (members : List (Document × Except Problem Document)) (ending : Ending)

namespace Document

/-- Lists and objects may be nested this deep. -/
def depthLimit : Nat := 127

mutual

/-- The document at the front, with what follows it. The budget is any number above twice the number
of tokens, and `depth` is how much deeper lists and objects may still be nested. -/
def read : Nat → Nat → List Token → Document × List Token
  | 0, _, tokens => (.absent, tokens)
  | _ + 1, _, [] => (.absent, [])
  | budget + 1, depth, token :: rest =>
    match token with
    | .null => (.null, rest)
    | .boolean b => (.boolean b, rest)
    | .number n => (.number n, rest)
    | .text s => (.text s, rest)
    | .brokenText p => (.brokenText p, [])
    | .broken p => (.broken p, [])
    | .listOpen =>
      match depth with
      | 0 => (.list [] .tooDeep, [])
      | depth + 1 =>
        match rest with
        | .listClose :: rest => (.list [] .closed, rest)
        | [] => (.list [] .stopped, [])
        | rest =>
          let (items, ending, rest) := readItems budget depth rest
          (.list items ending, rest)
    | .objectOpen =>
      match depth with
      | 0 => (.object [] .tooDeep, [])
      | depth + 1 =>
        match rest with
        | .objectClose :: rest => (.object [] .closed, rest)
        | [] => (.object [] .stopped, [])
        | rest =>
          let (members, ending, rest) := readMembers budget depth rest
          (.object members ending, rest)
    | _ => (.broken .expectedValue, [])

def readItems : Nat → Nat → List Token → List Document × Ending × List Token
  | 0, _, tokens => ([], .stopped, tokens)
  | budget + 1, depth, tokens =>
    let (item, rest) := read budget depth tokens
    match rest with
    | .listClose :: rest => ([item], .closed, rest)
    | [] => ([item], .stopped, [])
    -- a comma has to be followed by an item
    | .comma :: .listClose :: _ => ([item], .commaClosed, [])
    | [.comma] => ([item], .commaStopped, [])
    | .comma :: rest =>
      let (items, ending, rest) := readItems budget depth rest
      (item :: items, ending, rest)
    | _ => ([item], .noComma, [])

def readMembers : Nat → Nat → List Token →
    List (Document × Except Problem Document) × Ending × List Token
  | 0, _, tokens => ([], .stopped, tokens)
  | budget + 1, depth, tokens =>
    let (key, rest) := read budget depth tokens
    match rest with
    | .colon :: rest =>
      let (value, rest) := read budget depth rest
      match rest with
      | .objectClose :: rest => ([(key, .ok value)], .closed, rest)
      | [] => ([(key, .ok value)], .stopped, [])
      | .comma :: .objectClose :: _ => ([(key, .ok value)], .commaClosed, [])
      | [.comma] => ([(key, .ok value)], .commaStopped, [])
      | .comma :: rest =>
        let (members, ending, rest) := readMembers budget depth rest
        ((key, .ok value) :: members, ending, rest)
      | _ => ([(key, .ok value)], .noComma, [])
    | [] => ([(key, .error (.stopped .object))], .stopped, [])
    | _ => ([(key, .error .expectedColon)], .stopped, [])

end

/-- The document of a text, and whether more follows it. -/
def ofBytes (bytes : Bytes) : Document × Bool :=
  let tokens := Token.ofBytes bytes
  let (d, rest) := read (2 * tokens.length + 2) depthLimit tokens
  (d, !rest.isEmpty)

end Document
end PatchTrial.Json
