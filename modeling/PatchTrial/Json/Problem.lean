import PatchTrial.Json.Number
import PatchTrial.Text.Quoted

/-!
What can be wrong with a document. A problem either lies in the text (it stops too early, or a
character is out of place) or in what the text says, where a reader expected something else.
-/
namespace PatchTrial.Json

/-- What a reader found where it expected something else. -/
inductive Found
  | null
  | boolean (b : Bool)
  | number (n : Number)
  | text (s : String)
  | list
  | object
  | bareName
  deriving DecidableEq, Repr

/-- What a text was in when it stopped. -/
inductive Inside
  | value
  | text
  | list
  | object
  deriving DecidableEq, Repr

inductive Problem
  /-- The text stops inside something. -/
  | stopped (inside : Inside)
  | expectedColon
  | expectedItemEnd
  | expectedMemberEnd
  | expectedWord
  | expectedValue
  | badEscape
  | badNumber
  | numberTooLarge
  | badCodePoint
  | controlCharacter
  | keyNotText
  | loneSurrogate
  | endOfEscape
  | trailingComma
  | trailingCharacters
  /-- Lists and objects are nested too deep. -/
  | tooDeep
  /-- Something of another kind was expected. -/
  | wrongKind (found : Found) (expected : String)
  /-- The kind is right and the value is not. -/
  | wrongValue (found : Found) (expected : String)
  /-- A list has too few items or too many. -/
  | wrongLength (length : Nat) (expected : String)
  | unknownField (name : String) (known : List String)
  | unknownVariant (name : String) (known : List String)
  | missingField (name : String)
  | duplicateField (name : String)
  /-- None of the forms of a type fits. -/
  | noForm (type : String)
  deriving DecidableEq, Repr

inductive Category
  /-- The text stops too early. -/
  | incomplete
  /-- A character is out of place. -/
  | malformed
  /-- The text says something else than was expected. -/
  | unfit
  deriving DecidableEq, Repr

namespace Problem

def category : Problem → Category
  | stopped _ => .incomplete
  | wrongKind _ _ => .unfit
  | wrongValue _ _ => .unfit
  | wrongLength _ _ => .unfit
  | unknownField _ _ => .unfit
  | unknownVariant _ _ => .unfit
  | missingField _ => .unfit
  | duplicateField _ => .unfit
  | noForm _ => .unfit
  | _ => .malformed

/-- A text between the marks that set names and values off. -/
def marked (s : String) : String := "\x60" ++ s ++ "\x60"

def numberText : Number → String
  | .natural n => "integer " ++ marked (toString n)
  | .negative n => "integer " ++ marked ("-" ++ toString n)
  | .double d => "floating point " ++ marked (Number.doubleText d)

def foundText : Found → String
  | .null => "null"
  | .boolean b => "boolean " ++ marked (if b then "true" else "false")
  | .number n => numberText n
  | .text s => "string " ++ Text.quoted s
  | .list => "sequence"
  | .object => "map"
  | .bareName => "unit variant"

def choice : List String → String
  | [a] => marked a
  | [a, b] => marked a ++ " or " ++ marked b
  | names => "one of " ++ ", ".intercalate (names.map marked)

def insideText : Inside → String
  | .value => "a value"
  | .text => "a string"
  | .list => "a list"
  | .object => "an object"

def message : Problem → String
  | stopped inside => "EOF while parsing " ++ insideText inside
  | expectedColon => "expected " ++ marked ":"
  | expectedItemEnd => "expected " ++ marked "," ++ " or " ++ marked "]"
  | expectedMemberEnd => "expected " ++ marked "," ++ " or " ++ marked "\x7d"
  | expectedWord => "expected ident"
  | expectedValue => "expected value"
  | badEscape => "invalid escape"
  | badNumber => "invalid number"
  | numberTooLarge => "number out of range"
  | badCodePoint => "invalid unicode code point"
  | controlCharacter => "control character (\\u0000-\\u001F) found while parsing a string"
  | keyNotText => "key must be a string"
  | loneSurrogate => "lone leading surrogate in hex escape"
  | endOfEscape => "unexpected end of hex escape"
  | trailingComma => "trailing comma"
  | trailingCharacters => "trailing characters"
  | tooDeep => "recursion limit exceeded"
  | wrongKind found expected => "invalid type: " ++ foundText found ++ ", expected " ++ expected
  | wrongValue found expected => "invalid value: " ++ foundText found ++ ", expected " ++ expected
  | wrongLength length expected =>
    "invalid length " ++ toString length ++ ", expected " ++ expected
  | unknownField name known => "unknown field " ++ marked name ++ ", expected " ++ choice known
  | unknownVariant name known =>
    "unknown variant " ++ marked name ++ ", expected " ++ choice known
  | missingField name => "missing field " ++ marked name
  | duplicateField name => "duplicate field " ++ marked name
  | noForm type => "data did not match any variant of untagged enum " ++ type

end Problem
end PatchTrial.Json
