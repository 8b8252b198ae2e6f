import PatchTrial.Json.Problem
import PatchTrial.Text.Utf8

/-!
Tokens of a document. The text is cut into tokens without regard to where they stand; a token that
is broken carries what is wrong with it, and whether that matters is for the reader of tokens to
say. After a broken token the text is not read on.
-/
namespace PatchTrial.Json

inductive Token
  | listOpen
  | listClose
  | objectOpen
  | objectClose
  | comma
  | colon
  | null
  | boolean (b : Bool)
  | number (n : Number)
  | text (s : String)
  /-- A quote that begins a broken text. -/
  | brokenText (p : Problem)
  /-- A broken number or word. -/
  | broken (p : Problem)
  /-- A character with which no token begins. -/
  | stray
  deriving DecidableEq, Repr

namespace Token

def byte (c : Char) : UInt8 := UInt8.ofNat c.toNat

def isDigit (b : UInt8) : Bool := 48 ≤ b && b ≤ 57

def digitsValue (digits : Bytes) : Nat :=
  digits.foldl (fun n b => n * 10 + (b.toNat - 48)) 0

def splitDigits (bytes : Bytes) : Bytes × Bytes := bytes.span isDigit

def hexValue? (b : UInt8) : Option Nat :=
  if isDigit b then some (b.toNat - 48)
  else if 97 ≤ b && b ≤ 102 then some (b.toNat - 87)
  else if 65 ≤ b && b ≤ 70 then some (b.toNat - 55)
  else none

def hexUnit? : Bytes → Except Problem (Nat × Bytes)
  | a :: b :: c :: d :: rest =>
    match hexValue? a, hexValue? b, hexValue? c, hexValue? d with
    | some a, some b, some c, some d => .ok (((a * 16 + b) * 16 + c) * 16 + d, rest)
    | _, _, _, _ => .error .badEscape
  | _ => .error (.stopped .text)

/-- The character of an escape by number, which may take two units, and what follows. -/
def escapedChar? (bytes : Bytes) : Except Problem (Char × Bytes) := do
  let (first, rest) ← hexUnit? bytes
  if 0xDC00 ≤ first && first ≤ 0xDFFF then throw .loneSurrogate
  else if first < 0xD800 || 0xDBFF < first then return (Char.ofNat first, rest)
  else
    match rest with
    | [] => throw (.stopped .text)
    | backslash :: rest =>
      if backslash ≠ byte '\\' then throw .endOfEscape
      match rest with
      | [] => throw (.stopped .text)
      | u :: rest =>
        if u ≠ byte 'u' then throw .endOfEscape
        let (second, rest) ← hexUnit? rest
        if second < 0xDC00 || 0xDFFF < second then throw .loneSurrogate
        return (Char.ofNat ((first - 0xD800) * 0x400 + (second - 0xDC00) + 0x10000), rest)

def escapeLetter? (b : UInt8) : Option UInt8 :=
  if b = byte '"' || b = byte '\\' || b = byte '/' then some b
  else if b = byte 'b' then some 8
  else if b = byte 'f' then some 12
  else if b = byte 'n' then some 10
  else if b = byte 'r' then some 13
  else if b = byte 't' then some 9
  else none

/-- The bytes of a text up to its closing quote, and what follows that. The budget is any number
above the length of the bytes. -/
def textBytes : Nat → Bytes → Except Problem (Bytes × Bytes)
  | 0, _ => .error (.stopped .text)
  | _ + 1, [] => .error (.stopped .text)
  | budget + 1, b :: rest =>
    if b = byte '"' then .ok ([], rest)
    else if b = byte '\\' then
      match rest with
      | [] => .error (.stopped .text)
      | letter :: rest =>
        if letter = byte 'u' then do
          let (c, rest) ← escapedChar? rest
          let (more, rest) ← textBytes budget rest
          return (String.utf8EncodeChar c ++ more, rest)
        else
          match escapeLetter? letter with
          | none => .error .badEscape
          | some b => do
            let (more, rest) ← textBytes budget rest
            return (b :: more, rest)
    else if b < 32 then .error .controlCharacter
    else do
      let (more, rest) ← textBytes budget rest
      return (b :: more, rest)

/-- The token of a text whose opening quote was read. -/
def ofText (bytes : Bytes) : Token × Bytes :=
  match textBytes (bytes.length + 1) bytes with
  | .error p => (.brokenText p, [])
  | .ok (content, rest) =>
    match Utf8.decode? content with
    | some s => (.text s, rest)
    | none => (.brokenText .badCodePoint, [])

/-- The largest whole number a machine word holds. -/
def wordLimit : Nat := Nat.pow 2 64 - 1

/-- The digits that a machine word holds: how many digits of a number are read exactly, as the value
of those and the number of digits left. -/
def exactDigits : Nat → Bytes → Nat × Nat
  | value, [] => (value, 0)
  | value, b :: rest =>
    let next := value * 10 + (b.toNat - 48)
    if wordLimit < next then (value, rest.length + 1) else exactDigits next rest

/-- The largest exponent that is read. -/
def exponentLimit : Nat := Nat.pow 2 31 - 1

/-- The number in double precision of digits and an exponent. -/
def double (negative : Bool) (digits : Nat) (tens : Int) : Except Problem Number :=
  match Decimal.Magnitude.ofDigits? digits tens with
  | some size => .ok (.double ⟨negative, size⟩)
  | none => .error .numberTooLarge

/-- A number whose digits were read, up to its exponent if it has one. -/
def withExponent (negative : Bool) (digits : Nat) (tens : Int) (bytes : Bytes) :
    Except Problem (Number × Bytes) :=
  match bytes with
  | e :: rest =>
    if e = byte 'e' || e = byte 'E' then
      let (down, rest) : Bool × Bytes :=
        match rest with
        | sign :: more =>
          if sign = byte '+' then (false, more)
          else if sign = byte '-' then (true, more)
          else (false, rest)
        | [] => (false, rest)
      match splitDigits rest with
      | ([], []) => .error (.stopped .value)
      | ([], _ :: _) => .error .badNumber
      | (power, rest) =>
        let n := digitsValue power
        if exponentLimit < n then
          if digits ≠ 0 && !down then .error .numberTooLarge
          else .ok (.double ⟨negative, .zero⟩, rest)
        else do return (← double negative digits (if down then tens - n else tens + n), rest)
    else do return (← double negative digits tens, e :: rest)
  | [] => do return (← double negative digits tens, [])

def ofDigits (negative : Bool) (bytes : Bytes) : Except Problem (Number × Bytes) :=
  match splitDigits bytes with
  | ([], []) => .error (.stopped .value)
  | ([], _ :: _) => .error .badNumber
  | (first :: more, rest) =>
    if first = byte '0' && !more.isEmpty then .error .badNumber
    else
      let (value, dropped) := exactDigits 0 (first :: more)
      match rest with
      | point :: afterPoint =>
        if point = byte '.' then
          match splitDigits afterPoint with
          | ([], []) => .error (.stopped .value)
          | ([], _ :: _) => .error .badNumber
          | (part, rest) =>
            let (digits, unread) := exactDigits value part
            withExponent negative digits (dropped - ((part.length - unread : Nat) : Int)) rest
        else if point = byte 'e' || point = byte 'E' then
          withExponent negative value dropped rest
        else whole negative value dropped rest
      | [] => whole negative value dropped rest
where
  /-- A number without a point or an exponent. -/
  whole (negative : Bool) (value dropped : Nat) (rest : Bytes) : Except Problem (Number × Bytes) :=
    if dropped ≠ 0 then do return (← double negative value dropped, rest)
    else if !negative then .ok (.natural value, rest)
    else if value = 0 || Nat.pow 2 63 < value then do return (← double negative value 0, rest)
    else .ok (.negative value, rest)

def ofNumber (negative : Bool) (bytes : Bytes) : Token × Bytes :=
  match ofDigits negative bytes with
  | .ok (n, rest) => (.number n, rest)
  | .error p => (.broken p, [])

/-- The token of a word whose first letter was read, by its other letters. -/
def ofWord (token : Token) : List Char → Bytes → Token × Bytes
  | [], bytes => (token, bytes)
  | _ :: _, [] => (.broken (.stopped .value), [])
  | c :: letters, b :: bytes =>
    if b = byte c then ofWord token letters bytes else (.broken .expectedWord, [])

def ofByte (b : UInt8) (rest : Bytes) : Token × Bytes :=
  if b = byte '[' then (.listOpen, rest)
  else if b = byte ']' then (.listClose, rest)
  else if b = byte '\x7b' then (.objectOpen, rest)
  else if b = byte '\x7d' then (.objectClose, rest)
  else if b = byte ',' then (.comma, rest)
  else if b = byte ':' then (.colon, rest)
  else if b = byte '"' then ofText rest
  else if b = byte '-' then ofNumber true rest
  else if isDigit b then ofNumber false (b :: rest)
  else if b = byte 'n' then ofWord .null ['u', 'l', 'l'] rest
  else if b = byte 't' then ofWord (.boolean true) ['r', 'u', 'e'] rest
  else if b = byte 'f' then ofWord (.boolean false) ['a', 'l', 's', 'e'] rest
  else (.stray, [])

/-- White space between tokens. -/
def isSpace (b : UInt8) : Bool := b == 32 || b == 9 || b == 10 || b == 13

/-- The tokens of a text, as many as a budget allows. -/
def scan : Nat → Bytes → List Token
  | 0, _ => []
  | _ + 1, [] => []
  | budget + 1, b :: rest =>
    if isSpace b then scan budget rest
    else
      let (token, rest) := ofByte b rest
      token :: scan budget rest

/-- The tokens of a text; each takes a byte at least, so a text has no more tokens than bytes. -/
def ofBytes (bytes : Bytes) : List Token := scan bytes.length bytes

end Token
end PatchTrial.Json
