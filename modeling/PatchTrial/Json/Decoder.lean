import PatchTrial.Json.Document

/-!
Reading values out of documents. A decoder goes through a document in the order of its text, so of
two problems the one that stands first is reported. A record is read from an object, whose members
may stand in any order, or from a list, whose items are its fields in order.
-/
namespace PatchTrial.Json

/-- What is wrong with the end of a list. -/
def Ending.checkList : Ending → Except Problem Unit
  | closed => .ok ()
  | stopped => .error (.stopped .list)
  | commaClosed => .error .trailingComma
  | commaStopped => .error (.stopped .value)
  | noComma => .error .expectedItemEnd
  | tooDeep => .error .tooDeep

/-- What is wrong with the end of an object. -/
def Ending.checkObject : Ending → Except Problem Unit
  | closed => .ok ()
  | stopped => .error (.stopped .object)
  | commaClosed => .error .trailingComma
  | commaStopped => .error (.stopped .value)
  | noComma => .error .expectedMemberEnd
  | tooDeep => .error .tooDeep

/-- What is wrong with a list that should have come to its end. -/
def Ending.checkListOver : Ending → Except Problem Unit
  | closed => .ok ()
  | stopped => .error (.stopped .list)
  | commaClosed => .error .trailingComma
  | tooDeep => .error .tooDeep
  | _ => .error .trailingCharacters

/-- What is wrong with an object that should have come to its end. -/
def Ending.checkObjectOver : Ending → Except Problem Unit
  | closed => .ok ()
  | stopped => .error (.stopped .object)
  | tooDeep => .error .tooDeep
  | _ => .error .expectedValue

/-- A reader of values. -/
abbrev Decoder (α : Type) := Document → Except Problem α

namespace Document

/-- What kind of thing a document is, looking no further than needed. -/
def found : Document → Except Problem Found
  | absent => .error (.stopped .value)
  | broken p => .error p
  | brokenText p => .error p
  | null => .ok .null
  | boolean b => .ok (.boolean b)
  | number n => .ok (.number n)
  | text s => .ok (.text s)
  | list _ _ => .ok .list
  | object _ _ => .ok .object

/-- Refuses a document where something else was expected. -/
def refuse {α : Type} (expected : String) : Decoder α := fun d => do
  throw (.wrongKind (← d.found) expected)

def key : Decoder String
  | text s => .ok s
  | brokenText p => .error p
  | _ => .error .keyNotText

mutual

/-- Reads a document of any kind to its end, for its problems alone. -/
def check : Document → Except Problem Unit
  | absent => .error (.stopped .value)
  | broken p => .error p
  | brokenText p => .error p
  | null => .ok ()
  | boolean _ => .ok ()
  | number _ => .ok ()
  | text _ => .ok ()
  | list items ending => do
    checkItems items
    ending.checkList
  | object members ending => do
    checkMembers members
    ending.checkObject

def checkItems : List Document → Except Problem Unit
  | [] => .ok ()
  | item :: rest => do
    check item
    checkItems rest

def checkMembers : List (Document × Except Problem Document) → Except Problem Unit
  | [] => .ok ()
  | (name, .error p) :: _ => do
    let _ ← name.key
    throw p
  | (name, .ok value) :: rest => do
    let _ ← name.key
    check value
    checkMembers rest

end

end Document

namespace Decoder

def string : Decoder String
  | .text s => .ok s
  | d => d.refuse "a string"

def boolean : Decoder Bool
  | .boolean b => .ok b
  | d => d.refuse "a boolean"

/-- A whole number that is not negative; `type` is what such a number is called. -/
def natural (type : String) : Decoder Nat
  | .number (.natural n) => .ok n
  | .number (.negative n) => .error (.wrongValue (.number (.negative n)) type)
  | d => d.refuse type

def optional {α : Type} (read : Decoder α) : Decoder (Option α)
  | .null => .ok none
  | d => (read d).map some

def listOf {α : Type} (read : Decoder α) : Decoder (List α)
  | .list items ending => do
    let values ← items.mapM read
    ending.checkList
    return values
  | d => d.refuse "a sequence"

/-- One of several named forms, each with one value: an object with the name as its only key. -/
def variant {α : Type} (names : List String) (read : String → Decoder α) : Decoder α
  | .object [] .closed => .error .expectedValue
  | .object [] .tooDeep => .error .tooDeep
  | .object [] _ => .error (.stopped .value)
  | .object ((name, value) :: rest) ending => do
    let name ← match name with
      | .text s => if s ∈ names then pure s else throw (.unknownVariant s names)
      | d => d.refuse "variant identifier"
    let result ← read name (← value)
    if !rest.isEmpty then throw .expectedValue
    ending.checkObjectOver
    return result
  | .text s =>
    if s ∈ names then .error (.wrongKind .bareName "newtype variant")
    else .error (.unknownVariant s names)
  | .brokenText p => .error p
  | .absent => .error (.stopped .value)
  | _ => .error .expectedValue

end Decoder

/-- A field of a record: its name, whether it must be there, and how its value is read into the
record. -/
structure Record.Field (σ : Type) where
  name : String
  required : Bool := false
  read : Document → σ → Except Problem σ

/-- How a record is read. -/
structure Record (σ : Type) where
  /-- What the record is called. -/
  type : String
  fields : List (Record.Field σ)
  /-- The record before any field is read. -/
  start : σ
  /-- Whether members with other names are passed over. -/
  lenient : Bool := false

namespace Record

variable {σ : Type}

def field? (r : Record σ) (name : String) : Option (Record.Field σ) :=
  r.fields.find? fun f => f.name == name

/-- Reads members in order. `seen` are the names that were read before. -/
def readMembers (r : Record σ) :
    List (Document × Except Problem Document) → List String → σ → Except Problem (σ × List String)
  | [], seen, s => .ok (s, seen)
  | (name, value) :: rest, seen, s => do
    let name ← name.key
    match r.field? name with
    | none =>
      if r.lenient then
        let _ ← value
        readMembers r rest seen s
      else throw (.unknownField name (r.fields.map Record.Field.name))
    | some f =>
      if name ∈ seen then throw (.duplicateField name)
      readMembers r rest (name :: seen) (← f.read (← value) s)

/-- The first field that must be there and is not. -/
def missing? (r : Record σ) (seen : List String) : Option (Record.Field σ) :=
  r.fields.find? fun f => f.required && f.name ∉ seen

def ofObject (r : Record σ) (members : List (Document × Except Problem Document))
    (ending : Ending) : Except Problem σ := do
  let (s, seen) ← r.readMembers members [] r.start
  ending.checkObject
  match r.missing? seen with
  | some f => throw (.missingField f.name)
  | none => return s

/-- What a list of the fields of a record is called. -/
def lengthText (r : Record σ) : String :=
  let n := r.fields.length
  r.type ++ " with " ++ toString n ++ if n = 1 then " element" else " elements"

/-- Reads items in order, one for each field, `index` being the number of items read before: the
record and the items left. -/
def readItems (r : Record σ) (ending : Ending) :
    List (Record.Field σ) → Nat → List Document → σ → Except Problem (σ × List Document)
  | [], _, items, s => .ok (s, items)
  | f :: fields, index, item :: items, s => do
    readItems r ending fields (index + 1) items (← f.read item s)
  | f :: fields, index, [], s => do
    ending.checkList
    if f.required then throw (.wrongLength index r.lengthText)
    readItems r ending fields index [] s

def ofList (r : Record σ) (items : List Document) (ending : Ending) : Except Problem σ := do
  let (s, rest) ← r.readItems ending r.fields 0 items r.start
  if !rest.isEmpty then throw .trailingCharacters
  ending.checkListOver
  return s

def decode (r : Record σ) : Decoder σ
  | .object members ending => r.ofObject members ending
  | .list items ending => r.ofList items ending
  | d => d.refuse r.type

/-- Reads a record from items that are known to be all there are. -/
def ofWholeList (r : Record σ) (items : List Document) : Except Problem σ := do
  let (s, rest) ← r.readItems .closed r.fields 0 items r.start
  let n := r.fields.length
  if !rest.isEmpty then
    throw (.wrongLength items.length
      (toString n ++ if n = 1 then " element in sequence" else " elements in sequence"))
  return s

end Record

/-- Reads a value from a text that holds nothing else. -/
def Decoder.ofBytes {α : Type} (read : Decoder α) (bytes : Bytes) : Except Problem α := do
  let (d, more) := Document.ofBytes bytes
  let value ← read d
  if more then throw .trailingCharacters
  return value

end PatchTrial.Json
