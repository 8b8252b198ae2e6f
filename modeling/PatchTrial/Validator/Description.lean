import PatchTrial.Json.Decoder
import PatchTrial.Validator.Preset

/-!
Validators as documents. A document names a preset, or it spells out shapes with their checks and
the requirements. Of a check only its kind is read at once; its other members are read when all of
it is there, and members a check does not have are passed over.
-/
namespace PatchTrial.Validator

open Json

/-- Where a check takes its key from: a number is a group, and a text is the key itself. -/
def KeyRef.decode : Decoder KeyRef := fun d => do
  d.check
  match d with
  | .number (.natural n) => return .group n
  | .text s => return .named s
  | _ => throw (.noForm "KeySpec")

/-- What a check may say; which of it counts depends on its kind. -/
structure CheckParts where
  key : KeyRef := .named ""
  group : Nat := 0
  before : String := ""
  after : String := ""

inductive CheckKind
  | stable
  | changeOnce
  | transition
  | appears
  deriving DecidableEq, Repr

namespace CheckKind

/-- All kinds, in the order in which they are listed. -/
def all : List CheckKind := [stable, changeOnce, transition, appears]

def name : CheckKind → String
  | stable => "stable"
  | changeOnce => "change_once"
  | transition => "transition"
  | appears => "appears"

def type : CheckKind → String
  | stable => "struct variant CheckSpec::Stable"
  | changeOnce => "struct variant CheckSpec::ChangeOnce"
  | transition => "struct variant CheckSpec::Transition"
  | appears => "struct variant CheckSpec::Appears"

def keyField : Record.Field CheckParts :=
  { name := "key", required := true,
    read := fun d c => do return { c with key := ← KeyRef.decode d } }

def groupField : Record.Field CheckParts :=
  { name := "group", required := true,
    read := fun d c => do return { c with group := ← Decoder.natural "usize" d } }

def beforeField : Record.Field CheckParts :=
  { name := "before", required := true,
    read := fun d c => do return { c with before := ← Decoder.string d } }

def afterField : Record.Field CheckParts :=
  { name := "after", required := true,
    read := fun d c => do return { c with after := ← Decoder.string d } }

def fields : CheckKind → List (Record.Field CheckParts)
  | stable => [keyField, groupField]
  | changeOnce => [keyField, groupField]
  | transition => [keyField, groupField, beforeField, afterField]
  | appears => [keyField]

def record (k : CheckKind) : Record CheckParts :=
  { type := k.type, fields := k.fields, start := {}, lenient := true }

def toCheck (k : CheckKind) (c : CheckParts) : Check :=
  ⟨c.key,
    match k with
    | stable => .value c.group .stable
    | changeOnce => .value c.group .changeOnce
    | transition => .value c.group (.transition c.before c.after)
    | appears => .appears⟩

def decode : Decoder CheckKind
  | .text s =>
    match all.find? fun k => k.name == s with
    | some k => .ok k
    | none => .error (.unknownVariant s (all.map name))
  | d => d.refuse "variant identifier"

end CheckKind

def kindKey : String := "kind"

/-- Goes through the members of a check: its kind, and that nothing is wrong with the others. -/
def Check.readKind : List (Document × Except Problem Document) → Option CheckKind →
    Except Problem (Option CheckKind)
  | [], kind => .ok kind
  | (name, value) :: rest, kind => do
    let name ← name.key
    if name = kindKey then
      if kind.isSome then throw (.duplicateField kindKey)
      readKind rest (some (← CheckKind.decode (← value)))
    else
      (← value).check
      readKind rest kind

def isOtherMember : Document × Except Problem Document → Bool
  | (.text name, _) => name != kindKey
  | _ => true

def Check.decode : Decoder Check
  | .object members ending => do
    let kind? ← readKind members none
    ending.checkObject
    match kind? with
    | none => throw (.missingField kindKey)
    | some kind =>
      return kind.toCheck (← kind.record.ofObject (members.filter isOtherMember) .closed)
  | .list [] ending => do
    ending.checkList
    throw (.missingField kindKey)
  | .list (first :: items) ending => do
    let kind ← CheckKind.decode first
    Document.checkItems items
    ending.checkList
    return kind.toCheck (← kind.record.ofWholeList items)
  | d => d.refuse "internally tagged enum CheckSpec"

def ShapeSpec.record : Record ShapeSpec :=
  { type := "struct ShapeSpec"
    start := { start := "" }
    fields :=
      [{ name := "prefix", required := true,
          read := fun d s => do return { s with start := ← Decoder.string d } },
        { name := "pattern",
          read := fun d s => do return { s with pattern := ← Decoder.string.optional d } },
        { name := "checks",
          read := fun d s => do return { s with checks := ← Check.decode.listOf d } }] }

def Requirement.decode : Decoder Requirement :=
  Decoder.variant ["changed", "seen"] fun name d => do
    let key ← Decoder.string d
    return if name = "changed" then .changed key else .seen key

def Spec.record : Record Spec :=
  { type := "struct ValidatorSpec"
    start := {}
    fields :=
      [{ name := "preset",
          read := fun d s => do return { s with preset := ← Decoder.string.optional d } },
        { name := "shapes",
          read := fun d s => do return { s with shapes := ← ShapeSpec.record.decode.listOf d } },
        { name := "require",
          read := fun d s => do return { s with require := ← Requirement.decode.listOf d } }] }

def Spec.ofBytes (bytes : Bytes) : Except Problem Spec := Decoder.ofBytes Spec.record.decode bytes

end PatchTrial.Validator
