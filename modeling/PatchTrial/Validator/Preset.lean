import PatchTrial.Validator.Spec

/-!
Presets: tables for the sample programs that are patched again and again. Each says what its
program prints before and after the patch, and what must move for the patch to count.
-/
namespace PatchTrial.Validator

/-- The sample programs. -/
inductive Preset
  | fieldRelocation
  | multipleUnits
  | nestedTypes
  | newVariable
  | pointers
  | unionsEnums
  | constants
  deriving DecidableEq, Repr

namespace Preset

/-- All presets, in the order in which they are listed. -/
def all : List Preset :=
  [fieldRelocation, multipleUnits, nestedTypes, newVariable, pointers, unionsEnums, constants]

def name : Preset → String
  | fieldRelocation => "field_relocation"
  | multipleUnits => "multiple_cu"
  | nestedTypes => "nested_types"
  | newVariable => "new_variable"
  | pointers => "pointers"
  | unionsEnums => "unions_enums"
  | constants => "constants"

def ofName? (name : String) : Option Preset := all.find? fun p => p.name == name

def skip (start : String) : ShapeSpec := { start }

def exact (start pattern : String) : ShapeSpec := { start, pattern := some pattern }

def checked (start pattern : String) (checks : List Check) : ShapeSpec :=
  { start, pattern := some pattern, checks }

/-- A key whose value, the text of a group, may change once. -/
def changeOnce (key : String) (group : Nat) : Check := ⟨.named key, .value group .changeOnce⟩

def appears (key : String) : Check := ⟨.named key, .appears⟩

/-- A key whose value, the text of the first group, goes over from one text to another. -/
def transition (key before after : String) : Check :=
  ⟨.named key, .value 1 (.transition before after)⟩

/-- The first line of every sample program. -/
def banner : ShapeSpec := skip "has pid"

/-- The two addresses of a variable that moves as a whole. -/
def relocationShapes : List ShapeSpec :=
  [banner,
    skip "this is print things version",
    exact "Foo:" "^Foo: 42,66$",
    checked "field 1 at addr:" "^field 1 at addr: ([0-9a-f]+), field 2 at addr: ([0-9a-f]+)$"
      [changeOnce "field1" 1, changeOnce "field2" 2]]

/-- The lines that tell an address in the program with unions. -/
def livesPattern : String :=
  "^(beta|gamma\\.foo|delta\\.foo1|delta\\.foo2) lives at 0x([0-9a-f]+)$"

/-- Lines that tell the address of the thing they name. -/
def lives (start : String) : ShapeSpec :=
  checked start livesPattern [⟨.group 1, .value 2 .changeOnce⟩]

def shapes : Preset → List ShapeSpec
  | fieldRelocation => relocationShapes
  | multipleUnits =>
    relocationShapes ++
      [exact "(Other) Foo:" "^\\(Other\\) Foo: 31,13$",
        checked "(Other) field 1 at addr:"
          "^\\(Other\\) field 1 at addr: ([0-9a-f]+), field 2 at addr: ([0-9a-f]+)$"
          [changeOnce "other.field1" 1, changeOnce "other.field2" 2]]
  | nestedTypes =>
    [banner,
      exact "alpha" "^alpha: 42,\\(foo: 111,128\\),69$",
      checked "v1: foo" "^v1: foo\\.field2 is 0 and field3 is 0$" [appears "new fields"],
      skip "v0: field",
      skip "v1: field"]
  | newVariable =>
    [banner,
      exact "v0" "^v0: I do nothing$",
      checked "v1: alpha" "^v1: alpha is \\\x7b42,66\\\x7d$" [appears "new variables"],
      checked "v1: beta" "^v1: beta is 24$" [appears "new variables"]]
  | pointers =>
    [banner,
      skip "name is",
      skip "layout is",
      skip "printThings new version",
      checked "alpha lives" "^alpha lives at 0x([0-9a-f]+)$" [changeOnce "alpha" 1],
      exact "alpha:" "^alpha: 1, 2, 3$",
      exact "alpha.other lives" "^alpha\\.other lives at 0x[0-9a-f]+$",
      exact "alpha.other:" "^alpha\\.other: 33, 22, 11$",
      exact "alpha.other has" "^alpha\\.other has no other member$",
      checked "beta lives" "^beta lives at 0x([0-9a-f]+)$" [changeOnce "beta" 1],
      exact "beta:" "^beta: 33, 22, 11$",
      exact "beta has" "^beta has no other member$",
      checked "gamma lives" "^gamma lives at 0x([0-9a-f]+)$" [changeOnce "gamma" 1],
      exact "gamma:" "^gamma: 44, 55, 66$",
      exact "gamma.other lives" "^gamma\\.other lives at 0x[0-9a-f]+$",
      exact "gamma.other:" "^gamma\\.other: 1, 2, 3$",
      exact "gamma.other.other lives" "^gamma\\.other\\.other lives at 0x[0-9a-f]+$",
      exact "gamma.other.other:" "^gamma\\.other\\.other: 33, 22, 11$",
      exact "gamma.other.other has" "^gamma\\.other\\.other has no other member$"]
  | unionsEnums =>
    [banner,
      lives "beta lives",
      lives "gamma.foo lives",
      lives "delta.foo1 lives",
      lives "delta.foo2 lives",
      exact "alpha is" "^alpha is 42$",
      exact "beta:" "^beta: 43, 44$",
      exact "gamma idx" "^gamma idx is 45$",
      exact "gamma.foo:" "^gamma\\.foo: 43, 46$",
      exact "delta idx" "^delta idx is 1$",
      exact "delta.foo1:" "^delta\\.foo1: NULL, 2$",
      exact "delta.foo2:" "^delta\\.foo2: NULL, 3$",
      checked "sizeof" "^sizeof\\(Baz\\) is ([0-9]+)$" [transition "sizeof(Baz)" "12" "20"]]
  | constants =>
    [banner,
      checked "alpha:" "^alpha: ([0-9]+)$" [transition "alpha" "2" "3"],
      checked "beta:" "^beta: ([0-9]+,[0-9]+,[0-9]+)$"
        [transition "beta" "42,43,44" "45,43,46"]]

def requirements : Preset → List Requirement
  | fieldRelocation => [.changed "field1", .changed "field2"]
  | multipleUnits =>
    [.changed "field1", .changed "field2", .changed "other.field1", .changed "other.field2"]
  | nestedTypes => [.seen "new fields"]
  | newVariable => [.seen "new variables"]
  | pointers => [.changed "alpha", .changed "beta", .changed "gamma"]
  | unionsEnums =>
    [.changed "beta", .changed "gamma.foo", .changed "sizeof(Baz)", .seen "delta.foo1",
      .seen "delta.foo2"]
  | constants => [.changed "alpha", .changed "beta"]

def table (p : Preset) : Except SpecError Table := Table.ofSpecs p.shapes p.requirements

end Preset

/-- A validator as it is described: a preset by its name, or shapes and requirements. -/
structure Spec where
  preset : Option String := none
  shapes : List ShapeSpec := []
  require : List Requirement := []
  deriving DecidableEq, Repr

def Spec.compile (s : Spec) : Except SpecError Table :=
  match s.preset with
  | some name =>
    if !s.shapes.isEmpty || !s.require.isEmpty then .error (.mixedPreset name)
    else match Preset.ofName? name with
      | some p => p.table
      | none => .error (.unknownPreset name (Preset.all.map Preset.name))
  | none =>
    if s.shapes.isEmpty then .error .empty else Table.ofSpecs s.shapes s.require

end PatchTrial.Validator
