import PatchTrial.Json.Decoder
import PatchTrial.Text.Blank

/-!
The settings a scenario may carry in a file of its own.
-/
namespace PatchTrial

/-- Settings of a scenario; what is not given is left to others. -/
structure Settings where
  execName : Option String := none
  args : Option (List String) := none
  elevated : Option Bool := none
  settleMs : Option Nat := none
  observeMs : Option Nat := none
  deriving DecidableEq, Repr

namespace Settings

open Json

def record : Record Settings :=
  { type := "struct ScenarioConfig"
    start := {}
    fields :=
      [{ name := "exec_name",
          read := fun d s => do return { s with execName := ← Decoder.string.optional d } },
        { name := "args",
          read := fun d s => do return { s with args := ← Decoder.string.listOf.optional d } },
        { name := "elevated",
          read := fun d s => do return { s with elevated := ← Decoder.boolean.optional d } },
        { name := "settle_ms",
          read := fun d s => do
            return { s with settleMs := ← (Decoder.natural "u64").optional d } },
        { name := "observe_ms",
          read := fun d s => do
            return { s with observeMs := ← (Decoder.natural "u64").optional d } }] }

def ofBytes (bytes : Bytes) : Except Problem Settings := Decoder.ofBytes record.decode bytes

/-- Whether the executable is named by nothing but white space. -/
def hasBlankName (s : Settings) : Bool := s.execName.any Text.isAllBlank

end Settings
end PatchTrial
