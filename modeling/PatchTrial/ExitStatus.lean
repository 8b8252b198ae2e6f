/-!
How a program ended, as the operating system packs it into one word: the low seven bits are the
signal that killed it, or zero if it exited, and the next byte is its exit code.
-/
namespace PatchTrial

/-- The word that tells how a program ended. -/
structure ExitStatus where
  word : UInt32
  deriving DecidableEq, Repr

namespace ExitStatus

def exited (code : Nat) : ExitStatus := ⟨(UInt32.ofNat code &&& 0xFF) <<< 8⟩

def killed (signal : Nat) : ExitStatus := ⟨UInt32.ofNat signal &&& 0x7F⟩

def code? (s : ExitStatus) : Option Nat :=
  if s.word &&& 0x7F = 0 then some ((s.word >>> 8) &&& 0xFF).toNat else none

/-- The signal that killed the program, if one did. -/
def signal? (s : ExitStatus) : Option Nat :=
  let low := s.word &&& 0x7F
  if low = 0 || low = 0x7F then none else some low.toNat

/-- Success is the word zero. -/
def succeeded (s : ExitStatus) : Bool := s.word == 0

def text (s : ExitStatus) : String :=
  match s.code?, s.signal? with
  | some code, _ => toString code
  | none, some signal => "terminated by signal " ++ toString signal
  | none, none => "terminated by signal"

end ExitStatus
end PatchTrial
