/-!
Text as bytes. A byte string is read as UTF-8 either strictly, where one bad byte refuses the whole
string, or lossily, where each longest broken part becomes one replacement character. Both readings
are one walk over the same steps: `next?` takes a character or a broken part from the front and
leaves a shorter string, and every step is justified by the table of leading octets alone.
-/
namespace PatchTrial

/-- A byte string: the contents of a file, or a name the file system gave. -/
abbrev Bytes := List UInt8

namespace Utf8

/-- The range of the second octet and the number of octets after it, by the leading octet. -/
def following? (lead : UInt8) : Option (UInt8 × UInt8 × Nat) :=
  if 0xC2 ≤ lead ∧ lead ≤ 0xDF then some (0x80, 0xBF, 0)
  else if lead = 0xE0 then some (0xA0, 0xBF, 1)
  else if lead = 0xED then some (0x80, 0x9F, 1)
  else if 0xE1 ≤ lead ∧ lead ≤ 0xEF then some (0x80, 0xBF, 1)
  else if lead = 0xF0 then some (0x90, 0xBF, 2)
  else if lead = 0xF4 then some (0x80, 0x8F, 2)
  else if 0xF1 ≤ lead ∧ lead ≤ 0xF3 then some (0x80, 0xBF, 2)
  else none

/-- The payload bits of a leading octet that announces `n` octets after the second. -/
def leadBits (lead : UInt8) (n : Nat) : Nat :=
  lead.toNat % (if n = 0 then 32 else if n = 1 then 16 else 8)

/-- Reads `n` more continuation octets onto the code point read so far; `none` for the character
when one is missing, with the octets not used. -/
def continue? : Nat → Nat → Bytes → Option Char × Bytes
  | 0, point, rest => (some (Char.ofNat point), rest)
  | _ + 1, _, [] => (none, [])
  | n + 1, point, b :: rest =>
    if 0x80 ≤ b ∧ b ≤ 0xBF then continue? n (point * 64 + b.toNat % 64) rest
    else (none, b :: rest)

theorem length_continue?_le (n point : Nat) (bytes : Bytes) :
    (continue? n point bytes).2.length ≤ bytes.length := by
  induction n generalizing point bytes with
  | zero => simp [continue?]
  | succ n ih =>
    cases bytes with
    | nil => simp [continue?]
    | cons b rest =>
      simp only [continue?]
      split
      · exact Nat.le_trans (ih _ _) (by simp)
      · exact Nat.le_refl _

/-- Takes one character (`some c`) or one longest broken part (`none`) from the front. -/
def next? : Bytes → Option (Option Char × Bytes)
  | [] => none
  | a :: rest =>
    if a < 0x80 then some (some (Char.ofNat a.toNat), rest)
    else match following? a, rest with
      | some (low, high, n), b :: rest' =>
        if low ≤ b ∧ b ≤ high then
          some (continue? n (leadBits a n * 64 + b.toNat % 64) rest')
        else some (none, rest)
      | _, _ => some (none, rest)

theorem length_lt_of_next? {bytes rest : Bytes} {c : Option Char}
    (h : next? bytes = some (c, rest)) : rest.length < bytes.length := by
  cases bytes with
  | nil => simp [next?] at h
  | cons a tail =>
    simp only [next?] at h
    split at h
    · simp only [Option.some.injEq, Prod.mk.injEq] at h
      simp [h.2]
    · split at h
      · split at h
        · simp only [Option.some.injEq] at h
          rename_i low high n b rest' _ _
          have le := length_continue?_le n (leadBits a n * 64 + b.toNat % 64) rest'
          rw [h] at le
          simp only [List.length_cons] at le ⊢
          omega
        · simp only [Option.some.injEq, Prod.mk.injEq] at h
          simp [← h.2]
      · simp only [Option.some.injEq, Prod.mk.injEq] at h
        simp [h.2]

/-- The characters of a byte string, `none` standing for one broken part. -/
def parts (bytes : Bytes) : List (Option Char) :=
  match _h : next? bytes with
  | none => []
  | some (c, rest) => c :: parts rest
termination_by bytes.length
decreasing_by exact length_lt_of_next? _h

def encode (s : String) : Bytes :=
  s.toList.flatMap String.utf8EncodeChar

/-- What a broken part is shown as. -/
def replacement : Char := '\uFFFD'

/-- Every byte string has a lossy reading. -/
def decodeLossy (bytes : Bytes) : String :=
  String.ofList ((parts bytes).map (·.getD replacement))

def decode? (bytes : Bytes) : Option String :=
  ((parts bytes).mapM id).map String.ofList

end Utf8


end PatchTrial
