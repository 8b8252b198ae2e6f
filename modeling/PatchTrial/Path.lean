import PatchTrial.Text.Utf8

/-!
Paths. A path is a byte string; it is joined, taken apart and shown without looking at any file.
-/
namespace PatchTrial

structure Path where
  bytes : Bytes
  deriving DecidableEq, Repr

namespace Path

def slash : UInt8 := 47

def stop : UInt8 := 46

def ofString (s : String) : Path := ⟨Utf8.encode s⟩

/-- How a path is shown: broken parts of its text are replaced. -/
def shown (p : Path) : String := Utf8.decodeLossy p.bytes

/-- Whether a path starts at the root of all files. -/
def isAbsolute (p : Path) : Bool := p.bytes.head? == some slash

/-- `p` followed by `q`. An absolute `q` stands alone; otherwise one slash is put between them if
`p` does not end in one. -/
def join (p q : Path) : Path :=
  if q.isAbsolute then q
  else if p.bytes.isEmpty || p.bytes.getLast? == some slash then ⟨p.bytes ++ q.bytes⟩
  else ⟨p.bytes ++ slash :: q.bytes⟩

/-- `p` followed by a name. -/
def child (p : Path) (name : String) : Path := p.join (ofString name)

/-- The byte strings between slashes. -/
def pieces : Bytes → List Bytes
  | [] => [[]]
  | b :: rest =>
    if b = slash then [] :: pieces rest
    else match pieces rest with
      | [] => [[b]]
      | piece :: more => (b :: piece) :: more

/-- The names along a path: what stands between its slashes, but for empty pieces and single
stops, which stay where they are. -/
def names (p : Path) : List Bytes :=
  (pieces p.bytes).filter fun piece => !piece.isEmpty && piece != [stop]

/-- The last name of a path, unless it leads upwards or there is none. -/
def fileName? (p : Path) : Option Bytes :=
  match p.names.getLast? with
  | some name => if name = [stop, stop] then none else some name
  | none => none

/-- The name a path goes by: its last name, or all of it if it has none. -/
def label (p : Path) : String :=
  match p.fileName? with
  | some name => Utf8.decodeLossy name
  | none => p.shown

/-- Whether a path holds the byte zero, which no call of the operating system takes. -/
def hasZero (p : Path) : Bool := p.bytes.contains 0

end Path
end PatchTrial
