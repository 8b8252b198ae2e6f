import PatchTrial.Machine.Trials
import PatchTrial.Program

/-!
The command line. The files below the current folder are read into a modelled machine, the program
is carried out there, and what it wrote is written back. A file that names an interpreter on its
first line may be run.
-/
namespace PatchTrial.Main

/-- The folder of the modelled machine that stands for the current one. -/
def folder : String := "/work"

/-- The name of the program among the processes of the machine. -/
def comm : String := "hotpatch-harness"

/-- How many folders deep files are read. -/
def depthLimit : Nat := 64

/-- Reads an entry of a folder into a machine; `place` is the path of the folder. -/
def load (place : String) : Nat → Machine → IO.FS.DirEntry → IO Machine
  | 0, m, _ => return m
  | depth + 1, m, entry => do
    let path := place ++ entry.fileName
    if ← entry.path.isDir then
      (← entry.path.readDir).foldlM (load (path ++ "/") depth) (m.putFolder path)
    else
      try
        let bytes := (← IO.FS.readBinFile entry.path).toList
        let mayRun := (Machine.interpreter? (Machine.Text.ofBytes (bytes.take 256))).isSome
        return m.putFile path bytes mayRun
      catch _ => return m

/-- The files below a folder of a machine, with their paths. -/
def filesBelow (fs : Machine.Files) : Nat → String → Nat → List (String × Bytes)
  | 0, _, _ => []
  | depth + 1, place, id =>
    match fs.content? id with
    | some (.folder _ entries) =>
      entries.flatMap fun e =>
        let path := place ++ Utf8.decodeLossy e.1
        match fs.content? e.2 with
        | some (.regular b) => [(path, b)]
        | some (.folder _ _) => filesBelow fs depth (path ++ "/") e.2
        | _ => []
    | _ => []

/-- Writes the files that differ from those of a machine before. -/
def save (before after : Machine) : IO Unit := do
  for (path, b) in filesBelow after.files depthLimit "" after.here do
    if before.held? path != some b then
      IO.FS.createDirAll (Utf8.decodeLossy (Machine.Text.toBytes
        (Machine.Text.folderName (Machine.Text.ofString path))))
      IO.FS.writeBinFile path ⟨b.toArray⟩

/-- Carries out the program in the current folder. -/
def carryOut (words : List String) : IO UInt32 := do
  let start := Machine.initial folder comm
  let before ← (← (← IO.currentDir).readDir).foldlM (load "" depthLimit) start
  let (ending, after) := Machine.carryOut (Program.run words) before
  save before after
  IO.print (Utf8.decodeLossy after.progress)
  match ending with
  | .killed signal => return UInt32.ofNat (128 + signal)
  | .finished outcome =>
    match outcome with
    | .usage .version => IO.println Program.version
    | .refused r => IO.eprintln (Program.errorLine r)
    | _ => pure ()
    return UInt32.ofNat outcome.exitCode

end PatchTrial.Main

def main (words : List String) : IO UInt32 := PatchTrial.Main.carryOut words
