import PatchTrial.Machine.Shell.Invocation
import PatchTrial.Machine.State

/-!
From a file to the program it holds. A file either is a program of the system or names, on its first
line, the program that is to read it.
-/
namespace PatchTrial.Machine

/-- The byte that a program of the system begins with. -/
def programMark : UInt8 := 0x7F

def shellNames : List String := ["sh", "dash"]

def programNames : List String := shellNames ++ Utility.utilityNames

def systemProgram? (name : String) (argv : List Text) (env : Environment) : Option Program :=
  if shellNames.contains name then some (Shell.shell argv env).toProgram
  else (Utility.utility? name (argv.drop 1) env).map Task.toProgram

/-- How many characters of a first line count. -/
def firstLineLimit : Nat := 255

/-- The program that a first line names, with the word that follows it. -/
def interpreter? (t : Text) : Option (Text × Option Text) :=
  match t with
  | '#' :: '!' :: rest =>
    let isBlank (c : Char) : Bool := c == ' ' || c == '\t'
    let line := ((rest.take firstLineLimit).takeWhile (· != '\n')).dropWhile isBlank
    let path := line.takeWhile fun c => !isBlank c
    let word := (line.drop path.length).dropWhile isBlank
    let word := (word.reverse.dropWhile isBlank).reverse
    if path.isEmpty then none else some (path, if word.isEmpty then none else some word)
  | _ => none

/-- The program in a file, with so many first lines followed at most. -/
def programIn (fs : Files) (here : Nat) (env : Environment) :
    Nat → Text → List Text → Except IoError Program
  | 0, _, _ => .error .tooManyLinks
  | depth + 1, path, argv => do
    let id ← fs.find here true (Text.toBytes path)
    match fs.content? id with
    | some (.folder _ _) => throw .denied
    | some (.device _) => throw .denied
    | _ => pure ()
    if !fs.mayRun id then throw .denied
    let bytes ← fs.bytes id
    match bytes with
    | [] => throw .notRunnable
    | b :: name =>
      if b == programMark then
        match systemProgram? (Text.shown (Text.ofBytes name)) argv env with
        | some p => return p
        | none => throw .notRunnable
      else
        match interpreter? (Text.ofBytes (bytes.take (firstLineLimit + 2))) with
        | none => throw .notRunnable
        | some (interpreter, word) =>
          programIn fs here env depth interpreter
            (interpreter :: word.toList ++ path :: argv.drop 1)

/-- How many first lines are followed. -/
def interpreterLimit : Nat := 5

/-- The program in the file of a path, with the name it has in the table of processes. -/
def load (fs : Files) (here : Nat) (path : Text) (argv : List Text) (env : Environment) :
    Except IoError (Text × Program) := do
  let p ← programIn fs here env interpreterLimit path argv
  return ((Text.baseName path).take commLimit, p)

/-- The paths under which a program is looked for. -/
def candidates (env : Environment) (name : Text) : List Text :=
  if name.contains '/' then [name]
  else (Utility.searchFolders env).map fun f => if f.isEmpty then name else f ++ '/' :: name

/-- The program of a name, looked for along the folders of the environment. A file that may not be
run is passed over, and is the reason if there is no other. -/
def loadByName (fs : Files) (here : Nat) (argv : List Text) (env : Environment) :
    Except IoError (Text × Program) :=
  match argv with
  | [] => .error .notFound
  | name :: _ => if name.isEmpty then .error .notFound else go .notFound (candidates env name)
where
  /-- Looks at one path after another. -/
  go (worst : IoError) : List Text → Except IoError (Text × Program)
    | [] => .error worst
    | path :: rest =>
      match load fs here path argv env with
      | .ok r => .ok r
      | .error e =>
        if e = .denied then go e rest
        else if e = .notFound || e = .notFolder then
          go (if rest.isEmpty && worst = .notFound then e else worst) rest
        else .error e

end PatchTrial.Machine
