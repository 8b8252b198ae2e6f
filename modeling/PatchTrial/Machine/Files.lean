import PatchTrial.IoError
import PatchTrial.Path
import Std.Data.TreeMap

/-!
Files of a machine. Files are nodes with numbers, folders map names to numbers, and a path is walked
name by name from a folder, following links. A file that lost its name stays as long as the machine
does, so what was opened once can always be read and written.

The folder of processes is computed: its entries are the processes the store was last told of.
-/
namespace PatchTrial.Machine

/-- A file that is no store of bytes. -/
inductive Device
  /-- Reads as empty and takes everything. -/
  | null
  /-- Has no room; nothing can be read from it. -/
  | full
  deriving DecidableEq, Repr

/-- What a node holds. -/
inductive Content
  | regular (bytes : Bytes)
  | folder (parent : Nat) (entries : List (Bytes × Nat))
  | link (target : Bytes)
  | device (d : Device)
  /-- A program of the system, by its name. -/
  | program (name : String)
  deriving DecidableEq, Repr

/-- A file. -/
structure Node where
  content : Content
  /-- The permission bits. -/
  mode : Nat
  deriving DecidableEq, Repr

structure Files where
  nodes : Std.TreeMap Nat Node := {}
  next : Nat := 1
  /-- The processes by their numbers, with the line that tells of each. -/
  processes : List (Nat × Bytes) := []

namespace Files

/-- The node of the topmost folder. -/
def top : Nat := 0

def processFolder : Nat := Nat.pow 2 40

def processNode (pid : Nat) : Nat := processFolder + 2 * pid

def name (s : String) : Bytes := Utf8.encode s

/-- The node of a number. -/
def node? (fs : Files) (id : Nat) : Option Node :=
  if id < processFolder then fs.nodes[id]?
  else if id = processFolder then
    some ⟨.folder top (fs.processes.map fun p => (name (toString p.1), processNode p.1)), 0o555⟩
  else
    match fs.processes.lookup ((id - processFolder) / 2) with
    | none => none
    | some line =>
      if id % 2 = 0 then some ⟨.folder processFolder [(name "stat", id + 1)], 0o555⟩
      else some ⟨.regular line, 0o444⟩

def content? (fs : Files) (id : Nat) : Option Content := (fs.node? id).map Node.content

def setContent (fs : Files) (id : Nat) (c : Content) : Files :=
  match fs.nodes[id]? with
  | some n => { fs with nodes := fs.nodes.insert id { n with content := c } }
  | none => fs

def setMode (fs : Files) (id : Nat) (mode : Nat) : Files :=
  match fs.nodes[id]? with
  | some n => { fs with nodes := fs.nodes.insert id { n with mode } }
  | none => fs

def add (fs : Files) (n : Node) : Nat × Files :=
  (fs.next, { fs with nodes := fs.nodes.insert fs.next n, next := fs.next + 1 })

/-- Gives a node a name in a folder, taking the name from another node if need be. -/
def enter (fs : Files) (folder : Nat) (entry : Bytes) (id : Nat) : Files :=
  match fs.content? folder with
  | some (.folder parent entries) =>
    let rest := entries.filter fun e => e.1 != entry
    fs.setContent folder (.folder parent (rest ++ [(entry, id)]))
  | _ => fs

/-- Takes a name out of a folder. -/
def leave (fs : Files) (folder : Nat) (entry : Bytes) : Files :=
  match fs.content? folder with
  | some (.folder parent entries) =>
    fs.setContent folder (.folder parent (entries.filter fun e => e.1 != entry))
  | _ => fs

/-- A machine without files but for the topmost folder. -/
def empty : Files :=
  { nodes := ({} : Std.TreeMap Nat Node).insert top ⟨.folder top [], 0o755⟩ }

/-- Where a path leads: the folder and the name it ends in, and the node of that name if there is
one. A path that ends in the topmost folder, or in a folder by going up, has an empty name. -/
structure Place where
  folder : Nat
  name : Bytes
  node : Option Nat
  /-- Whether the path says that it leads to a folder. -/
  slashed : Bool

/-- The names along a path, kept as they are but for empty ones. -/
def steps (path : Bytes) : List Bytes := (Path.pieces path).filter fun p => !p.isEmpty

def nameLimit : Nat := 255

def pathLimit : Nat := 4095

/-- How many links are followed on one path. -/
def linkLimit : Nat := 40

/-- Walks names from a folder, with as many links followed as are left. `follow` says whether a link
at the end is followed. -/
def walk (fs : Files) (follow : Bool) (links : Nat) (at_ : Nat) (slashed : Bool) :
    List Bytes → Except IoError Place
  | [] => .ok ⟨at_, [], some at_, slashed⟩
  | step :: rest =>
    match fs.content? at_ with
    | some (.folder parent entries) =>
      if step = [Path.stop] then walk fs follow links at_ slashed rest
      else if step = [Path.stop, Path.stop] then walk fs follow links parent slashed rest
      else if nameLimit < step.length then .error .nameTooLong
      else
        match entries.lookup step with
        | none =>
          if rest.isEmpty then .ok ⟨at_, step, none, slashed⟩ else .error .notFound
        | some id =>
          match fs.content? id with
          | some (.link target) =>
            -- a slash behind a link asks for what the link leads to
            if rest.isEmpty && !follow && !slashed then .ok ⟨at_, step, some id, slashed⟩
            else
              match links with
              | 0 => .error .tooManyLinks
              | links + 1 =>
                if target.isEmpty then .error .notFound
                else
                  let onward := if target.head? = some Path.slash then top else at_
                  let slashed := slashed || (rest.isEmpty && target.getLast? = some Path.slash)
                  walk fs follow links onward slashed (steps target ++ rest)
          | _ =>
            if rest.isEmpty then .ok ⟨at_, step, some id, slashed⟩
            else walk fs follow links id slashed rest
    | _ => .error .notFolder
termination_by steps => (links, steps.length)

/-- Where a path leads from a folder. -/
def locate (fs : Files) (here : Nat) (follow : Bool) (path : Bytes) : Except IoError Place := do
  if path.isEmpty then throw .notFound
  if pathLimit < path.length then throw .nameTooLong
  let start := if path.head? = some Path.slash then top else here
  let place ← fs.walk follow linkLimit start (path.getLast? = some Path.slash) (steps path)
  -- a slash at the end asks for a folder
  match place.node with
  | some id =>
    if place.slashed then
      match fs.content? id with
      | some (.folder _ _) => return place
      | _ => throw .notFolder
    else return place
  | none => return place

def find (fs : Files) (here : Nat) (follow : Bool) (path : Bytes) : Except IoError Nat := do
  match (← fs.locate here follow path).node with
  | some id => return id
  | none => throw .notFound

/-- What the nodes are that a path can lead to. -/
inductive Kind
  | regular
  | folder
  | device
  | link
  deriving DecidableEq, Repr

def Kind.ofContent : Content → Kind
  | .regular _ => regular
  | .folder _ _ => folder
  | .link _ => link
  | .device _ => device
  | .program _ => regular

def kind (fs : Files) (here : Nat) (follow : Bool) (path : Bytes) : Except IoError Kind := do
  match fs.content? (← fs.find here follow path) with
  | some c => return .ofContent c
  | none => throw .notFound

def bytes (fs : Files) (id : Nat) : Except IoError Bytes :=
  match fs.content? id with
  | some (.regular b) => .ok b
  | some (.device .null) => .ok []
  | some (.device .full) => .ok []
  | some (.program n) => .ok (0x7F :: name n)
  | some (.folder _ _) => .error .isFolder
  | _ => .error .notFound

def read (fs : Files) (here : Nat) (path : Bytes) : Except IoError Bytes := do
  fs.bytes (← fs.find here true path)

def list (fs : Files) (here : Nat) (path : Bytes) : Except IoError (List Bytes) := do
  match fs.content? (← fs.find here true path) with
  | some (.folder _ entries) => return entries.map Prod.fst
  | _ => throw .notFolder

/-- Whether anyone may run a node. -/
def mayRun (fs : Files) (id : Nat) : Bool :=
  match fs.node? id with
  | some n => n.mode &&& 0o111 != 0
  | none => false

/-- Whether a path leads to a file that may be run. -/
def isProgram (fs : Files) (here : Nat) (path : Bytes) : Bool :=
  match fs.find here true path with
  | .ok id =>
    match fs.content? id with
    | some (.regular _) => fs.mayRun id
    | some (.program _) => fs.mayRun id
    | _ => false
  | .error _ => false

inductive Writing
  /-- What it held is dropped. -/
  | truncate
  /-- Everything goes to its end. -/
  | append
  /-- It is written over from the start. -/
  | over
  deriving DecidableEq, Repr

/-- Opens the file a path leads to for writing, making it if there is none. -/
def openToWrite (fs : Files) (here : Nat) (w : Writing) (path : Bytes) :
    Except IoError (Nat × Files) := do
  let place ← fs.locate here true path
  match place.node with
  | some id =>
    match fs.content? id with
    | some (.folder _ _) => throw .isFolder
    | some (.regular _) =>
      if processFolder ≤ id then throw .denied
      return (id, if w = .truncate then fs.setContent id (.regular []) else fs)
    | _ => return (id, fs)
  | none =>
    if place.slashed then throw .isFolder
    if processFolder ≤ place.folder then throw .notFound
    let (id, fs) := fs.add ⟨.regular [], 0o644⟩
    return (id, fs.enter place.folder place.name id)

/-- Writes bytes into a node from an offset on: the offset after them. -/
def write (fs : Files) (id offset : Nat) (b : Bytes) : Except IoError (Nat × Files) :=
  match fs.content? id with
  | some (.regular old) =>
    let gap := List.replicate (offset - old.length) 0
    let new := old.take offset ++ gap ++ b ++ old.drop (offset + b.length)
    .ok (offset + b.length, fs.setContent id (.regular new))
  | some (.device .null) => .ok (offset, fs)
  | some (.device .full) => if b.isEmpty then .ok (offset, fs) else .error .noSpace
  | some (.folder _ _) => .error .isFolder
  | _ => .error .invalid

def size (fs : Files) (id : Nat) : Nat :=
  match fs.content? id with
  | some (.regular b) => b.length
  | _ => 0

def makeFolder (fs : Files) (here : Nat) (path : Bytes) : Except IoError Files := do
  let place ← fs.locate here false path
  match place.node with
  | some _ => throw .exists'
  | none =>
    let (id, fs) := fs.add ⟨.folder place.folder [], 0o755⟩
    return fs.enter place.folder place.name id

def makeLink (fs : Files) (here : Nat) (target path : Bytes) : Except IoError Files := do
  let place ← fs.locate here false path
  match place.node with
  | some _ => throw .exists'
  | none =>
    if place.slashed then throw .notFound
    let (id, fs) := fs.add ⟨.link target, 0o777⟩
    return fs.enter place.folder place.name id

/-- Takes away a name that is no folder's. -/
def remove (fs : Files) (here : Nat) (path : Bytes) : Except IoError Files := do
  let place ← fs.locate here false path
  match place.node with
  | none => throw .notFound
  | some id =>
    match fs.content? id with
    | some (.folder _ _) => throw .isFolder
    | _ => return fs.leave place.folder place.name

def removeFolder (fs : Files) (here : Nat) (path : Bytes) : Except IoError Files := do
  let place ← fs.locate here false path
  match place.node with
  | none => throw .notFound
  | some id =>
    match fs.content? id with
    | some (.folder _ entries) =>
      if place.name.isEmpty then throw .invalid
      if entries.isEmpty then return fs.leave place.folder place.name else throw .notEmpty
    | _ => throw .notFolder

/-- Moves a name to another one, in whose place it comes. -/
def rename (fs : Files) (here : Nat) (source target : Bytes) : Except IoError Files := do
  let from_ ← fs.locate here false source
  let to_ ← fs.locate here false target
  match from_.node with
  | none => throw .notFound
  | some id =>
    let isFolder := match fs.content? id with
      | some (.folder _ _) => true
      | _ => false
    match to_.node with
    | some other =>
      match fs.content? other with
      | some (.folder _ entries) =>
        if !isFolder then throw .isFolder
        if !entries.isEmpty then throw .notEmpty
      | _ => if isFolder then throw .notFolder
    | none => pure ()
    let moved := (fs.leave from_.folder from_.name).enter to_.folder to_.name id
    match moved.content? id with
    | some (.folder _ entries) => return moved.setContent id (.folder to_.folder entries)
    | _ => return moved

def link (fs : Files) (here : Nat) (source target : Bytes) : Except IoError Files := do
  let id ← fs.find here false source
  let place ← fs.locate here false target
  match place.node with
  | some _ => throw .exists'
  | none => return fs.enter place.folder place.name id

/-- The names from the topmost folder to a folder, the last one first, found by going up. -/
def trail (fs : Files) : Nat → Nat → List Bytes
  | 0, _ => []
  | budget + 1, id =>
    if id = top then []
    else match fs.content? id with
      | some (.folder parent _) =>
        match fs.content? parent with
        | some (.folder _ entries) =>
          match entries.find? fun e => e.2 == id with
          | some e => e.1 :: trail fs budget parent
          | none => []
        | _ => []
      | _ => []

/-- The path of names from the topmost folder. -/
def pathOf (names : List Bytes) : Bytes :=
  if names.isEmpty then [Path.slash] else names.flatMap fun n => Path.slash :: n

def pathOfFolder (fs : Files) (id : Nat) : Bytes := pathOf (fs.trail (fs.next + 2) id).reverse

/-- The path of a node that a path leads to, without links. -/
def canonical (fs : Files) (here : Nat) (path : Bytes) : Except IoError Bytes := do
  let place ← fs.locate here true path
  match place.node with
  | none => throw .notFound
  | some id =>
    match fs.content? id with
    | some (.folder _ _) => return fs.pathOfFolder id
    | _ => return pathOf ((fs.trail (fs.next + 2) place.folder).reverse ++ [place.name])

end Files
end PatchTrial.Machine
