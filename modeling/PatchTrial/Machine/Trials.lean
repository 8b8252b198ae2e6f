import PatchTrial.Machine.Schedule

/-!
Carrying out plans on a modelled machine. Every request has its reply, and processes go on only
while the plan waits: when it sleeps, and when it runs a program or waits for one to end.
-/
namespace PatchTrial

namespace Machine

/-- The error of a path with the byte zero in it. -/
def zeroInPath : IoError := .other "file name contained an unexpected NUL byte"

/-- The error of a word with the character zero in it. -/
def zeroInWord : IoError := .other "nul byte found in provided data"

/-- The error of a record of progress that is closed. -/
def closed : IoError := .other "writer is closed"

/-- The error of a child that there is not. -/
def noChild : IoError := .os 10

/-- Does something with the file of a path unless the path cannot be given to the machine. -/
def withPath {α : Type} (path : Path) (f : Bytes → Except IoError α) : Except IoError α :=
  if path.hasZero then .error zeroInPath else f path.bytes

def kindOf (m : Machine) (path : Path) : Option PathKind :=
  match withPath path (m.files.kind m.here true) with
  | .ok .regular => some .file
  | .ok .folder => some .folder
  | .ok _ => some .other
  | .error _ => none

def openFor (m : Machine) (path : Path) (how : Files.Writing) : Except IoError Handle × Machine :=
  match withPath path (m.files.openToWrite m.here how) with
  | .error e => (.error e, m)
  | .ok (id, files) =>
    let (file, m) := openFile { m with files }
      { channel := .node id, appends := how == .append, writable := true }
    (.ok file, m)

def writeTo (m : Machine) (file : Handle) (b : Bytes) : Except IoError Unit × Machine :=
  match m.opens[file]? with
  | some o =>
    match o.channel with
    | .node id => m.writeNode file o id b
    | _ => (.error notOpen, m)
  | none => (.error notOpen, m)

def lineEnds (b : Bytes) : Nat := b.count 10

/-- Writes to the record of progress, which takes all of a text or nothing. -/
def report (m : Machine) (text : String) : Except IoError Unit × Machine :=
  if (m.lineLimit.any fun n => n ≤ lineEnds m.progress) ||
      (m.byteLimit.any fun n => n ≤ m.progress.length) then (.error closed, m)
  else (.ok (), { m with progress := m.progress ++ Utf8.encode text })

/-- An open file that takes everything and holds nothing. -/
def openNull (m : Machine) : Nat × Machine :=
  match m.files.find m.here true (Utf8.encode "/dev/null") with
  | .ok id => m.openFile { channel := .node id, writable := true }
  | .error _ => m.openFile { channel := .node Files.top }

/-- Starts a program as a child of the process whose plan is carried out; in a group of its own, or
in that of its parent. -/
def start (m : Machine) (argv : List String) (leads : Bool) (out err : Option Handle) :
    Except IoError Pid × Machine :=
  if argv.any fun w => w.toList.contains '\x00' then (.error zeroInWord, m)
  else match loadByName m.files m.here (argv.map Text.ofString) m.environment with
    | .error e => (.error e, m)
    | .ok (comm, program) =>
      let pid := m.nextPid
      let (null, m) := m.openNull
      let group := if leads then pid else match m.process? m.self with
        | some p => p.group
        | none => m.self
      let p : Process :=
        { parent := m.self, group, comm, life := .runs program, here := m.here
          files := [(0, null), (1, out.getD null), (2, err.getD null)] }
      (.ok pid, setProcess { m with nextPid := pid + 1 } pid p)

/-- The folders in which programs are looked up. -/
def searchPath (m : Machine) : List Path :=
  match m.environment.lookup "PATH".toList with
  | some t => (Text.splitOn (· == ':') t).map fun f => ⟨Text.toBytes f⟩
  | none => []

def answer (m : Machine) : (r : Request) → r.Reply × Machine
  | .kind path =>
    let m := m.withTable
    (m.kindOf path, m)
  | .read path =>
    let m := m.withTable
    (withPath path (m.files.read m.here), m)
  | .list path =>
    let m := m.withTable
    (withPath path (m.files.list m.here), m)
  | .canonical path => ((withPath path (m.files.canonical m.here)).map fun b => ⟨b⟩, m)
  | .isProgram path => (!path.hasZero && m.files.isProgram m.here path.bytes, m)
  | .searchPath => (m.searchPath, m)
  | .create path => m.openFor path .truncate
  | .openLog path .truncate => m.openFor path .truncate
  | .openLog path .append => m.openFor path .append
  | .write file b => m.writeTo file b
  | .report text => m.report text
  | .flush => (.ok (), m)
  | .run argv out err =>
    match m.start argv false out err with
    | (.error e, m) => (.error e, m)
    | (.ok pid, m) =>
      match m.awaitEnd pid with
      | (some status, m) => (.ok status, m)
      | (none, m) => (.error noChild, m)
  | .spawn argv out err => m.start argv true (some out) (some err)
  | .poll pid =>
    match m.collect pid with
    | (some status, m) => (.ok (some status), m)
    | (none, m) => if (m.process? pid).isSome then (.ok none, m) else (.error noChild, m)
  | .await pid =>
    match m.awaitEnd pid with
    | (some status, m) => (.ok status, m)
    | (none, m) => (.error noChild, m)
  | .kill pid => (.ok (), m.send pid Signal.kill)
  | .signalGroup group signal =>
    match m.sendAll (m.membersOf group) signal with
    | .ok m => (.ok (), m)
    | .error e => (.error e, m)
  | .sleep ms => ((), m.pass (ms * 1000))
  | .now => (m.clock, m)
  | .publish group => ((), { m with published := some group })
  | .retract group =>
    ((), if m.published = some group then { m with published := none } else m)
  | .guard => ((), { m with guarded := true })

/-- How carrying out a plan ends. -/
inductive Ending (α : Type)
  | finished (a : α)
  /-- A signal killed the process whose plan it was. -/
  | killed (signal : Signal)

def carryOut {α : Type} : Plan α → Machine → Ending α × Machine
  | .done a, m => (.finished a, m)
  | .ask r next, m =>
    let (reply, m) := m.answer r
    -- a signal may have come to the process of the plan while the request was served
    match m.killed with
    | some signal => (.killed signal, m)
    | none => carryOut (next reply) m

/-! ## A machine to begin with -/

def programFolder : String := "/usr/bin"

/-- The folders that programs are looked up in. -/
def usualPath : String := "/usr/local/sbin:/usr/local/bin:/usr/sbin:/usr/bin:/sbin:/bin"

def makeFolders (fs : Files) (here : Nat) : Bytes → List Bytes → Files
  | _, [] => fs
  | before, name :: rest =>
    let path := before ++ name
    let fs := match fs.makeFolder here path with
      | .ok fs => fs
      | .error _ => fs
    makeFolders fs here (path ++ [Path.slash]) rest

/-- Makes the folder of a path, and those it is in. -/
def makePath (fs : Files) (here : Nat) (path : Bytes) : Files :=
  let start := if path.head? = some Path.slash then [Path.slash] else []
  makeFolders fs here start (Files.steps path)

/-- Adds a file at a path, in place of one that is there. -/
def addFile (fs : Files) (here : Nat) (path : Bytes) (n : Node) : Files :=
  match fs.locate here false path with
  | .ok place =>
    let (id, fs) := fs.add n
    fs.enter place.folder place.name id
  | .error _ => fs

/-- The files of a system: its programs, its devices and the folder of processes. -/
def systemFiles : Files :=
  let folders := ["/usr/bin", "/usr/sbin", "/usr/local/bin", "/usr/local/sbin", "/dev", "/tmp",
    "/root", "/etc"]
  let fs := folders.foldl (fun fs p => makePath fs Files.top (Utf8.encode p)) Files.empty
  let fs := programNames.foldl (fun fs name =>
    addFile fs Files.top (Utf8.encode (programFolder ++ "/" ++ name)) ⟨.program name, 0o755⟩) fs
  let fs := [("/bin", "usr/bin"), ("/sbin", "usr/sbin")].foldl (fun fs e =>
    addFile fs Files.top (Utf8.encode e.1) ⟨.link (Utf8.encode e.2), 0o777⟩) fs
  let fs := addFile fs Files.top (Utf8.encode "/dev/null") ⟨.device .null, 0o666⟩
  let fs := addFile fs Files.top (Utf8.encode "/dev/full") ⟨.device .full, 0o666⟩
  fs.enter Files.top (Utf8.encode "proc") Files.processFolder

/-- Puts a file at a path, in place of what a file there holds. -/
def putFile (m : Machine) (path : String) (b : Bytes) (mayRun : Bool) : Machine :=
  let path := Utf8.encode path
  let fs := makePath m.files m.here (Text.toBytes (Text.folderName (Text.ofBytes path)))
  match fs.openToWrite m.here .truncate path with
  | .ok (id, fs) =>
    let fs := fs.setContent id (.regular b)
    { m with files := if mayRun then fs.setMode id 0o755 else fs }
  | .error _ => { m with files := fs }

def putFolder (m : Machine) (path : String) : Machine :=
  { m with files := makePath m.files m.here (Utf8.encode path) }

def putLink (m : Machine) (path target : String) : Machine :=
  let path := Utf8.encode path
  let fs := makePath m.files m.here (Text.toBytes (Text.folderName (Text.ofBytes path)))
  { m with files := addFile fs m.here path ⟨.link (Utf8.encode target), 0o777⟩ }

/-- What the file of a path holds, if it is a store of bytes. -/
def held? (m : Machine) (path : String) : Option Bytes :=
  match m.files.find m.here true (Utf8.encode path) with
  | .ok id =>
    match m.files.content? id with
    | some (.regular b) => some b
    | _ => none
  | .error _ => none

/-- The number of the process whose plan is carried out on a machine that just began. -/
def initialPid : Pid := 100

/-- A machine that just began: only the first process and the one whose plan is carried out are
there. `folder` is where that one is. -/
def initial (folder comm : String) : Machine :=
  let files := makePath systemFiles Files.top (Utf8.encode folder)
  let here := match files.find Files.top true (Utf8.encode folder) with
    | .ok id => id
    | .error _ => Files.top
  let process (parent group : Pid) (comm : String) : Process :=
    { parent, group, comm := (Text.ofString comm).take commLimit, life := .outside, here }
  { files
    processes := (({} : Std.TreeMap Nat Process).insert firstPid (process 0 firstPid "init")).insert
      initialPid (process firstPid initialPid comm)
    nextPid := initialPid + 1
    self := initialPid
    here
    environment := [("PATH", usualPath), ("HOME", "/root")].map fun e =>
      (Text.ofString e.1, Text.ofString e.2) }

end Machine
end PatchTrial
