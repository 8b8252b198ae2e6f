import PatchTrial.Machine.Delivery
import PatchTrial.Machine.Loader

/-!
What the calls of a program do to the machine. A call is replied to, or it blocks and is made again
later, or the process becomes another program.
-/
namespace PatchTrial.Machine

/-- What comes of a call. -/
inductive Result (c : Call)
  /-- It is made again later. -/
  | blocked (m : Machine)
  | replied (r : c.Reply) (m : Machine)
  /-- The process runs another program now. -/
  | became (m : Machine)

namespace Result

/-- A reply that changes nothing but the machine, or an error. -/
def ofFiles {ε : Type} (m : Machine) : Except ε Files → Except ε Unit × Machine
  | .ok files => (.ok (), { m with files })
  | .error e => (.error e, m)

end Result

def notOpen : IoError := .os 9

def brokenPipe : IoError := .os 32

def pipeSignal : Signal := 13

/-- How much a pipe holds before who writes to it has to wait. -/
def pipeLimit : Nat := 65536

def writeNode (m : Machine) (file : Nat) (o : OpenFile) (id : Nat) (b : Bytes) :
    Except IoError Unit × Machine :=
  let offset := if o.appends then m.files.size id else o.offset
  match m.files.write id offset b with
  | .ok (offset, files) =>
    (.ok (), { m with files, opens := m.opens.insert file { o with offset } })
  | .error e => (.error e, m)

def writeCall (m : Machine) (pid : Pid) (p : Process) (n : Nat) (b : Bytes) :
    Result (.write n b) :=
  match (p.files.lookup n).bind fun file => (m.opens[file]?).map fun o => (file, o) with
  | none => .replied (.error notOpen) m
  | some (file, o) =>
    if !o.writable then .replied (.error notOpen) m
    else match o.channel with
      | .outlet _ => .replied (.error notOpen) m
      | .inlet pipe =>
        if !m.isHeld (.outlet pipe) then .replied (.error brokenPipe) (m.deliver pid pipeSignal)
        else
          let held := (m.pipes[pipe]?).getD []
          if pipeLimit ≤ held.length then .blocked m
          else .replied (.ok ()) { m with pipes := m.pipes.insert pipe (held ++ b) }
      | .node id =>
        let (r, m) := m.writeNode file o id b
        .replied r m

def readCall (m : Machine) (p : Process) (n most : Nat) : Result (.read n most) :=
  match (p.files.lookup n).bind fun file => (m.opens[file]?).map fun o => (file, o) with
  | none => .replied (.error notOpen) m
  | some (file, o) =>
    match o.channel with
    | .inlet _ => .replied (.error notOpen) m
    | .outlet pipe =>
      let held := (m.pipes[pipe]?).getD []
      if held.isEmpty then
        if m.isHeld (.inlet pipe) then .blocked m else .replied (.ok []) m
      else .replied (.ok (held.take most)) { m with pipes := m.pipes.insert pipe (held.drop most) }
    | .node id =>
      match m.files.bytes id with
      | .error e => .replied (.error e) m
      | .ok bytes =>
        let part := (bytes.drop o.offset).take most
        .replied (.ok part) { m with
          opens := m.opens.insert file { o with offset := o.offset + part.length } }

/-- Gives a process a number for a new open file. -/
def attachNew (m : Machine) (pid : Pid) (p : Process) (o : OpenFile) : Nat × Machine :=
  let (file, m) := m.openFile o
  let (n, p) := p.attach 0 file
  (n, m.setProcess pid p)

/-- The first number that files are saved under. -/
def firstSaved : Nat := 10

def waitCall (m : Machine) (pid : Pid) (p : Process) (child : Option Pid) (block : Bool) :
    Result (.wait child block) :=
  let children := m.processes.toList.filter fun e =>
    e.2.parent == pid && match child with
      | some n => e.1 == n
      | none => true
  let endOf (e : Pid × Process) : Option (Pid × ExitStatus) :=
    match e.2.life with
    | .ended status => some (e.1, status)
    | _ => none
  match children.findSome? endOf with
  | some (n, status) => .replied (.ended n status) (m.forget n)
  | none =>
    if children.isEmpty then .replied .noChild m
    else if !block then .replied .running m
    else match p.told with
      | some signal => .replied (.interrupted signal) (m.setProcess pid { p with told := none })
      | none => .blocked m

/-- Makes a process another program: its caught signals are caught no more. -/
def execCall (m : Machine) (pid : Pid) (p : Process) (path : Text) (argv : List Text)
    (env : Environment) : Result (.exec path argv env) :=
  match load m.files p.here path argv env with
  | .error e => .replied e m
  | .ok (comm, program) =>
    .became (m.setProcess pid { p with
      comm, life := .runs program, caught := [], pending := [], told := none
      files := p.files.filter fun f => f.1 < firstSaved })

/-- Lets a process sleep until so many microseconds have passed, or until it is to be told of a
signal. -/
def sleepCall (m : Machine) (pid : Pid) (p : Process) (time : Nat) : Result (.sleep time) :=
  match p.wake with
  | none => .blocked (m.setProcess pid { p with wake := some (m.clock + time) })
  | some wake =>
    if wake ≤ m.clock || p.told.isSome then .replied () (m.setProcess pid { p with wake := none })
    else .blocked m

def statOf (m : Machine) (here : Nat) (path : Text) (follow : Bool) : Except IoError Stat := do
  let node ← m.files.find here follow (Text.toBytes path)
  match m.files.node? node with
  | some n => return ⟨node, .ofContent n.content, m.files.size node, n.mode⟩
  | none => throw .notFound

def Process.setSignal (p : Process) (signal : Signal) (d : Disposition) : Process :=
  let p := { p with
    ignored := p.ignored.filter (· != signal)
    caught := p.caught.filter (· != signal)
    pending := p.pending.filter (· != signal) }
  match d with
  | .default => p
  | .ignore => { p with ignored := signal :: p.ignored }
  | .catch => { p with caught := signal :: p.caught }

/-- A reply and the machine after it. -/
def reply {c : Call} (r : c.Reply × Machine) : Result c := .replied r.1 r.2

/-- Carries out a call of a process. -/
def attempt (m : Machine) (pid : Pid) (p : Process) : (c : Call) → Result c
  | .write n b => m.writeCall pid p n b
  | .read n most => m.readCall p n most
  | .openRead path =>
    let m := m.withTable
    match m.files.find p.here true (Text.toBytes path) with
    | .error e => .replied (.error e) m
    | .ok id =>
      let (n, m) := m.attachNew pid p { channel := .node id }
      .replied (.ok n) m
  | .openWrite path how =>
    match m.files.openToWrite p.here how (Text.toBytes path) with
    | .error e => .replied (.error e) m
    | .ok (id, files) =>
      let (n, m) := attachNew { m with files } pid p
        { channel := .node id, appends := how == .append, writable := true }
      .replied (.ok n) m
  | .close n => .replied () (m.setProcess pid (p.detach n))
  | .copy n other =>
    match p.files.lookup n with
    | some file => .replied (.ok ()) (m.setProcess pid (p.point other file))
    | none => .replied (.error notOpen) m
  | .save n =>
    match p.files.lookup n with
    | some file =>
      -- out of the way of the numbers that a program names itself
      let (free, p) := p.attach firstSaved file
      .replied (.ok free) (m.setProcess pid p)
    | none => .replied (.error notOpen) m
  | .pipe =>
    let pipe := m.nextPipe
    let m := { m with nextPipe := pipe + 1, pipes := m.pipes.insert pipe [] }
    let (outlet, m) := m.openFile { channel := .outlet pipe }
    let (inlet, m) := m.openFile { channel := .inlet pipe, writable := true }
    -- the end that is read gets the lower of the two numbers
    let (r, p) := p.attach 0 outlet
    let (w, p) := p.attach 0 inlet
    .replied (r, w) (m.setProcess pid p)
  | .wait child block => m.waitCall pid p child block
  | .exec path argv env => m.execCall pid p path argv env
  | .kill whom signal =>
    match m.sendAll (m.whomOf pid p.group whom) signal with
    | .ok m => .replied (.ok ()) m
    | .error e => .replied (.error e) m
  | .sleep time => m.sleepCall pid p time
  | .stat path follow =>
    let m := m.withTable
    .replied (m.statOf p.here path follow) m
  | .list path =>
    let m := m.withTable
    .replied ((m.files.list p.here (Text.toBytes path)).map (·.map Text.ofBytes)) m
  | .makeFolder path => reply (Result.ofFiles m (m.files.makeFolder p.here (Text.toBytes path)))
  | .removeFolder path => reply (Result.ofFiles m (m.files.removeFolder p.here (Text.toBytes path)))
  | .remove path => reply (Result.ofFiles m (m.files.remove p.here (Text.toBytes path)))
  | .rename source target =>
    reply (Result.ofFiles m (m.files.rename p.here (Text.toBytes source) (Text.toBytes target)))
  | .link source target =>
    reply (Result.ofFiles m (m.files.link p.here (Text.toBytes source) (Text.toBytes target)))
  | .makeLink target path =>
    reply (Result.ofFiles m (m.files.makeLink p.here (Text.toBytes target) (Text.toBytes path)))
  | .readLink path =>
    match m.files.find p.here false (Text.toBytes path) with
    | .error e => .replied (.error e) m
    | .ok id =>
      match m.files.content? id with
      | some (.link target) => .replied (.ok (Text.ofBytes target)) m
      | _ => .replied (.error .invalid) m
  | .setMode path mode =>
    match m.files.find p.here true (Text.toBytes path) with
    | .error e => .replied (.error e) m
    | .ok id => .replied (.ok ()) { m with files := m.files.setMode id mode }
  | .setFolder path =>
    match m.files.find p.here true (Text.toBytes path) with
    | .error e => .replied (.error e) m
    | .ok id =>
      match m.files.content? id with
      | some (.folder _ _) => .replied (.ok ()) (m.setProcess pid { p with here := id })
      | _ => .replied (.error .notFolder) m
  | .getFolder => .replied (Text.ofBytes (m.files.pathOfFolder p.here)) m
  | .getPid => .replied pid m
  | .getParent => .replied p.parent m
  | .leadGroup => .replied () (m.setProcess pid { p with group := pid })
  | .setSignal signal d => .replied () (m.setProcess pid (p.setSignal signal d))
  | .takeSignals => .replied p.pending (m.setProcess pid { p with pending := [], told := none })
  | .rest => .replied () m

end PatchTrial.Machine
