import PatchTrial.Machine.Shell.State

/-!
Carrying out commands. Everything goes by a budget that is larger than any program of a trial needs.
-/
namespace PatchTrial.Machine.Shell

open Sh

/-- Commands that end the shell when they are misused. -/
def specialBuiltins : List String :=
  [":", ".", "break", "continue", "eval", "exec", "exit", "export", "readonly", "return", "set",
    "shift", "times", "trap", "unset"]

def builtins : List String :=
  specialBuiltins ++
    ["true", "false", "echo", "printf", "test", "[", "cd", "pwd", "read", "wait", "kill", "umask",
      "command", "type", "local", "alias", "unalias", "hash"]

/-- Reads one line from the input: its characters with whether a backslash stood before them, and
whether it was ended. -/
def readLine (raw : Bool) : Nat → Glob → Sh (Glob × Bool)
  | 0, g => return (g.reverse, false)
  | budget + 1, g => do
    match ← sys (.read 0 1) with
    | .ok (b :: _) =>
      let c := Char.ofNat b.toNat
      if c == '\n' then return (g.reverse, true)
      else if c == '\\' && !raw then
        match ← sys (.read 0 1) with
        | .ok (d :: _) =>
          let d := Char.ofNat d.toNat
          if d == '\n' then readLine raw budget g else readLine raw budget ((d, true) :: g)
        | _ => return (g.reverse, false)
      else readLine raw budget ((c, false) :: g)
    | _ => return (g.reverse, false)

def trimEnd (ifs : Text) (g : Glob) : Glob :=
  (g.reverse.dropWhile fun c => !c.2 && Piece.isIfsSpace ifs c.1).reverse

/-- Gives variables the fields of a line, the last one all that is left. -/
def assignFields (ifs : Text) : List Text → Glob → Sh Unit
  | [], _ => return ()
  | [name], g => do
    let rest := g.dropWhile fun c => !c.2 && Piece.isIfsSpace ifs c.1
    assign name ((trimEnd ifs rest).map Prod.fst)
  | name :: names, g => do
    let rest := g.dropWhile fun c => !c.2 && Piece.isIfsSpace ifs c.1
    let field := rest.takeWhile fun c => c.2 || !ifs.contains c.1
    let after := rest.drop field.length
    let after := match after with
      | c :: more =>
        if Piece.isIfsSpace ifs c.1 then
          let more := more.dropWhile fun c => !c.2 && Piece.isIfsSpace ifs c.1
          match more with
          | d :: further =>
            if !d.2 && ifs.contains d.1 && !Piece.isIfsSpace ifs d.1 then further else more
          | [] => more
        else more
      | [] => []
    assign name (field.map Prod.fst)
    assignFields ifs names after

def ifsOf (s : State) : Text := (s.value? "IFS".toList).getD " \t\n".toList

def changeFolder (args : List Text) : Sh Nat := do
  let s ← get
  let target := match args with
    | ['-', '-'] :: t :: _ => some t
    | ['-'] :: _ => s.value? "OLDPWD".toList
    | t :: _ => some t
    | [] => s.value? "HOME".toList
  match target with
  | none => return 0
  | some t =>
    match ← sys (.setFolder t) with
    | .ok () =>
      let now ← sys .getFolder
      assign "OLDPWD".toList ((s.value? "PWD".toList).getD [])
      assign "PWD".toList now
      return 0
    | .error _ =>
      complain ("cd: can't cd to ".toList ++ t)
      return 2

def sendSignals (args : List Text) : Sh Nat := do
  if let ['-', 'l'] :: [n] := args then
    if let some e := (Text.toNat? n).bind fun n => Utility.signalTable[n - 1]? then
      let _ ← task (Task.print 1 (e.1.toList ++ ['\n']))
      return 0
  match Utility.killArgs? args with
  | none =>
    complain ("kill: Illegal option ".toList ++ (args.head?.getD []).take 2)
    return 2
  | some (signal, whom) =>
    if whom.isEmpty then
      complain ("kill: Usage: kill [-s sigspec | -signum | -sigspec] [pid | job]... or\n" ++
        "kill -l [exitstatus]").toList
      return 2
    go signal whom
where
  /-- Sends a signal to one after another. -/
  go (signal : Signal) : List Text → Sh Nat
    | [] => return 0
    | t :: rest => do
      let s ← get
      let target : Option Int := match t with
        | '%' :: n => ((Text.toNat? n).bind fun n => s.jobs.reverse[n - 1]?).map fun p => (p : Int)
        | t => Text.toInt? t
      match target with
      | none =>
        complain ("kill: Illegal number: ".toList ++ t)
        return 2
      | some n =>
        match ← sys (.kill n signal) with
        | .ok () => go signal rest
        | .error e =>
          complain ("kill: ".toList ++ Utility.errorText e ++ ['\n'])
          let _ ← go signal rest
          return 1

def setTraps (args : List Text) : Sh Nat := do
  let args := match args with
    | ['-', '-'] :: rest => rest
    | rest => rest
  match args with
  | [] =>
    let s ← get
    for t in s.traps do
      let name := if t.1 == 0 then "EXIT".toList
        else match Utility.signalTable[t.1 - 1]? with
          | some e => e.1.toList
          | none => Text.ofNat t.1
      let _ ← task (Task.print 1 ("trap -- '".toList ++ t.2 ++ "' ".toList ++ name ++ ['\n']))
    return 0
  | [one] => each none [one]
  | action :: names =>
    if (Text.toNat? action).isSome then each none (action :: names)
    else each (if action == ['-'] then none else some action) names
where
  /-- Sets what is done about each of some signals. -/
  each (action : Option Text) : List Text → Sh Nat
    | [] => return 0
    | name :: rest => do
      match Utility.signalOf? name with
      | none =>
        task (Task.complain ("trap: ".toList ++ name ++ ": bad trap\n".toList))
        return 1
      | some signal =>
        modify fun s => { s with traps := s.traps.filter fun t => t.1 != signal }
        match action with
        | none => if signal != 0 then sys (.setSignal signal .default)
        | some action =>
          modify fun s => { s with traps := s.traps ++ [(signal, action)] }
          if signal != 0 then
            sys (.setSignal signal (if action.isEmpty then .ignore else .catch))
        each action rest

/-- Reads options and parameters of the shell itself. -/
def setOptions : List Text → Sh Nat
  | [] => return 0
  | ['-', '-'] :: rest => do
    modify fun s => { s with args := rest }
    return 0
  | ('-' :: letters) :: rest => do
    modify fun s => { s with
      exitOnError := s.exitOnError || letters.contains 'e'
      failUnset := s.failUnset || letters.contains 'u' }
    if letters == ['o'] then setOptions (rest.drop 1) else setOptions rest
  | ('+' :: letters) :: rest => do
    modify fun s => { s with
      exitOnError := s.exitOnError && !letters.contains 'e'
      failUnset := s.failUnset && !letters.contains 'u' }
    if letters == ['o'] then setOptions (rest.drop 1) else setOptions rest
  | rest => do
    modify fun s => { s with args := rest }
    return 0
termination_by args => args.length

def exportAll : List Text → Sh Nat
  | [] => return 0
  | word :: rest => do
    if word == "-p".toList then exportAll rest
    else
      let name := word.takeWhile (· != '=')
      if !isName name then die (word ++ ": bad variable name".toList)
      if name.length < word.length then assign name (word.drop (name.length + 1))
      modify fun s => { s with
        bindings := if s.bindings.any fun e => e.1 == name then
            s.bindings.map fun e => if e.1 == name then (e.1, { e.2 with exported := true }) else e
          else (name, ⟨[], true⟩) :: s.bindings }
      exportAll rest

/-- Makes variables those of the function that runs. -/
def localAll : List Text → Sh Nat
  | [] => return 0
  | word :: rest => do
    let name := word.takeWhile (· != '=')
    modify fun s => { s with locals := (name, s.bindings.lookup name) :: s.locals }
    if name.length < word.length then assign name (word.drop (name.length + 1))
    localAll rest

/-- Waits for children: for some, or for all. -/
def waitAll (budget : Nat) : List Text → Sh Nat
  | [] => all budget
  | words => one words 0
where
  /-- Waits until no child is left, or a signal comes. -/
  all : Nat → Sh Nat
    | 0 => return 0
    | budget + 1 => do
      match ← sys (.wait none true) with
      | .ended _ _ => all budget
      | .interrupted signal => return 128 + signal
      | _ =>
        modify fun s => { s with jobs := [], ended := [] }
        return 0
  /-- Waits for one child after another. -/
  one : List Text → Nat → Sh Nat
    | [], code => return code
    | t :: rest, _ => do
      let s ← get
      let target := match t with
        | '%' :: n => (Text.toNat? n).bind fun n => s.jobs.reverse[n - 1]?
        | t => Text.toNat? t
      match target with
      | none => one rest noChildCode
      | some pid =>
        match ← waitFor true pid budget with
        | .ok (some e) => one rest (codeOf e)
        | .ok none => one rest noChildCode
        | .error signal => return 128 + signal

/-- The value of a special parameter or a variable. -/
def parameter? (s : State) (name : Text) : Option Text :=
  match name with
  | ['#'] => some (Text.ofNat s.args.length)
  | ['?'] => some (Text.ofNat s.status)
  | ['$'] => some (Text.ofNat s.self)
  | ['!'] => s.last.map Text.ofNat
  | ['-'] => some (if s.exitOnError then ['e'] else [])
  | ['@'] => if s.args.isEmpty then none else some (Utility.joinWords s.args)
  | ['*'] => if s.args.isEmpty then none else some (Utility.joinWords s.args)
  | _ =>
    match Text.toNat? name with
    | some 0 => some s.name
    | some n => s.args[n - 1]?
    | none => s.value? name

def allParameters (s : State) (star quoted : Bool) : List Piece :=
  if s.args.isEmpty then (if quoted && !star then [.void] else [])
  else if quoted && star then
    let sep := match s.value? "IFS".toList with
      | some (c :: _) => [c]
      | some [] => []
      | none => [' ']
    Piece.ofValue true ((s.args.intersperse sep).flatten)
  else
    ((s.args.map fun a =>
      (if quoted then [Piece.mark] else []) ++ Piece.ofValue quoted a).intersperse
      [Piece.cut]).flatten

mutual

def expand : Nat → Word → Sh (List Piece)
  | 0, _ => return []
  | _ + 1, [] => return []
  | budget + 1, part :: rest => do
    let first ← expandPart budget part
    let more ← expand budget rest
    return first ++ more

def expandPart : Nat → Part → Sh (List Piece)
  | 0, _ => return []
  | _ + 1, .plain t => return Piece.ofLiteral false t
  | _ + 1, .quoted t => return .mark :: Piece.ofLiteral true t
  | budget + 1, .parameter name use w quoted => do
    let s ← get
    -- all parameters at once are expanded to several fields, and are never unset
    let isAll := name == ['@'] || name == ['*']
    let valuePieces (v : Option Text) : List Piece :=
      if isAll then allParameters s (name == ['*']) quoted
      else match v with
        | some t => Piece.ofValue quoted t
        | none => []
    let v := parameter? s name
    let has (empty : Bool) : Bool := match v with
      | some t => !(empty && t.isEmpty)
      | none => false
    let unsetCheck : Sh Unit := do
      if s.failUnset && v.isNone && !isAll then die (name ++ ": parameter not set".toList)
    let given : Sh (List Piece) := do
      let ps ← expand budget w
      return if quoted then ps.map fun p => match p with
          | .char c _ _ => .char c true false
          | p => p
        else ps.map fun p => match p with
          | .char c q _ => .char c q (!q)
          | p => p
    match use with
    | .value => unsetCheck; return valuePieces v
    | .length => unsetCheck; return Piece.ofValue quoted (Text.ofNat (v.getD []).length)
    | .orElse empty => if has empty then return valuePieces v else given
    | .ifSet empty => if has empty then given else return []
    | .orAssign empty =>
      if has empty then return valuePieces v
      else
        let t := Piece.text (← expand budget w)
        assign name t
        return Piece.ofValue quoted t
    | .orFail empty =>
      if has empty then return valuePieces v
      else
        let t := Piece.text (← expand budget w)
        die (name ++ ": ".toList ++
          if w.isEmpty then "parameter not set or null".toList else t)
    | .trimStart longest =>
      unsetCheck
      let g := Piece.glob (← expand budget w)
      return Piece.ofValue quoted (g.trimStart longest (v.getD []))
    | .trimFinish longest =>
      unsetCheck
      let g := Piece.glob (← expand budget w)
      return Piece.ofValue quoted (g.trimFinish longest (v.getD []))
  | budget + 1, .output c quoted => do
    let t ← outputOf budget c
    return Piece.ofValue quoted t
  | budget + 1, .sum e quoted => do
    let t := Piece.text (← expand budget e)
    let s ← get
    let vars := s.bindings.map fun x => (x.1, x.2.value)
    match Sums.evaluate t vars with
    | none =>
      let what :=
        if t.contains '/' || t.contains '%' then "division by zero" else "expecting primary"
      die ("arithmetic expression: ".toList ++ what.toList ++ ": \"".toList ++ t ++ ['"'])
    | some (n, after) =>
      -- a sum may assign; variables that it leaves alone keep their text
      for x in after do
        if vars.lookup x.1 != some x.2 then assign x.1 x.2
      return Piece.ofValue quoted (Text.ofInt n)

/-- What a command writes, without the ends of lines at its end. -/
def outputOf : Nat → Command → Sh Text
  | 0, _ => return []
  | budget + 1, c => do
    let (r, w) ← sys .pipe
    let pid ← Sh.fork (do
      sys (.close r)
      let _ ← sys (.copy w 1)
      sys (.close w)
      eval budget true c) (exitTrap budget)
    sys (.close w)
    let bytes ← task (Task.readAll r Task.manyTimes [])
    sys (.close r)
    setStatus (← awaitForeground pid)
    let t := match bytes with
      | .ok b => Text.ofBytes b
      | .error _ => []
    return ((t.filter fun c => c.toNat != 0).reverse.dropWhile (· == '\n')).reverse

/-- A word with the home folder in front if it asks for it. -/
def expandTilde : Nat → Word → Sh (List Piece)
  | 0, _ => return []
  | budget + 1, w => do
    match w with
    | .plain ('~' :: t) :: rest =>
      let s ← get
      if t.head?.all (· == '/') && (!t.isEmpty || rest.isEmpty) then
        match s.value? "HOME".toList with
        | some home =>
          let more ← expand budget (.plain t :: rest)
          return Piece.ofLiteral true home ++ more
        | none => expand budget w
      else expand budget w
    | w => expand budget w

def fieldsOf : Nat → List Word → Sh (List Text)
  | 0, _ => return []
  | _ + 1, [] => return []
  | budget + 1, w :: rest => do
    let ps ← expandTilde budget w
    let ifs := ifsOf (← get)
    let ws ← (Piece.fields ifs ps).mapM wordsOf
    let more ← fieldsOf budget rest
    return ws.flatten ++ more

def textOf : Nat → Word → Sh Text
  | 0, _ => return []
  | budget + 1, w => do return Piece.text (← expandTilde budget w)

/-- Carries out redirections: what is to be taken back, or a complaint. -/
def redirectAll : Nat → Bool → List Redirection → Sh (Except Text (List (Nat × Option Nat)))
  | 0, _, _ => return .ok []
  | _ + 1, _, [] => return .ok []
  | budget + 1, keep, .mk file d target :: rest => do
    let t ← textOf budget target
    match ← redirect keep file d t with
    | .error words => return .error words
    | .ok saved =>
      match ← redirectAll budget keep rest with
      | .error words =>
        restore saved
        return .error words
      | .ok more => return .ok (more ++ saved)

/-- Does something under redirections. -/
def under : Nat → List Redirection → Bool → Sh Unit → Sh Unit
  | 0, _, _, _ => return ()
  | _ + 1, [], _, body => body
  | budget + 1, rs, fatal, body => do
    match ← redirectAll budget true rs with
    | .error words =>
      complain words
      setStatus 2
      if fatal then throw .quit
    | .ok saved =>
      let r ← (fun s => do
        let (r, s) ← (ExceptT.run body).run s
        return (.ok r, s) : Sh (Except Flow Unit))
      restore saved
      match r with
      | .ok () => return ()
      | .error f => throw f

/-- Carries out the actions of signals that came. -/
def runTraps : Nat → Sh Unit
  | 0 => return ()
  | budget + 1 => do
    let s ← get
    if s.traps.any fun t => t.1 != 0 && !t.2.isEmpty then
      let signals ← sys .takeSignals
      for signal in signals do
        match s.traps.lookup signal with
        | some action =>
          let status := (← get).status
          runText budget action
          setStatus status
        | none => pure ()

/-- Carries out the action of the end of the shell. -/
def exitTrap : Nat → Sh Unit
  | 0 => return ()
  | budget + 1 => do
    let s ← get
    match s.traps.lookup 0 with
    | some action =>
      modify fun s => { s with traps := s.traps.filter fun t => t.1 != 0 }
      runText budget action
      modify fun t => { t with status := s.status }
    | none => return ()

def runText : Nat → Text → Sh Unit
  | 0, _ => return ()
  | budget + 1, t => do
    let (cs, mistake) := program t
    runAll budget false cs mistake

/-- Carries out the commands of a program; `last` says that nothing comes after it. -/
def runAll : Nat → Bool → List Command → Option Mistake → Sh Unit
  | 0, _, _, _ => return ()
  | budget + 1, last, cs, mistake => do
    match cs with
    | [] =>
      match mistake with
      | none => return ()
      | some m =>
        modify fun s => { s with line := m.line }
        die m.words
    | c :: rest =>
      eval budget (last && rest.isEmpty && mistake.isNone) c
      runAll budget last rest mistake

def checkFailure : Nat → Sh Unit
  | _ => do
    let s ← get
    if s.exitOnError && !s.testing && s.status != 0 then throw .quit

def evalTest : Nat → Command → Sh Unit
  | 0, _ => return ()
  | budget + 1, c => do
    let before := (← get).testing
    modify fun s => { s with testing := true }
    eval budget false c
    modify fun s => { s with testing := before }

/-- Carries out a command; `last` says that nothing comes after it. -/
def eval : Nat → Bool → Command → Sh Unit
  | 0, _, _ => throw .quit
  | _ + 1, _, .nothing => return ()
  | budget + 1, last, .simple line assignments words redirections => do
    modify fun s => { s with line }
    simple budget last assignments words redirections
    runTraps budget
    checkFailure budget
  | budget + 1, _, .pipeline cs => do
    let pids ← startPipe budget none cs
    let codes ← pids.mapM awaitForeground
    setStatus (codes.getLast?.getD 0)
    runTraps budget
    checkFailure budget
  | budget + 1, _, .not c => do
    evalTest budget c
    modify fun s => { s with status := if s.status == 0 then 1 else 0 }
  | budget + 1, last, .both a b => do
    evalTest budget a
    if (← get).status == 0 then eval budget last b
  | budget + 1, last, .either a b => do
    evalTest budget a
    if (← get).status != 0 then eval budget last b
  | budget + 1, last, .seq a b => do
    match b with
    | .nothing => eval budget last a
    | b =>
      eval budget false a
      eval budget last b
  | budget + 1, _, .background c => do
    let pid ← Sh.fork (do
      -- without job control, what runs in the background is out of reach of the keyboard
      sys (.setSignal Signal.interrupt .ignore)
      sys (.setSignal 3 .ignore)
      match ← sys (.openRead "/dev/null".toList) with
      | .ok n =>
        let _ ← sys (.copy n 0)
        sys (.close n)
      | .error _ => pure ()
      eval budget true c) (exitTrap budget)
    modify fun s => { s with last := some pid, jobs := pid :: s.jobs, status := 0 }
  | budget + 1, last, .cond test yes no => do
    evalTest budget test
    if (← get).status == 0 then
      setStatus 0
      eval budget last yes
    else
      setStatus 0
      eval budget last no
  | budget + 1, _, .loop test body negated => do
    loop budget test body negated 0
  | budget + 1, _, .each name words body => do
    let fields ← match words with
      | some ws => fieldsOf budget ws
      | none => pure (← get).args
    setStatus 0
    overWords budget name fields body
  | budget + 1, last, .choose word arms => do
    let t ← textOf budget word
    choose budget last t arms
  | budget + 1, last, .subshell c => do
    let s ← get
    -- the last command needs no process of its own, unless a trap is to run after it
    if last && s.traps.all fun t => t.2.isEmpty then eval budget true c
    else
      let pid ← Sh.fork (eval budget true c) (exitTrap budget)
      setStatus (← awaitForeground pid)
      runTraps budget
      checkFailure budget
  | budget + 1, last, .redirected line c rs => do
    modify fun s => { s with line }
    match c with
    | .subshell body => do
      let pid ← Sh.fork (do
        match ← redirectAll budget false rs with
        | .error words =>
          complain words
          setStatus 2
        | .ok _ => eval budget true body) (exitTrap budget)
      setStatus (← awaitForeground pid)
      runTraps budget
      checkFailure budget
    | c => under budget rs false (eval budget last c)
  | _ + 1, _, .define name body => do
    modify fun s => { s with
      functions := (name, body) :: s.functions.filter fun f => f.1 != name, status := 0 }

/-- Starts the commands of a pipe; `source` is where the first one reads from. -/
def startPipe : Nat → Option Nat → List Command → Sh (List Pid)
  | 0, _, _ => return []
  | _ + 1, _, [] => return []
  | budget + 1, source, c :: rest => do
    let out ← if rest.isEmpty then pure none else do pure (some (← sys .pipe))
    let pid ← Sh.fork (do
      match source with
      | some r =>
        let _ ← sys (.copy r 0)
        sys (.close r)
      | none => pure ()
      match out with
      | some (r, w) =>
        sys (.close r)
        let _ ← sys (.copy w 1)
        sys (.close w)
      | none => pure ()
      eval budget true c) (exitTrap budget)
    -- the shell keeps no end open, or a reader would never see the end of its input
    match source with
    | some r => sys (.close r)
    | none => pure ()
    match out with
    | some (r, w) =>
      sys (.close w)
      return pid :: (← startPipe budget (some r) rest)
    | none => return [pid]

def loop : Nat → Command → Command → Bool → Nat → Sh Unit
  | 0, _, _, _, _ => throw .quit
  | budget + 1, test, body, negated, status => do
    sys .rest
    let proceed ← round budget (do
      evalTest budget test
      -- the status of a loop is that of the last body, not that of the test that ended it
      if ((← get).status == 0) == negated then
        setStatus status
        throw (.leave 1)
      eval budget false body)
    if proceed then loop budget test body negated (← get).status

/-- One round of a loop: whether another one may follow. -/
def round : Nat → Sh Unit → Sh Bool
  | _, body => fun before => do
    let (r, s) ← (ExceptT.run body).run { before with looping := true }
    let s := { s with looping := before.looping }
    match r with
    | .ok () => return (.ok true, s)
    | .error (.leave n) => return (if n ≤ 1 then .ok false else .error (.leave (n - 1)), s)
    | .error (.again n) => return (if n ≤ 1 then .ok true else .error (.again (n - 1)), s)
    | .error f => return (.error f, s)

/-- The rounds of a loop over words. -/
def overWords : Nat → Text → List Text → Command → Sh Unit
  | 0, _, _, _ => throw .quit
  | _ + 1, _, [], _ => return ()
  | budget + 1, name, w :: rest, body => do
    sys .rest
    assign name w
    if ← round budget (eval budget false body) then overWords budget name rest body

def choose : Nat → Bool → Text → List (List Word × Command) → Sh Unit
  | 0, _, _, _ => return ()
  | _ + 1, _, _, [] => setStatus 0
  | budget + 1, last, t, (patterns, body) :: rest => do
    if ← anyMatches budget t patterns then
      setStatus 0
      eval budget last body
    else choose budget last t rest

def anyMatches : Nat → Text → List Word → Sh Bool
  | 0, _, _ => return false
  | _ + 1, _, [] => return false
  | budget + 1, t, w :: rest => do
    let g := Piece.glob (← expandTilde budget w)
    if g.matches t then return true else anyMatches budget t rest

/-- Carries out assignments: each variable with its new value. -/
def assignments : Nat → List (Text × Word) → Sh (List (Text × Text))
  | 0, _ => return []
  | _ + 1, [] => return []
  | budget + 1, (name, w) :: rest => do
    let t ← textOf budget w
    return (name, t) :: (← assignments budget rest)

def simple : Nat → Bool → List (Text × Word) → List Word → List Redirection → Sh Unit
  | 0, _, _, _, _ => return ()
  | budget + 1, last, given, words, rs => do
    let before := (← get).status
    setStatus 0
    let fields ← withStatus before (fieldsOf budget words)
    match fields with
    | [] =>
      let values ← assignments budget given
      for v in values do assign v.1 v.2
      under budget rs false (return ())
    | name :: args =>
      let s ← get
      -- a function comes before a command of the shell, and that before a program
      match s.functions.lookup name with
      | some body =>
        let values ← assignments budget given
        for v in values do assign v.1 v.2
        under budget rs false (callFunction budget body args)
      | none =>
        let text := String.ofList name
        if text == "exec" then
          match ← redirectAll budget false rs with
          | .error w => die w
          | .ok _ =>
            let values ← assignments budget given
            for v in values do assign v.1 v.2
            if args.isEmpty then setStatus 0
            else
              for v in values do let _ ← exportAll [v.1]
              become budget "exec: ".toList args
              throw .quit
        else if builtins.contains text then
          let values ← assignments budget given
          let saved := values.map fun v => (v.1, s.bindings.lookup v.1)
          for v in values do assign v.1 v.2
          let special := specialBuiltins.contains text
          setStatus before
          under budget rs special (builtin budget text args)
          -- assignments before a special command stay
          if !special then
            for v in saved do
              modify fun s => { s with
                bindings := match v.2 with
                  | some old => (v.1, old) :: s.bindings.filter fun e => e.1 != v.1
                  | none => s.bindings.filter fun e => e.1 != v.1 }
        else
          let child : Sh Unit := do
            match ← redirectAll budget false rs with
            | .error w =>
              complain w
              setStatus 2
            | .ok _ =>
              let values ← assignments budget given
              for v in values do
                assign v.1 v.2
                let _ ← exportAll [v.1]
              become budget [] fields
          -- the last command takes the place of the shell
          if last && s.traps.all fun t => t.2.isEmpty then
            child
            throw .quit
          else
            let pid ← Sh.fork child (return ())
            setStatus (← awaitForeground pid)

/-- Does something while the status is what it was before. -/
def withStatus {α : Type} : Nat → Sh α → Sh α
  | status, x => do
    setStatus status
    let a ← x
    let now := (← get).status
    if now == status then setStatus 0
    return a

def callFunction : Nat → Command → List Text → Sh Unit
  | 0, _, _ => return ()
  | budget + 1, body, args => do
    let s ← get
    modify fun s => { s with args, locals := [], calling := true, looping := false }
    let r ← (fun s => do
      let (r, s) ← (ExceptT.run (eval budget false body)).run s
      return (.ok r, s) : Sh (Except Flow Unit))
    let after ← get
    for l in after.locals do
      modify fun s => { s with
        bindings := match l.2 with
          | some old => (l.1, old) :: s.bindings.filter fun e => e.1 != l.1
          | none => s.bindings.filter fun e => e.1 != l.1 }
    modify fun t => { t with
      args := s.args, locals := s.locals, calling := s.calling, looping := s.looping }
    match r with
    | .ok () => return ()
    | .error .back => return ()
    | .error f => throw f

/-- Becomes a command; if that fails the status says why, and `label` begins the complaint. -/
def become : Nat → Text → List Text → Sh Unit
  | 0, _, _ => return ()
  | budget + 1, label, argv => do
    match argv with
    | [] => return ()
    | name :: args =>
      let s ← get
      let env := s.environment
      let paths := if name.contains '/' then [name]
        else (Utility.searchFolders env).map fun f => if f.isEmpty then name else f ++ '/' :: name
      let e ← tryPaths budget argv env .notFound paths
      match e with
      | (.notRunnable, path) =>
        match ← sys (.openRead path) with
        | .error e =>
          complain (label ++ name ++ ": ".toList ++ runError e)
          setStatus (Utility.notRunCode e)
        | .ok file =>
          let bytes ← task (Task.readAll file Task.manyTimes [])
          sys (.close file)
          modify fun s => { s with name := path, args, functions := [], line := 1 }
          match bytes with
          | .ok b => runText budget (Text.ofBytes b)
          | .error _ => setStatus 126
      | (e, _) =>
        complain (label ++ name ++ ": ".toList ++ runError e)
        setStatus (if e == .notFound || e == .notFolder then 127 else 126)

/-- Tries to become the program of one path after another: the error that counts, and its path. -/
def tryPaths : Nat → List Text → Environment → IoError → List Text → Sh (IoError × Text)
  | 0, _, _, e, _ => return (e, [])
  | _ + 1, _, _, e, [] => return (e, [])
  | budget + 1, argv, env, worst, path :: rest => do
    let e ← sys (.exec path argv env)
    if e == .notRunnable then return (e, path)
    else tryPaths budget argv env (if e == .notFound || e == .notFolder then worst else e) rest

def builtin : Nat → String → List Text → Sh Unit
  | 0, _, _ => return ()
  | budget + 1, name, args => do
    let status := (← get).status
    let print (t : Text) : Sh Unit := do
      match ← task (Task.print 1 t) with
      | .ok () => setStatus 0
      | .error _ =>
        complain (name.toList ++ ": ".toList ++ name.toList ++ ": I/O error".toList)
        setStatus 1
    match name with
    | ":" => setStatus 0
    | "true" => setStatus 0
    | "false" => setStatus 1
    | "echo" => print (Utility.echo true args)
    | "printf" =>
      if args.isEmpty then
        complain "printf: usage: printf format [arg ...]".toList
        setStatus 2
      else print (Utility.printf args)
    | "test" => condition args
    | "[" =>
      match args.reverse with
      | [']'] :: words => condition words.reverse
      | _ =>
        complain "[: missing ]".toList
        setStatus 2
    | "cd" => setStatus (← changeFolder args)
    | "pwd" => print ((← sys .getFolder) ++ ['\n'])
    | "exit" =>
      match args with
      | [] => setStatus status
      | t :: _ =>
        match Text.toNat? t with
        | some n => setStatus (n % 256)
        | none => die ("exit: Illegal number: ".toList ++ t)
      throw .quit
    | "return" =>
      match args with
      | [] => setStatus status
      | t :: _ =>
        match Text.toNat? t with
        | some n => setStatus (n % 256)
        | none => die ("return: Illegal number: ".toList ++ t)
      throw .back
    | "break" =>
      setStatus 0
      if (← get).looping then throw (.leave ((args.head?.bind Text.toNat?).getD 1))
    | "continue" =>
      setStatus 0
      if (← get).looping then throw (.again ((args.head?.bind Text.toNat?).getD 1))
    | "shift" =>
      let n := (args.head?.bind Text.toNat?).getD 1
      let s ← get
      if s.args.length < n then die "shift: can't shift that many".toList
      else set { s with args := s.args.drop n, status := 0 }
    | "set" => setStatus (← setOptions args)
    | "unset" =>
      for t in args do
        if t == "-f".toList || t == "-v".toList then pure ()
        else if args.head? == some "-f".toList then
          modify fun s => { s with functions := s.functions.filter fun f => f.1 != t }
        else unset t
      setStatus 0
    | "export" => setStatus (← exportAll args)
    | "readonly" =>
      for t in args do
        let n := t.takeWhile (· != '=')
        if n.length < t.length then assign n (t.drop (n.length + 1))
      setStatus 0
    | "local" =>
      if !(← get).calling then die "local: not in a function".toList
      setStatus (← localAll args)
    | "umask" => if args.isEmpty then print "0022\n".toList else setStatus 0
    | "read" =>
      let raw := args.contains "-r".toList
      let names := args.filter fun t => t.head? != some '-'
      let names := if names.isEmpty then ["REPLY".toList] else names
      let (g, ended) ← readLine raw Task.manyTimes []
      assignFields (ifsOf (← get)) names g
      setStatus (if ended then 0 else 1)
    | "wait" => setStatus (← waitAll Task.manyTimes args)
    | "kill" => setStatus (← sendSignals args)
    | "trap" => setStatus (← setTraps args)
    | "eval" =>
      setStatus 0
      runText budget (Utility.joinWords args)
    | "." =>
      match args with
      | [] => setStatus 0
      | path :: _ =>
        match ← sys (.openRead path) with
        | .error e => die (".: cannot open ".toList ++ path ++ ": ".toList ++ openError false e)
        | .ok file =>
          let bytes ← task (Task.readAll file Task.manyTimes [])
          sys (.close file)
          setStatus 0
          match bytes with
          | .ok b => runText budget (Text.ofBytes b)
          | .error _ => setStatus 2
    | "command" =>
      match args with
      | ['-', 'v'] :: words => whereIs budget words
      | ['-', 'V'] :: words => whereIs budget words
      | first :: rest =>
        if builtins.contains (String.ofList first) then builtin budget (String.ofList first) rest
        else
          let pid ← Sh.fork (become budget [] args) (return ())
          setStatus (← awaitForeground pid)
      | [] => setStatus 0
    | "type" => whereIs budget args
    | _ => setStatus 0

def whereIs : Nat → List Text → Sh Unit
  | 0, _ => return ()
  | _ + 1, [] => return ()
  | budget + 1, name :: rest => do
    let s ← get
    if builtins.contains (String.ofList name) || (s.functions.lookup name).isSome then
      let _ ← task (Task.print 1 (name ++ ['\n']))
      setStatus 0
    else
      let paths := if name.contains '/' then [name]
        else (Utility.searchFolders s.environment).map fun f => f ++ '/' :: name
      match ← firstProgram budget paths with
      | some path =>
        let _ ← task (Task.print 1 (path ++ ['\n']))
        setStatus 0
      | none => setStatus 127
    whereIs budget rest

def firstProgram : Nat → List Text → Sh (Option Text)
  | 0, _ => return none
  | _ + 1, [] => return none
  | budget + 1, path :: rest => do
    match ← sys (.stat path true) with
    | .ok st =>
      if st.kind == .regular && st.mode &&& 0o111 != 0 then return some path
      else firstProgram budget rest
    | .error _ => firstProgram budget rest

def condition : List Text → Sh Unit
  | words => do
    match ← task (Utility.test words) with
    | .ok b => setStatus (if b then 0 else 1)
    | .error e =>
      complain ("[: ".toList ++ e)
      setStatus 2

end

end PatchTrial.Machine.Shell
