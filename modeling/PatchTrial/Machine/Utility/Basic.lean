import PatchTrial.Machine.Utility.Print
import PatchTrial.Machine.Utility.Signals
import PatchTrial.Machine.Utility.Test

/-!
The small programs of a system: each takes words and gives an exit code.
-/
namespace PatchTrial.Machine.Utility

def errorText : IoError → Text
  | .os n => (IoError.osText n).toList
  | .other reason => reason.toList

def complain (name : String) (words : Text) : Task Unit :=
  Task.complain (name.toList ++ ": ".toList ++ words ++ ['\n'])

def inQuotes (t : Text) : Text := '\'' :: t ++ ['\'']

def missingOperand (name : String) : Task Nat := do
  complain name "missing operand".toList
  Task.complain ("Try '" ++ name ++ " --help' for more information.\n").toList
  return 1

/-- Does something with each word; the exit code is one if anything failed. -/
def forEach (act : Text → Task Bool) : List Text → Task Nat
  | [] => return 0
  | t :: rest => do
    let fine ← act t
    let code ← forEach act rest
    return if fine then code else 1

/-- Splits options of single letters from operands. -/
def options : List Text → List Char × List Text
  | ['-', '-'] :: rest => ([], rest)
  | ('-' :: c :: letters) :: rest =>
    if c == '-' then
      let (more, operands) := options rest
      (more, operands)
    else
      let (more, operands) := options rest
      (c :: letters ++ more, operands)
  | rest => ([], rest)

/-- Does something to a file by a call; `what` says what could not be done. -/
def byCall (name what : String) (path : Text) (c : Task (Except IoError Unit)) : Task Bool := do
  match ← c with
  | .ok () => return true
  | .error e =>
    complain name (what.toList ++ [' '] ++ inQuotes path ++ ": ".toList ++ errorText e)
    return false

def copyOut (file : Nat) : Nat → Task (Except IoError Unit)
  | 0 => return .ok ()
  | budget + 1 => do
    match ← Task.call (.read file 65536) with
    | .error e => return .error e
    | .ok [] => return .ok ()
    | .ok bytes =>
      match ← Task.call (.write 1 bytes) with
      | .error e => return .error e
      | .ok () => copyOut file budget

def cat (args : List Text) : Task Nat :=
  let (_, operands) := options args
  forEach (fun path => do
    let opened ← if path == ['-'] then pure (.ok 0) else Task.call (.openRead path)
    match opened with
    | .error e =>
      complain "cat" (path ++ ": ".toList ++ errorText e)
      return false
    | .ok file =>
      let r ← copyOut file Task.manyTimes
      Task.call (.close file)
      match r with
      | .ok () => return true
      | .error e =>
        complain "cat" (path ++ ": ".toList ++ errorText e)
        return false) (if operands.isEmpty then [['-']] else operands)

def touch (args : List Text) : Task Nat := do
  let (letters, operands) := options args
  if operands.isEmpty then
    complain "touch" "missing file operand".toList
    Task.complain "Try 'touch --help' for more information.\n".toList
    return 1
  forEach (fun path => do
    match ← Task.call (.stat path true) with
    | .ok _ => return true
    | .error _ =>
      if letters.contains 'c' then return true
      match ← Task.call (.openWrite path .append) with
      | .ok file =>
        Task.call (.close file)
        return true
      | .error e =>
        complain "touch" ("cannot touch ".toList ++ inQuotes path ++ ": ".toList ++ errorText e)
        return false) operands

def removeTree (force deep : Bool) : Nat → Text → Task Bool
  | 0, _ => return false
  | budget + 1, path => do
    match ← Task.call (.stat path false) with
    | .error e =>
      if force then return true
      complain "rm" ("cannot remove ".toList ++ inQuotes path ++ ": ".toList ++ errorText e)
      return false
    | .ok s =>
      if s.kind == .folder then
        if !deep then
          complain "rm" ("cannot remove ".toList ++ inQuotes path ++ ": Is a directory".toList)
          return false
        match ← Task.call (.list path) with
        | .error _ => return false
        | .ok names =>
          let _ ← forEach (fun n => removeTree force deep budget (path ++ '/' :: n)) names
          byCall "rm" "cannot remove" path (Task.call (.removeFolder path))
      else byCall "rm" "cannot remove" path (Task.call (.remove path))

/-- Removes files, and folders with all they hold if asked to. -/
def rm (args : List Text) : Task Nat := do
  let (letters, operands) := options args
  let force := letters.contains 'f'
  if operands.isEmpty then if force then return 0 else return ← missingOperand "rm"
  forEach (removeTree force (letters.contains 'r' || letters.contains 'R') 64) operands

/-- Makes folders, and those above them if asked to. -/
def mkdir (args : List Text) : Task Nat := do
  let (letters, operands) := options args
  if operands.isEmpty then return ← missingOperand "mkdir"
  forEach (fun path => do
    if letters.contains 'p' then
      let names := Text.splitOn (· == '/') path
      let starts := (List.range names.length).map fun n =>
        ((names.take (n + 1)).intersperse ['/']).flatten
      let _ ← forEach (fun p => do
        let _ ← Task.call (.makeFolder p)
        return true) (starts.filter (!·.isEmpty))
      match ← Task.call (.stat path true) with
      | .ok s =>
        if s.kind == .folder then return true
        complain "mkdir"
          ("cannot create directory ".toList ++ inQuotes path ++ ": File exists".toList)
        return false
      | .error e =>
        complain "mkdir"
          ("cannot create directory ".toList ++ inQuotes path ++ ": ".toList ++ errorText e)
        return false
    else byCall "mkdir" "cannot create directory" path (Task.call (.makeFolder path))) operands

def rmdir (args : List Text) : Task Nat := do
  let (_, operands) := options args
  if operands.isEmpty then return ← missingOperand "rmdir"
  forEach (fun path => byCall "rmdir" "failed to remove" path (Task.call (.removeFolder path)))
    operands

/-- Where a file goes that is moved or copied to a place: into it if it is a folder. -/
def destination (source target : Text) : Task Text := do
  match ← Task.call (.stat target true) with
  | .ok s =>
    return if s.kind == .folder then
      (target.reverse.dropWhile (· == '/')).reverse ++ '/' :: Text.baseName source
    else target
  | .error _ => return target

/-- Does something with each of some files and a place they go to. -/
def toPlace (name : String) (operands : List Text) (act : Text → Text → Task Bool) : Task Nat := do
  match operands.reverse with
  | [] =>
    complain name "missing file operand".toList
    Task.complain ("Try '" ++ name ++ " --help' for more information.\n").toList
    return 1
  | [one] =>
    complain name ("missing destination file operand after ".toList ++ inQuotes one)
    Task.complain ("Try '" ++ name ++ " --help' for more information.\n").toList
    return 1
  | target :: sources =>
    forEach (fun source => do act source (← destination source target)) sources.reverse

def mv (args : List Text) : Task Nat := do
  let (_, operands) := options args
  toPlace "mv" operands fun source target => do
    match ← Task.call (.stat source false) with
    | .error e =>
      complain "mv" ("cannot stat ".toList ++ inQuotes source ++ ": ".toList ++ errorText e)
      return false
    | .ok _ =>
      match ← Task.call (.rename source target) with
      | .ok () => return true
      | .error e =>
        complain "mv" ("cannot move ".toList ++ inQuotes source ++ " to ".toList ++
          inQuotes target ++ ": ".toList ++ errorText e)
        return false

def copyFile (source target : Text) (mode : Nat) : Task Bool := do
  match ← Task.call (.openRead source) with
  | .error e =>
    complain "cp"
      ("cannot open ".toList ++ inQuotes source ++ " for reading: ".toList ++ errorText e)
    return false
  | .ok file =>
    let bytes ← Task.readAll file Task.manyTimes []
    Task.call (.close file)
    let isNew := !(← Task.call (.stat target true)).toBool
    match bytes, ← Task.call (.openWrite target .truncate) with
    | .ok bytes, .ok out =>
      let _ ← if bytes.isEmpty then pure (.ok ()) else Task.call (.write out bytes)
      Task.call (.close out)
      if isNew then
        let _ ← Task.call (.setMode target mode)
      return true
    | _, .error e =>
      complain "cp" ("cannot create regular file ".toList ++ inQuotes target ++ ": ".toList ++
        errorText e)
      return false
    | .error e, _ =>
      complain "cp" ("error reading ".toList ++ inQuotes source ++ ": ".toList ++ errorText e)
      return false

/-- Copies a file, or a folder with all that is in it if asked to. -/
def copyTree (deep : Bool) : Nat → Text → Text → Task Bool
  | 0, _, _ => return false
  | budget + 1, source, target => do
    match ← Task.call (.stat source true) with
    | .error e =>
      complain "cp" ("cannot stat ".toList ++ inQuotes source ++ ": ".toList ++ errorText e)
      return false
    | .ok s =>
      if s.kind == .folder then
        if !deep then
          complain "cp" ("-r not specified; omitting directory ".toList ++ inQuotes source)
          return false
        let _ ← Task.call (.makeFolder target)
        match ← Task.call (.list source) with
        | .error _ => return false
        | .ok names =>
          let code ← forEach (fun n =>
            copyTree deep budget (source ++ '/' :: n) (target ++ '/' :: n)) names
          return code == 0
      else copyFile source target s.mode

def cp (args : List Text) : Task Nat := do
  let (letters, operands) := options args
  let deep := letters.any fun c => "rRa".toList.contains c
  toPlace "cp" operands (copyTree deep 64)

def ln (args : List Text) : Task Nat := do
  let (letters, operands) := options args
  let soft := letters.contains 's'
  let operands := match operands with
    | [one] => [one, ['.']]
    | more => more
  toPlace "ln" operands fun source target => do
    if letters.contains 'f' then
      let _ ← Task.call (.remove target)
    let r ← if soft then Task.call (.makeLink source target) else Task.call (.link source target)
    match r with
    | .ok () => return true
    | .error e =>
      let kind := if soft then "symbolic link " else "hard link "
      complain "ln" ("failed to create ".toList ++ kind.toList ++ inQuotes target ++ ": ".toList ++
        errorText e)
      return false

/-- The permission bits a word asks for, given those that are set. -/
def newMode (word : Text) (old : Nat) : Nat :=
  if word.all fun c => '0' ≤ c && c ≤ '7' then (octal 5 0 word).1
  else
    let who := word.takeWhile fun c => "ugoa".toList.contains c
    let mask := if who.isEmpty || who.contains 'a' then 0o777
      else (if who.contains 'u' then 0o700 else 0) ||| (if who.contains 'g' then 0o070 else 0) |||
        (if who.contains 'o' then 0o007 else 0)
    let rest := word.drop who.length
    let bits := (if rest.contains 'r' then 0o444 else 0) |||
      (if rest.contains 'w' then 0o222 else 0) |||
      (if rest.contains 'x' then 0o111 else 0)
    let bits := bits &&& mask
    match rest.head? with
    | some '+' => old ||| bits
    | some '-' => old - (old &&& bits)
    | some '=' => (old - (old &&& mask)) ||| bits
    | _ => old

def chmod (args : List Text) : Task Nat := do
  let args := args.filter (· != "-R".toList)
  match args with
  | [] => missingOperand "chmod"
  | word :: operands =>
    forEach (fun path => do
      match ← Task.call (.stat path true) with
      | .error e =>
        complain "chmod" ("cannot access ".toList ++ inQuotes path ++ ": ".toList ++ errorText e)
        return false
      | .ok s =>
        byCall "chmod" "changing permissions of" path
          (Task.call (.setMode path (newMode word s.mode)))) operands

/-- How long a word says to sleep, in microseconds. -/
def sleepTime? (t : Text) : Option Nat :=
  let (digits, unit) := match t.reverse with
    | 's' :: rest => (rest.reverse, 1)
    | 'm' :: rest => (rest.reverse, 60)
    | 'h' :: rest => (rest.reverse, 3600)
    | 'd' :: rest => (rest.reverse, 86400)
    | _ => (t, 1)
  let whole := digits.takeWhile (· != '.')
  let part := digits.drop (whole.length + 1)
  if digits == "infinity".toList || digits == "inf".toList then some (Nat.pow 10 15)
  else if (whole.isEmpty && part.isEmpty) || !whole.all Char.isDigit ||
    !part.all Char.isDigit then none
  else
    let seconds := (Text.toNat? whole).getD 0
    let micros := (Text.toNat? ((part ++ List.replicate 6 '0').take 6)).getD 0
    some ((seconds * 1000000 + micros) * unit)

/-- Waits for the sum of the times it is given. -/
def sleep (args : List Text) : Task Nat := do
  if args.isEmpty then return ← missingOperand "sleep"
  match args.find? fun t => (sleepTime? t).isNone with
  | some t =>
    complain "sleep" ("invalid time interval ".toList ++ inQuotes t)
    Task.complain "Try 'sleep --help' for more information.\n".toList
    return 1
  | none =>
    Task.call (.sleep ((args.filterMap sleepTime?).foldl (· + ·) 0))
    return 0

def dirname (args : List Text) : Task Nat := do
  let (_, operands) := options args
  if operands.isEmpty then return ← missingOperand "dirname"
  let _ ← Task.print 1 ((operands.map fun t => Text.folderName t ++ ['\n']).flatten)
  return 0

/-- Writes the last name of a path, without an ending if one is given. -/
def basename (args : List Text) : Task Nat := do
  let (_, operands) := options args
  match operands with
  | [] => missingOperand "basename"
  | path :: more =>
    let name := Text.baseName path
    let name := match more with
      | [suffix] =>
        if suffix.isSuffixOf name && suffix != name then name.take (name.length - suffix.length)
        else name
      | _ => name
    let _ ← Task.print 1 (name ++ ['\n'])
    return 0

/-- Sends a signal to processes. -/
def kill (args : List Text) : Task Nat := do
  match killArgs? args with
  | none =>
    complain "kill" "invalid signal".toList
    return 1
  | some (signal, whom) =>
    if whom.isEmpty then
      complain "kill" "no process ID specified".toList
      return 1
    forEach (fun t => do
      match Text.toInt? t with
      | none =>
        complain "kill" ("failed to parse argument: ".toList ++ inQuotes t)
        return false
      | some n =>
        match ← Task.call (.kill n signal) with
        | .ok () => return true
        | .error e =>
          complain "kill" ("(".toList ++ t ++ ") - ".toList ++ errorText e)
          return false) whom

/-- Whether a condition holds; under the name `[` it must end with `]`. -/
def testCommand (name : String) (args : List Text) : Task Nat := do
  let words? : Option (List Text) :=
    if name == "[" then
      match args.reverse with
      | [']'] :: rest => some rest.reverse
      | _ => none
    else some args
  match words? with
  | none =>
    complain name "missing ']'".toList
    return 2
  | some words =>
    match ← test words with
    | .ok b => return if b then 0 else 1
    | .error e =>
      complain name e
      return 2

/-- Bytes that are left of the files of a list, or of the input. -/
def inputs (name : String) (paths : List Text) : Task (List Bytes × Nat) := do
  match paths with
  | [] =>
    match ← Task.readAll 0 Task.manyTimes [] with
    | .ok b => return ([b], 0)
    | .error _ => return ([], 1)
  | paths => go paths
where
  /-- The bytes of each file that can be read. -/
  go : List Text → Task (List Bytes × Nat)
    | [] => return ([], 0)
    | path :: rest => do
      match ← Task.call (.openRead path) with
      | .error e =>
        let subject := if name == "head" || name == "tail" then
            "cannot open ".toList ++ inQuotes path ++ " for reading".toList
          else path
        complain name (subject ++ ": ".toList ++ errorText e)
        let (more, _) ← go rest
        return (more, 1)
      | .ok file =>
        let r ← Task.readAll file Task.manyTimes []
        Task.call (.close file)
        let (more, code) ← go rest
        match r with
        | .ok b => return (b :: more, code)
        | .error e =>
          complain name (path ++ ": ".toList ++ errorText e)
          return (more, 1)

/-- The lines of a text; the last one need not be ended. -/
def linesOf (t : Text) : List Text :=
  match (Text.splitOn (· == '\n') t).reverse with
  | [] :: rest => rest.reverse
  | rest => rest.reverse

def ofLines (ls : List Text) : Text := (ls.map fun l => l ++ ['\n']).flatten

/-- How much of a text is asked for, and the other words. -/
structure Share where
  count : Nat := 10
  /-- Whether characters are counted, and not lines. -/
  chars : Bool := false
  paths : List Text

def Share.ofWords : List Text → Share
  | ['-', 'n'] :: n :: rest => { count := (Text.toNat? n).getD 10, paths := rest }
  | ['-', 'c'] :: n :: rest => { count := (Text.toNat? n).getD 10, chars := true, paths := rest }
  | ('-' :: 'n' :: n) :: rest => { count := (Text.toNat? n).getD 10, paths := rest }
  | ('-' :: 'c' :: n) :: rest => { count := (Text.toNat? n).getD 10, chars := true, paths := rest }
  | ('-' :: n) :: rest => { count := (Text.toNat? n).getD 10, paths := rest }
  | rest => { paths := rest }

def head (args : List Text) : Task Nat := do
  let s := Share.ofWords args
  let (texts, code) ← inputs "head" s.paths
  let _ ← Task.print 1 ((texts.map fun b =>
    let t := Text.ofBytes b
    if s.chars then t.take s.count else ofLines ((linesOf t).take s.count)).flatten)
  return code

def tail (args : List Text) : Task Nat := do
  let s := Share.ofWords args
  let (texts, code) ← inputs "tail" s.paths
  let _ ← Task.print 1 ((texts.map fun b =>
    let t := Text.ofBytes b
    let ls := linesOf t
    if s.chars then t.drop (t.length - s.count)
    else ofLines (ls.drop (ls.length - s.count))).flatten)
  return code

def wc (args : List Text) : Task Nat := do
  let (letters, paths) := options args
  let (texts, code) ← inputs "wc" paths
  let t := Text.ofBytes texts.flatten
  let lines := (t.filter (· == '\n')).length
  let words := ((Text.splitOn (fun c => " \n\t\r".toList.contains c) t).filter (!·.isEmpty)).length
  let counts := if letters.isEmpty then [lines, words, t.length]
    else (if letters.contains 'l' then [lines] else []) ++
      (if letters.contains 'w' then [words] else []) ++
      (if letters.contains 'c' then [t.length] else [])
  let text := joinWords (counts.map Text.ofNat)
  let _ ← Task.print 1 (text ++ (match paths with
    | [p] => ' ' :: p
    | _ => []) ++ ['\n'])
  return code

def occursIn (t : Text) : Text → Bool
  | [] => t.isEmpty
  | c :: rest => t.isPrefixOf (c :: rest) || occursIn t rest

def grep (args : List Text) : Task Nat := do
  let (letters, operands) := options args
  match operands with
  | [] => return 2
  | pattern :: paths =>
    let (texts, code) ← inputs "grep" paths
    let ls := linesOf (Text.ofBytes texts.flatten)
    let found := ls.filter fun l =>
      let hit :=
        if letters.contains 'x' then l == pattern
        else match pattern with
          | '^' :: rest => rest.isPrefixOf l
          | _ => occursIn pattern l
      if letters.contains 'v' then !hit else hit
    if letters.contains 'c' then
      let _ ← Task.print 1 (Text.ofNat found.length ++ ['\n'])
    else if !letters.contains 'q' then
      let numbered := ls.zipIdx.filterMap fun (l, i) =>
        if found.contains l then some (Text.ofNat (i + 1) ++ ':' :: l) else none
      let _ ← Task.print 1 (ofLines (if letters.contains 'n' then numbered else found))
    return if found.isEmpty then (if code == 0 then 1 else 2) else 0

def seqFrom : Nat → Int → Int → Int → List Text
  | 0, _, _, _ => []
  | budget + 1, a, by_, b =>
    if by_ == 0 || (0 < by_ && b < a) || (by_ < 0 && a < b) then []
    else Text.ofInt a :: seqFrom budget (a + by_) by_ b

def seq (args : List Text) : Task Nat := do
  match args.mapM Text.toInt? with
  | some [b] =>
    let _ ← Task.print 1 (ofLines (seqFrom b.toNat 1 1 b))
    return 0
  | some [a, b] =>
    let _ ← Task.print 1 (ofLines (seqFrom ((b - a).toNat + 1) a 1 b))
    return 0
  | some [a, by_, b] =>
    let _ ← Task.print 1 (ofLines (seqFrom ((b - a).natAbs + 1) a by_ b))
    return 0
  | _ => return 1

def textLe : Text → Text → Bool
  | [], _ => true
  | _ :: _, [] => false
  | a :: as, b :: bs => if a = b then textLe as bs else a < b

def ls (args : List Text) : Task Nat := do
  let (letters, operands) := options args
  let code ← forEach (fun path => do
    match ← Task.call (.stat path true) with
    | .error e =>
      complain "ls" ("cannot access ".toList ++ inQuotes path ++ ": ".toList ++ errorText e)
      return false
    | .ok s =>
      if s.kind == .folder && !letters.contains 'd' then
        match ← Task.call (.list path) with
        | .error _ => return false
        | .ok names =>
          let all := if letters.contains 'a' then ['.'] :: ['.', '.'] :: names else names
          let shown := all.filter fun n =>
            n.head? != some '.' || letters.contains 'a' || letters.contains 'A'
          let _ ← Task.print 1 (ofLines (shown.mergeSort textLe))
          return true
      else
        let _ ← Task.print 1 (path ++ ['\n'])
        return true) (if operands.isEmpty then [['.']] else operands)
  return if code == 0 then 0 else 2

def tee (args : List Text) : Task Nat := do
  let (letters, operands) := options args
  match ← Task.readAll 0 Task.manyTimes [] with
  | .error _ => return 1
  | .ok bytes =>
    let _ ← Task.print 1 (Text.ofBytes bytes)
    forEach (fun path => do
      match ← Task.call (.openWrite path (if letters.contains 'a' then .append else .truncate)) with
      | .error e =>
        complain "tee" (path ++ ": ".toList ++ errorText e)
        return false
      | .ok file =>
        let _ ← Task.print file (Text.ofBytes bytes)
        Task.call (.close file)
        return true) operands

def readlink (args : List Text) : Task Nat := do
  let (_, operands) := options args
  forEach (fun path => do
    match ← Task.call (.readLink path) with
    | .ok t =>
      let _ ← Task.print 1 (t ++ ['\n'])
      return true
    | .error _ => return false) operands

/-- Where programs are looked up if no variable says it. -/
def defaultPath : String := "/bin:/usr/bin"

/-- Where a shell looks programs up if no variable says it. -/
def shellPath : String := "/usr/local/sbin:/usr/local/bin:/usr/sbin:/usr/bin:/sbin:/bin"

/-- The folders in which an environment has programs looked up. -/
def searchFolders (env : Environment) : List Text :=
  Text.splitOn (· == ':') ((env.lookup "PATH".toList).getD defaultPath.toList)

/-- Becomes a program, looked up by its name; the exit code if that fails. -/
def become (argv : List Text) (env : Environment) (failed : IoError → Task Nat) : Task Nat := do
  match argv with
  | [] => return 0
  | name :: _ =>
    if name.contains '/' then failed (← Task.call (.exec name argv env))
    else go name .notFound (searchFolders env)
where
  /-- Tries one folder after another. -/
  go (name : Text) (worst : IoError) : List Text → Task Nat
    | [] => failed worst
    | folder :: rest => do
      let path := if folder.isEmpty then name else folder ++ '/' :: name
      let e ← Task.call (.exec path argv env)
      go name (if e == .denied then e else worst) rest

/-- The exit code of a command that cannot be run. -/
def notRunCode (e : IoError) : Nat := if e == .notFound then 127 else 126

def runCommand (name : String) (argv : List Text) (env : Environment) : Task Nat :=
  become argv env fun e => do
    match argv with
    | [] => return 0
    | first :: _ =>
      complain name (inQuotes first ++ ": ".toList ++ errorText e)
      return notRunCode e

def envCommand (env : Environment) : Nat → List Text → Task Nat
  | 0, _ => return 125
  | budget + 1, args => do
    match args with
    | [] =>
      let _ ← Task.print 1 (ofLines (env.map fun e => e.1 ++ '=' :: e.2))
      return 0
    | ['-', 'i'] :: rest => envCommand [] budget rest
    | ['-', 'u'] :: name :: rest => envCommand (env.filter fun e => e.1 != name) budget rest
    | word :: rest =>
      let name := word.takeWhile (· != '=')
      if name.length < word.length then
        envCommand ((env.filter fun e => e.1 != name) ++ [(name, word.drop (name.length + 1))])
          budget rest
      else runCommand "env" args env

def setsid (env : Environment) (args : List Text) : Task Nat := do
  let (_, operands) := options args
  Task.call .leadGroup
  runCommand "setsid" operands env

/-- Runs a command that does not end when its terminal does. -/
def nohup (env : Environment) (args : List Text) : Task Nat := do
  Task.call (.setSignal Signal.hangUp .ignore)
  runCommand "nohup" args env

def utility? (name : String) (args : List Text) (env : Environment) : Option (Task Nat) :=
  match name with
  | "cat" => some (cat args)
  | "touch" => some (touch args)
  | "rm" => some (rm args)
  | "rmdir" => some (rmdir args)
  | "mkdir" => some (mkdir args)
  | "mv" => some (mv args)
  | "cp" => some (cp args)
  | "ln" => some (ln args)
  | "chmod" => some (chmod args)
  | "sleep" => some (sleep args)
  | "dirname" => some (dirname args)
  | "basename" => some (basename args)
  | "kill" => some (kill args)
  | "test" => some (testCommand "test" args)
  | "[" => some (testCommand "[" args)
  | "head" => some (head args)
  | "tail" => some (tail args)
  | "wc" => some (wc args)
  | "grep" => some (grep args)
  | "seq" => some (seq args)
  | "ls" => some (ls args)
  | "tee" => some (tee args)
  | "readlink" => some (readlink args)
  | "env" => some (envCommand env (args.length + 1) args)
  | "setsid" => some (setsid env args)
  | "nohup" => some (nohup env args)
  | "true" => some (pure 0)
  | "false" => some (pure 1)
  | "echo" => some do
    let _ ← Task.print 1 (echo false args)
    return 0
  | "printf" => some do
    let _ ← Task.print 1 (printf args)
    return 0
  | "pwd" => some do
    let _ ← Task.print 1 ((← Task.call .getFolder) ++ ['\n'])
    return 0
  | _ => none

def utilityNames : List String :=
  ["cat", "touch", "rm", "rmdir", "mkdir", "mv", "cp", "ln", "chmod", "sleep", "dirname",
    "basename", "kill", "test", "[", "head", "tail", "wc", "grep", "seq", "ls", "tee", "readlink",
    "env", "setsid", "nohup", "true", "false", "echo", "printf", "pwd"]

end PatchTrial.Machine.Utility
