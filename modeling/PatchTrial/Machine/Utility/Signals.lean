import PatchTrial.Machine.Program

/-!
Names of signals.
-/
namespace PatchTrial.Machine.Utility

/-- The names of signals, in the order of their numbers from one on, with their descriptions. -/
def signalTable : List (String × String) :=
  [("HUP", "Hangup"), ("INT", "Interrupt"), ("QUIT", "Quit"), ("ILL", "Illegal instruction"),
    ("TRAP", "Trace/breakpoint trap"), ("ABRT", "Aborted"), ("BUS", "Bus error"),
    ("FPE", "Floating point exception"), ("KILL", "Killed"), ("USR1", "User defined signal 1"),
    ("SEGV", "Segmentation fault"), ("USR2", "User defined signal 2"), ("PIPE", "Broken pipe"),
    ("ALRM", "Alarm clock"), ("TERM", "Terminated"), ("STKFLT", "Stack fault"),
    ("CHLD", "Child exited"), ("CONT", "Continued"), ("STOP", "Stopped (signal)"),
    ("TSTP", "Stopped"), ("TTIN", "Stopped (tty input)"), ("TTOU", "Stopped (tty output)"),
    ("URG", "Urgent I/O condition"), ("XCPU", "CPU time limit exceeded"),
    ("XFSZ", "File size limit exceeded"), ("VTALRM", "Virtual timer expired"),
    ("PROF", "Profiling timer expired"), ("WINCH", "Window changed"), ("IO", "I/O possible"),
    ("PWR", "Power failure"), ("SYS", "Bad system call")]

def signalLimit : Nat := 64

/-- The number of a signal by its name, with or without its first three letters. -/
def signalOfName? (t : Text) : Option Signal :=
  let upper := t.map Char.toUpper
  let bare := match upper with
    | 'S' :: 'I' :: 'G' :: rest => rest
    | _ => upper
  if bare == "EXIT".toList then some 0
  else (signalTable.findIdx? fun e => e.1.toList == bare).map (· + 1)

/-- The number of a signal by its number or its name. -/
def signalOf? (t : Text) : Option Signal :=
  match Text.toNat? t with
  | some n => if n ≤ signalLimit then some n else none
  | none => signalOfName? t

def signalText (s : Signal) : String :=
  match signalTable[s - 1]? with
  | some e => e.2
  | none => "Unknown signal " ++ toString s

/-- What a command line for sending a signal asks for: the signal and the words for whom. -/
def killArgs? : List Text → Option (Signal × List Text)
  | ['-', 's'] :: name :: rest => (signalOf? name).map fun s => (s, dropMark rest)
  | ['-', 'n'] :: name :: rest => (signalOf? name).map fun s => (s, dropMark rest)
  | ['-', '-'] :: rest => some (Signal.terminate, rest)
  | ('-' :: name) :: rest => (signalOf? name).map fun s => (s, dropMark rest)
  | args => some (Signal.terminate, args)
where
  /-- Drops the mark that ends options. -/
  dropMark : List Text → List Text
    | ['-', '-'] :: rest => rest
    | rest => rest

end PatchTrial.Machine.Utility
