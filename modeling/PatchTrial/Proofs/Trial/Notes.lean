import PatchTrial.Proofs.Plan.Adds
import PatchTrial.Proofs.Trial.Requests

/-!
What is entered into the diagnostic log, note by note. A note is what one part of a trial enters: a
title, a heading, a command, a failure. What is copied is a note too, whatever it says, and it was
read from a file that the trial leaves.

What is proved:
  1. `Noted.append`: what two parts of a trial enter, they enter one after another.
  2. `always_enterLines`, `always_writeAll`: a log that takes all takes lines and complaints once.
-/
namespace PatchTrial.Trial

/-! ## Notes -/

/-- What is entered into the diagnostic log at a time. -/
inductive Note
  | title (root : Path)
  | heading (text : String)
  | command (argv : List String)
  /-- How the tool ended. -/
  | ended (stage : Stage) (status : ExitStatus)
  /-- The process under test is not the one that was started. -/
  | wrapped (pid wrapper : Pid)
  /-- The target could not be stopped. -/
  | survivor (pid : Pid) (cause : IoError)
  /-- What was read from a file. -/
  | copy (bytes : Bytes)
  /-- What the validator finds wrong. -/
  | complaint (text : String)
  | failure (f : Failure)

namespace Note

/-- The lines of a note, but for copies and complaints. -/
def lines : Note → List String
  | title root => DiagnosticLog.bannerLines (Trial.title root)
  | heading text => [DiagnosticLog.sectionLine text]
  | command argv => DiagnosticLog.commandLines argv
  | ended stage status => [stage.label ++ " exit status: " ++ status.text]
  | wrapped pid wrapper => [wrappedLine pid wrapper]
  | survivor pid cause => [survivorLine pid cause]
  | failure f => f.record
  | copy _ | complaint _ => []

/-- The bytes that are written for a note, one piece after another. -/
def pieces : Note → List Bytes
  | copy bytes => [bytes]
  | complaint text => [Utf8.encode text, Utf8.encode "\n"]
  | note => note.lines.map fun text => Utf8.encode (text ++ "\n")

/-- The failure that a note records. -/
def failure? : Note → Option Failure
  | failure f => some f
  | _ => none

/-- The complaint that a note records. -/
def complaint? : Note → Option String
  | complaint text => some text
  | _ => none

/-- Whether a note neither begins the block of a scenario nor tells what is wrong. -/
def isPlain : Note → Bool
  | title _ | complaint _ | failure _ => false
  | _ => true

def isCopy : Note → Bool
  | copy _ => true
  | _ => false

/-- The pieces that are written for some notes; one without bytes is not. -/
def written (notes : List Note) : List Bytes := (notes.flatMap pieces).filter fun b => !b.isEmpty

theorem written_append (xs ys : List Note) : written (xs ++ ys) = written xs ++ written ys := by
  rw [written, List.flatMap_append, List.filter_append]
  rfl

end Note

/-! ## What is entered -/

/-- What is entered into a log in an exchange. -/
def enters (log : DiagnosticLog) : (r : Request) → r.Reply → List Bytes
  | .write file bytes, .ok _ => if file = log.file then [bytes] else []
  | _, _ => []

def entered (log : DiagnosticLog) (past : Trace) : List Bytes :=
  past.flatMap fun e => enters log e.request e.reply

theorem entered_append (log : DiagnosticLog) (past more : Trace) :
    entered log (past ++ more) = entered log past ++ entered log more := List.flatMap_append

/-- Whatever is written to a log is taken. -/
def TakesLog (env : Environment) (log : DiagnosticLog) : Prop :=
  ∀ past bytes, env past (.write log.file bytes) = .ok ()

/-- Exactly some notes are entered, and the copies among them were read from the files that a trial
leaves in a folder. -/
structure Noted (log : DiagnosticLog) (root : Path) (since : Trace) (notes : List Note) : Prop where
  entered : entered log since = Note.written notes
  copied : ∀ bytes, .copy bytes ∈ notes →
    ∃ file : Leftover, (⟨.read (root.child file.name), .ok bytes⟩ : Exchange) ∈ since

namespace Noted
variable {log : DiagnosticLog} {root : Path} {xs ys : Trace} {ns ms : List Note}

/-- What two parts enter, they enter one after another. -/
theorem append (h : Noted log root xs ns) (h' : Noted log root ys ms) :
    Noted log root (xs ++ ys) (ns ++ ms) where
  entered := by rw [entered_append, h.entered, h'.entered, Note.written_append]
  copied bytes hm := by
    rcases List.mem_append.1 hm with hm | hm
    · obtain ⟨file, read⟩ := h.copied bytes hm
      exact ⟨file, List.mem_append_left ys read⟩
    · obtain ⟨file, read⟩ := h'.copied bytes hm
      exact ⟨file, List.mem_append_right xs read⟩

theorem quiet (h : Trial.entered log xs = []) : Noted log root xs [] := ⟨h, fun _ hm => nomatch hm⟩

/-- Notes that are not copies. -/
theorem of_entered (h : Trial.entered log xs = Note.written ns)
    (original : ∀ n ∈ ns, n.isCopy = false) : Noted log root xs ns :=
  ⟨h, fun _ hm => nomatch original _ hm⟩

end Noted

/-! ## Writing -/

section Writing
variable {log : DiagnosticLog} {env : Environment} {past : Trace}

/-- Exactly some pieces are entered by what is added to a trace. -/
def Wrote (log : DiagnosticLog) (past past' : Trace) (pieces : List Bytes) : Prop :=
  ∃ more, past' = past ++ more ∧ entered log more = pieces.filter fun b => !b.isEmpty

theorem Wrote.trans {past' past'' : Trace} {xs ys : List Bytes} (h : Wrote log past past' xs)
    (h' : Wrote log past' past'' ys) : Wrote log past past'' (xs ++ ys) := by
  obtain ⟨more, rfl, first⟩ := h
  obtain ⟨more', rfl, rest⟩ := h'
  refine ⟨more ++ more', List.append_assoc past more more', ?_⟩
  rw [entered_append, first, rest, List.filter_append]

theorem Wrote.refl (past : Trace) : Wrote log past past [] := ⟨[], (List.append_nil past).symm, rfl⟩

variable (takes : TakesLog env log)
include takes

theorem always_enter (bytes : Bytes) :
    (log.put bytes).Always (replying env) past (fun _ past' => Wrote log past past' [bytes])
      fun _ _ => False := by
  rw [DiagnosticLog.put]
  split
  · rename_i empty
    refine Attempt.always_pure.2 ⟨[], (List.append_nil past).symm, ?_⟩
    simp [empty, entered]
  · rename_i filled
    refine Attempt.always_of.2 (Plan.always_request.2 ?_)
    rintro reply past' ⟨replied, rfl⟩
    rw [takes] at replied
    obtain rfl := replied
    exact ⟨_, rfl, by simp [entered, enters, filled]⟩

theorem always_enterLines (texts : List String) :
    (log.lines texts).Always (replying env) past
      (fun _ past' => Wrote log past past' (texts.map fun text => Utf8.encode (text ++ "\n")))
      fun _ _ => False := by
  induction texts generalizing past with
  | nil => exact Attempt.always_pure.2 (.refl past)
  | cons text rest ih =>
    refine Attempt.always_bind.2 ((always_enter takes _).mono (fun _ past₁ first => ?_) fun _ _ => id)
    exact ih.mono (fun _ _ others => first.trans others) fun _ _ => id

/-- Every complaint is entered once. -/
theorem always_writeAll (texts : List String) :
    (Validator.writeAll log.put texts).Always (replying env) past
      (fun _ past' => Wrote log past past' ((texts.map Note.complaint).flatMap Note.pieces))
      fun _ _ => False := by
  induction texts generalizing past with
  | nil => exact Attempt.always_pure.2 (.refl past)
  | cons text rest ih =>
    have ended {past₁ : Trace} (first : Wrote log past past₁ [Utf8.encode text]) :
        (do log.put (Utf8.encode "\n")
            Validator.writeAll log.put rest : Attempt IoError Unit).Always (replying env) past₁
          (fun _ past' => Wrote log past past'
            (((text :: rest).map Note.complaint).flatMap Note.pieces)) fun _ _ => False := by
      refine Attempt.always_bind.2 ((always_enter takes _).mono (fun _ past₂ second => ?_)
        fun _ _ => id)
      exact ih.mono (fun _ _ others => (first.trans second).trans others) fun _ _ => id
    rw [Validator.writeAll]
    split
    · exact Attempt.always_bind.2 ((always_enter takes _).mono (fun _ _ first => ended first)
        fun _ _ => id)
    · rename_i empty
      have none : text = "" := by simpa using empty
      refine ended ⟨[], (List.append_nil past).symm, ?_⟩
      rw [none]
      rfl

end Writing

end PatchTrial.Trial
