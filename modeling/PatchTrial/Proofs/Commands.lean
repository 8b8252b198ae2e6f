import PatchTrial.Harness
import PatchTrial.Proofs.Arguments
import PatchTrial.Proofs.Text.Codec
import PatchTrial.Proofs.Text.ShellWords
import PatchTrial.Proofs.Trial.Requests

/-!
Commands in the diagnostic log. A command is recorded as a line between a blank and a line feed. The
words that it holds may have line feeds themselves, and the log goes on behind it with whatever a
program writes; yet its words can be told from the octets of the log.

What is proved:
  1. `records_iff`: what the log takes when a command is recorded, and that it can be recorded.
  2. `words_of_written`: octets that begin with a recorded command begin with no other one.
  3. `resolve_join`: a recorded line is an escalation command of the same words.
  4. `recorded_command_reads_back`: all of it for one command.
-/
namespace PatchTrial.DiagnosticLog
open Trial (taken written)
open ShellWords (join split?_join toList_join line_append_inj)

/-- When a command is recorded and the log accepts all that is written, it takes these octets. -/
def Records (log : DiagnosticLog) (argv : List String) (bytes : Bytes) : Prop :=
  ∃ more, (log.command argv).outcome.Makes (.ok ()) more ∧ taken log more = bytes

variable {log : DiagnosticLog} {argv argv' : List String} {bytes rest rest' : Bytes}

/-! ## What is written -/

theorem makes_put (log : DiagnosticLog) (bytes : Bytes) :
    ∃ more, (log.put bytes).outcome.Makes (.ok ()) more := by
  rw [put]
  split
  · exact ⟨[], .done _⟩
  · exact ⟨[⟨.write log.file bytes, .ok ()⟩], .ask (r := .write log.file bytes) (.ok ()) (.done _)⟩

/-- Lines can be written. -/
theorem makes_lines (log : DiagnosticLog) (texts : List String) :
    ∃ more, (log.lines texts).outcome.Makes (.ok ()) more := by
  induction texts with
  | nil => exact ⟨[], .done _⟩
  | cons text texts ih =>
    obtain ⟨first, puts⟩ := makes_put log (Utf8.encode (text ++ "\n"))
    obtain ⟨others, goes⟩ := ih
    refine ⟨first ++ others, ?_⟩
    rw [lines, Attempt.outcome_bind]
    exact puts.bind goes

theorem records_iff : Records log argv bytes ↔ bytes = written (commandLines argv) := by
  have asks : (log.command argv).outcome.Asks (fun _ _ => True) [] _ :=
    Attempt.asks_outcome.1 (Trial.asks_lines log (fun _ _ _ => trivial) (commandLines argv))
  have took {more : Trace} (makes : (log.command argv).outcome.Makes (.ok ()) more) :
      taken log more = written (commandLines argv) := by
    obtain ⟨_, same, bytes⟩ := makes.of_asks asks
    rwa [List.append_cancel_left same]
  constructor
  · rintro ⟨more, makes, rfl⟩
    exact took makes
  · rintro rfl
    obtain ⟨more, makes⟩ := makes_lines log (commandLines argv)
    exact ⟨more, makes, took makes⟩

/-! ## What is read -/

theorem written_commandLines (argv : List String) :
    written (commandLines argv) =
      Utf8.encode "running:\n" ++ Utf8.encode (" " ++ join argv ++ "\n") := by
  simp [written, commandLines]

/-- A recorded command ends where its words end, whatever the log goes on with. -/
theorem words_of_written
    (h : written (commandLines argv) ++ rest = written (commandLines argv') ++ rest') : argv = argv' := by
  rw [written_commandLines, written_commandLines, List.append_assoc, List.append_assoc] at h
  have read := congrArg Utf8.parts (List.append_cancel_left h)
  rw [Utf8.parts_encode_append, Utf8.parts_encode_append] at read
  have spelled (argv : List String) (rest : List (Option Char)) :
      (" " ++ join argv ++ "\n").toList.map some ++ rest =
        some ' ' :: ((ShellWords.line (argv.map String.toList)).map some ++ some '\n' :: rest) := by
    simp [String.toList_append, toList_join]
  rw [spelled, spelled] at read
  have words := line_append_inj (fun _ _ => Option.some.inj) (List.cons.inj read).2
  exact List.map_injective_iff.2 (fun _ _ => String.toList_inj.1) words

/-! ## Recorded commands as escalation commands -/

/-- A recorded line names the words that it was written from, when it is given as the escalation
command of a run. -/
theorem resolve_join (h : argv ≠ []) (a : Arguments) :
    Harness.resolve { a with escalateWith := join argv } = do
      let patchTool ← Harness.findTool a.patchTool
      return { patchTool, escalateWith := argv, graceMs := a.terminateGraceMs } := by
  obtain ⟨w, more, rfl⟩ := List.exists_cons_of_ne_nil h
  simp only [Harness.resolve, split?_join]

theorem ofWords_escalateWith (text : String) :
    Arguments.ofWords ["--escalate-with=" ++ text] = .ok { escalateWith := text } := by
  obtain ⟨s, known, read⟩ :=
    Arguments.Reading.word_assigned (r := {}) text rfl (show "escalate-with" ∈ _ by decide)
  cases known
  have spelled : "--" ++ "escalate-with" ++ "=" = "--escalate-with=" := by decide
  rw [← spelled, Arguments.ofWords, Arguments.Reading.words, read]
  rfl

/-- The words of a recorded command are read back: from its line as a shell reads it, when the line is
given to a run as its escalation command, and from the octets of the log, whatever follows them. -/
theorem recorded_command_reads_back (argv : List String) (h : argv ≠ []) :
    ShellWords.split? (join argv) = some argv ∧
    (∀ a : Arguments, Harness.resolve { a with escalateWith := join argv } = do
      let patchTool ← Harness.findTool a.patchTool
      return { patchTool, escalateWith := argv, graceMs := a.terminateGraceMs }) ∧
    Arguments.ofWords ["--escalate-with=" ++ join argv] = .ok { escalateWith := join argv } ∧
    (∀ log bytes, Records log argv bytes ↔ bytes = written (commandLines argv)) ∧
    ∀ log log' argv' bytes bytes' rest rest', Records log argv bytes → Records log' argv' bytes' →
      bytes ++ rest = bytes' ++ rest' → argv = argv' ∧ rest = rest' := by
  refine ⟨split?_join argv, resolve_join h, ofWords_escalateWith _, fun _ _ => records_iff, ?_⟩
  intro log log' argv' bytes bytes' rest rest' first second same
  rw [records_iff.1 first, records_iff.1 second] at same
  obtain rfl := words_of_written same
  exact ⟨rfl, List.append_cancel_left same⟩

/-- Words that are empty or hold what a shell does not leave alone. -/
def oddWords : List String := ["", "two words", "it's", "\n#", "$HOME \"é\"", "\\", "plain"]

def oddLine : String := "'' 'two words' 'it'\\''s' '\n#' '$HOME \"é\"' '\\' plain"

def runLog : DiagnosticLog := ⟨.ofString "validator_log", 3⟩

theorem odd_words_read_back :
    oddWords ≠ [] ∧ join oddWords = oddLine ∧ ShellWords.split? oddLine = some oddWords ∧
      Harness.resolve { escalateWith := oddLine } = (do
        let patchTool ← Harness.findTool "./katana"
        return { patchTool, escalateWith := oddWords, graceMs := 1000 }) ∧
      Arguments.ofWords ["--escalate-with=" ++ oddLine] = .ok { escalateWith := oddLine } ∧
      Records runLog oddWords (Utf8.encode ("running:\n " ++ oddLine ++ "\n")) ∧
      ∀ argv, Records runLog argv (Utf8.encode ("running:\n " ++ oddLine ++ "\n")) → oddWords = argv := by
  have some : oddWords ≠ [] := List.cons_ne_nil _ _
  have spelled : join oddWords = oddLine := by decide
  have octets : Utf8.encode ("running:\n " ++ oddLine ++ "\n") = written (commandLines oddWords) := by
    rw [written_commandLines, spelled]
    rfl
  obtain ⟨words, resolved, given, recorded, only⟩ := recorded_command_reads_back oddWords some
  have mine := (recorded runLog _).2 octets
  rw [spelled] at words given
  refine ⟨some, spelled, words, ?_, given, mine, fun argv other => ?_⟩
  · have named := resolved {}
    rw [spelled] at named
    exact named
  · exact (only runLog runLog argv _ _ [] [] mine other rfl).1

end PatchTrial.DiagnosticLog
