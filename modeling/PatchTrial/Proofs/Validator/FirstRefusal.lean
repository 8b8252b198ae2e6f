import PatchTrial.Proofs.Validator.Evidence

/-!
The first line that is refused. A log can be judged up to that line, or to its end and the outcomes
looked at afterwards; the verdict is the same.

What is proved:
  1. `evaluateFrom_append` and `evaluate_of_refused`: accepted lines only move the state on, and
     nothing that comes after the first refused line is looked at.
  2. `reported_diagnostics`: what is said of a refused line names its number and its text, and ends
     with the note about the patch exactly when the patch had shown.
  3. `evaluate_agrees_with_steps`: the verdict told from the outcomes and states of all lines, and
     what becomes of it when lines are appended.
-/
namespace PatchTrial.Validator

/-- From a state on, every line is accepted. -/
def Table.AcceptsFrom (t : Table) (s : State) (lines : List String) : Prop :=
  ∀ p ∈ t.stepsFrom s lines, p.2 = .accepted

instance (t : Table) (s : State) (lines : List String) : Decidable (t.AcceptsFrom s lines) :=
  inferInstanceAs (Decidable (∀ p ∈ t.stepsFrom s lines, p.2 = .accepted))

/-- The line at an index is the first that is not accepted when all lines are judged; with the state
after it and its outcome. -/
structure Table.Refuses (t : Table) (lines : List String) (index : Nat) (line : String) (s : State)
    (o : Outcome) : Prop where
  line : lines[index]? = some line
  step : (t.stepsFrom {} lines)[index]? = some (s, o)
  refused : o ≠ .accepted
  before : ∀ i < index, ∀ p, (t.stepsFrom {} lines)[i]? = some p → p.2 = .accepted

/-- What the diagnostics of a refused line say. -/
structure Reported (number : Nat) (text : String) (o : Outcome) (patched : Bool)
    (diagnostics : List String) : Prop where
  described : diagnostics = o.description number text ++ if patched then [patchedNote] else []
  numbered : ∃ rest, diagnostics.head? = some ("Line " ++ toString number ++ " " ++ rest)
  quoted : "Offending line is: " ++ text ∈ diagnostics
  noted : diagnostics.getLast? = some patchedNote ↔ patched = true

namespace Table
variable (t : Table)

/-! ## Judging all lines -/

theorem acceptsFrom_nil (s : State) : t.AcceptsFrom s [] := fun _ h => nomatch h

theorem acceptsFrom_cons (s : State) (line : String) (rest : List String) :
    t.AcceptsFrom s (line :: rest) ↔
      (t.step s line).2 = .accepted ∧ t.AcceptsFrom (t.step s line).1 rest := List.forall_mem_cons

theorem stepsFrom_append (s : State) (xs ys : List String) :
    t.stepsFrom s (xs ++ ys) = t.stepsFrom s xs ++ t.stepsFrom (t.stateAfter s xs) ys := by
  induction xs generalizing s with
  | nil => rfl
  | cons line rest ih => exact congrArg (_ :: ·) (ih (t.step s line).1)

theorem acceptsFrom_append (s : State) (xs ys : List String) :
    t.AcceptsFrom s (xs ++ ys) ↔ t.AcceptsFrom s xs ∧ t.AcceptsFrom (t.stateAfter s xs) ys := by
  rw [AcceptsFrom, stepsFrom_append]
  exact List.forall_mem_append

theorem length_stepsFrom (s : State) (lines : List String) :
    (t.stepsFrom s lines).length = lines.length := by
  induction lines generalizing s with
  | nil => rfl
  | cons line rest ih => exact congrArg (· + 1) (ih (t.step s line).1)

/-- Each line is judged in the state after the lines before it. -/
theorem getElem?_stepsFrom (s : State) (before : List String) (line : String)
    (after : List String) :
    (t.stepsFrom s (before ++ line :: after))[before.length]? =
      some (t.step (t.stateAfter s before) line) := by
  rw [stepsFrom_append, List.getElem?_append_right (Nat.le_of_eq (t.length_stepsFrom s before)),
    length_stepsFrom, Nat.sub_self]
  rfl

/-! ## Stopping -/

/-- Accepted lines only move the state on. -/
theorem evaluateFrom_append {s : State} {xs : List String} (h : t.AcceptsFrom s xs)
    (ys : List String) :
    t.evaluateFrom s (xs ++ ys) = t.evaluateFrom (t.stateAfter s xs) ys := by
  induction xs generalizing s with
  | nil => rfl
  | cons line rest ih =>
    obtain ⟨accepted, hrest⟩ := (t.acceptsFrom_cons s line rest).1 h
    have next := ih hrest
    rw [List.cons_append, evaluateFrom, stateAfter]
    rcases e : t.step s line with ⟨s', o⟩
    rw [e] at accepted next
    obtain rfl : o = .accepted := accepted
    exact next

/-- A line that is not accepted decides the verdict. -/
theorem evaluateFrom_refused {s : State} {line : String} (h : (t.step s line).2 ≠ .accepted)
    (rest : List String) :
    t.evaluateFrom s (line :: rest) =
      .fail (.line (s.lineNo + 1) line (t.step s line).2 (t.step s line).1.patched) := by
  rw [← t.lineNo_step s line, evaluateFrom]
  rcases e : t.step s line with ⟨s', o⟩
  rw [e] at h
  cases o with
  | accepted => exact absurd rfl h
  | _ => rfl

theorem evaluate_of_accepts {lines : List String} (h : t.Accepts lines) :
    t.evaluate lines = t.finish (t.stateAfter {} lines) := by
  have all := t.evaluateFrom_append h []
  rw [List.append_nil] at all
  exact all

/-- Nothing that comes after the first refused line is looked at. -/
theorem evaluate_of_refused {before : List String} {line : String} (h : t.Accepts before)
    (hl : (t.step (t.stateAfter {} before) line).2 ≠ .accepted) (after : List String) :
    t.evaluate (before ++ line :: after) =
      .fail (.line (before.length + 1) line (t.step (t.stateAfter {} before) line).2
        (t.step (t.stateAfter {} before) line).1.patched) := by
  have number : (t.stateAfter {} before).lineNo = before.length :=
    (t.lineNo_stateAfter {} before).trans (Nat.zero_add _)
  rw [evaluate, t.evaluateFrom_append h, t.evaluateFrom_refused hl, number]

/-- If not every line is accepted, there is a first one that is not. -/
theorem exists_refused {s : State} {lines : List String} (h : ¬ t.AcceptsFrom s lines) :
    ∃ before line after, lines = before ++ line :: after ∧ t.AcceptsFrom s before ∧
      (t.step (t.stateAfter s before) line).2 ≠ .accepted := by
  induction lines generalizing s with
  | nil => exact absurd (t.acceptsFrom_nil s) h
  | cons line rest ih =>
    by_cases accepted : (t.step s line).2 = .accepted
    · have hrest : ¬ t.AcceptsFrom (t.step s line).1 rest :=
        fun hr => h ((t.acceptsFrom_cons s line rest).2 ⟨accepted, hr⟩)
      obtain ⟨before, refused, after, rfl, hb, hl⟩ := ih hrest
      exact ⟨line :: before, refused, after, rfl,
        (t.acceptsFrom_cons s line before).2 ⟨accepted, hb⟩, hl⟩
    · exact ⟨[], line, rest, rfl, t.acceptsFrom_nil s, accepted⟩

theorem accepts_of_passed {lines : List String} (h : (t.evaluate lines).passed = true) :
    t.Accepts lines := by
  refine Decidable.byContradiction fun refused => ?_
  obtain ⟨before, line, after, rfl, hb, hl⟩ := t.exists_refused refused
  rw [t.evaluate_of_refused hb hl after] at h
  cases h

theorem finish_passed_iff (s : State) : (t.finish s).passed = true ↔ t.unmet s = [] := by
  rw [finish]
  cases t.unmet s <;> simp [Verdict.passed]

/-- A log passes when every line is accepted and no requirement is left unmet. -/
theorem passed_iff (lines : List String) :
    (t.evaluate lines).passed = true ↔
      t.Accepts lines ∧ t.unmet (t.stateAfter {} lines) = [] := by
  constructor
  · intro h
    have accepted := t.accepts_of_passed h
    rw [t.evaluate_of_accepts accepted, finish_passed_iff] at h
    exact ⟨accepted, h⟩
  · intro h
    rw [t.evaluate_of_accepts h.1, finish_passed_iff]
    exact h.2

/-- After a line that was refused, nothing that is appended matters. -/
theorem evaluate_append_of_refused {lines : List String} (h : ¬ t.Accepts lines)
    (more : List String) : t.evaluate (lines ++ more) = t.evaluate lines := by
  obtain ⟨before, line, after, rfl, hb, hl⟩ := t.exists_refused h
  rw [List.append_assoc, List.cons_append, t.evaluate_of_refused hb hl, t.evaluate_of_refused hb hl]

/-- A log that passes goes on passing while the lines that are appended are accepted. -/
theorem passed_append {lines more : List String} (h : (t.evaluate lines).passed = true)
    (hm : t.AcceptsFrom (t.stateAfter {} lines) more) :
    (t.evaluate (lines ++ more)).passed = true := by
  obtain ⟨accepted, none⟩ := (t.passed_iff lines).1 h
  have all : t.Accepts (lines ++ more) := (t.acceptsFrom_append {} lines more).2 ⟨accepted, hm⟩
  refine (t.passed_iff _).2 ⟨all, (t.unmet_eq_nil_iff _).2 fun r hr => ?_⟩
  -- what the log had shown is still known after more lines
  have before : r.met (t.stateAfter {} lines) = true := (t.unmet_eq_nil_iff _).1 none r hr
  rw [stateAfter_append]
  exact Requirement.met_of_grows (t.grows_stateAfter _ more) before

end Table

/-! ## The first refused line by its index -/

namespace Table.Refuses
variable {t : Table} {lines : List String} {index : Nat} {line : String} {s : State} {o : Outcome}

theorem of_append {before : List String} (h : t.Accepts before)
    (hl : (t.step (t.stateAfter {} before) line).2 ≠ .accepted) (after : List String) :
    t.Refuses (before ++ line :: after) before.length line (t.step (t.stateAfter {} before) line).1
      (t.step (t.stateAfter {} before) line).2 where
  line := by simp
  step := t.getElem?_stepsFrom {} before line after
  refused := hl
  before i hi p hp := by
    rw [stepsFrom_append,
      List.getElem?_append_left (by rw [length_stepsFrom]; exact hi)] at hp
    exact h p (List.mem_of_getElem? hp)

/-- The lines before the first refused one are accepted, and it is refused after them. -/
theorem split (h : t.Refuses lines index line s o) :
    ∃ before after, lines = before ++ line :: after ∧ before.length = index ∧ t.Accepts before ∧
      t.step (t.stateAfter {} before) line = (s, o) := by
  obtain ⟨hi, hl⟩ := List.getElem?_eq_some_iff.1 h.line
  have cut : lines = lines.take index ++ line :: lines.drop (index + 1) := by
    rw [← hl, ← List.drop_eq_getElem_cons hi, List.take_append_drop]
  have length : (lines.take index).length = index := List.length_take_of_le (Nat.le_of_lt hi)
  have judged := t.getElem?_stepsFrom {} (lines.take index) line (lines.drop (index + 1))
  rw [← cut, length, h.step] at judged
  refine ⟨_, _, cut, length, fun p hp => ?_, (Option.some.inj judged).symm⟩
  -- a line before is judged alike whether or not the rest follows
  obtain ⟨i, hp⟩ := List.mem_iff_getElem?.1 hp
  have small : i < (t.stepsFrom {} (lines.take index)).length :=
    (List.getElem?_eq_some_iff.1 hp).1
  refine h.before i (by rwa [length_stepsFrom, length] at small) p ?_
  rw [cut, stepsFrom_append, List.getElem?_append_left small]
  exact hp

/-- The log fails for that line. -/
theorem evaluate_eq (h : t.Refuses lines index line s o) :
    t.evaluate lines = .fail (.line (index + 1) line o s.patched) := by
  obtain ⟨before, after, rfl, rfl, hb, e⟩ := h.split
  have refused : (t.step (t.stateAfter {} before) line).2 ≠ .accepted := by
    rw [e]
    exact h.refused
  rw [t.evaluate_of_refused hb refused after, e]

end Table.Refuses

/-! ## What is said of a refused line -/

theorem ne_of_first {a b : Char} {s t u : String} (ha : s.toList.head? = some a)
    (hb : u.toList.head? = some b) (hne : a ≠ b) : s ++ t ≠ u := by
  intro e
  have first := congrArg (fun w => w.toList.head?) e
  rw [String.toList_append, List.head?_append, ha, hb] at first
  exact hne (Option.some.inj first)

/-- The diagnostics of a line that was refused. -/
theorem reported_diagnostics {o : Outcome} (ho : o ≠ .accepted) (number : Nat) (text : String)
    (patched : Bool) :
    Reported number text o patched (Failure.line number text o patched).diagnostics := by
  have quote : "Offending line is: " ++ text ≠ patchedNote :=
    ne_of_first (a := 'O') (b := 'N') (by decide) (by decide) (by decide)
  have tell (p : String) : "and the pattern (regex) is: " ++ p ≠ patchedNote :=
    ne_of_first (a := 'a') (b := 'N') (by decide) (by decide) (by decide)
  cases o with
  | accepted => exact absurd rfl ho
  | unrecognized =>
    refine ⟨rfl, ⟨"does not start like any expected line", ?_⟩, ?_, ?_⟩
    · simp [Failure.diagnostics, Outcome.description, String.append_assoc]
    · simp [Failure.diagnostics, Outcome.description]
    · cases patched <;> simp [Failure.diagnostics, Outcome.description, quote]
  | mismatch pattern =>
    refine ⟨rfl, ⟨"did not match pattern", ?_⟩, ?_, ?_⟩
    · simp [Failure.diagnostics, Outcome.description, String.append_assoc]
    · simp [Failure.diagnostics, Outcome.description]
    · cases patched <;> simp [Failure.diagnostics, Outcome.description, tell]
  | violation v =>
    have spaced : " did not pass validation: " = " " ++ "did not pass validation: " := rfl
    have said : "Line " ++ toString number ++ " did not pass validation: " ++ v.message =
        "Line " ++ toString number ++ " " ++ ("did not pass validation: " ++ v.message) := by
      rw [spaced, ← String.append_assoc, ← String.append_assoc]
    refine ⟨rfl, ⟨"did not pass validation: " ++ v.message, congrArg some said⟩, ?_, ?_⟩
    · simp [Failure.diagnostics, Outcome.description]
    · cases patched <;> simp [Failure.diagnostics, Outcome.description, quote]

/-! ## The verdict from the outcomes of all lines -/

/-- What stopping at the first refused line has to do with judging all lines. If all are accepted,
the log passes when the last state leaves nothing unmet, and otherwise fails with just that. If not,
it fails for the first line that is refused, whatever lines come after it. A log that passes goes on
passing while the lines that are appended are accepted. -/
theorem evaluate_agrees_with_steps (t : Table) (lines : List String) :
    (t.Accepts lines →
      ((t.evaluate lines).passed = true ↔ t.unmet (t.stateAfter {} lines) = []) ∧
        (t.evaluate lines).diagnostics =
          (t.unmet (t.stateAfter {} lines)).map Requirement.message) ∧
      (¬ t.Accepts lines → ∃ index line s o, t.Refuses lines index line s o) ∧
      (∀ index line s o, t.Refuses lines index line s o →
        (t.evaluate lines).passed = false ∧
          Reported (index + 1) line o s.patched (t.evaluate lines).diagnostics) ∧
      (¬ t.Accepts lines → ∀ more, t.evaluate (lines ++ more) = t.evaluate lines) ∧
      ((t.evaluate lines).passed = true →
        ∀ more, t.AcceptsFrom (t.stateAfter {} lines) more →
          (t.evaluate (lines ++ more)).passed = true) := by
  refine ⟨fun h => ⟨?_, ?_⟩, fun h => ?_, fun index line s o h => ?_,
    fun h => t.evaluate_append_of_refused h, fun h _ hm => t.passed_append h hm⟩
  · rw [t.evaluate_of_accepts h, t.finish_passed_iff]
  · rw [t.evaluate_of_accepts h, Table.finish]
    cases t.unmet (t.stateAfter {} lines) <;> rfl
  · obtain ⟨before, line, after, rfl, hb, hl⟩ := t.exists_refused h
    exact ⟨_, _, _, _, .of_append hb hl after⟩
  · rw [h.evaluate_eq]
    exact ⟨rfl, reported_diagnostics h.refused _ line s.patched⟩

/-- Lines that start with `v` and a blank have a value, which is to change, and may do so once. -/
def changing : Table where
  shapes :=
    [{ start := "v "
       judged? := some
        { pattern := ⟨"^v (.*)$", _, rfl⟩
          checks := [⟨.named "v", .value 1 .changeOnce⟩]
          within := by decide } }]
  requirements := [.changed "v"]
  nodup := by decide

theorem changing_agrees :
    (changing.evaluate ["v 1", "v 2"]).passed = true ∧
      (changing.evaluate (["v 1", "v 2"] ++ ["v 2"])).passed = true ∧
      Reported 3 "v 3" (.violation (.changedAgain "v" "2" "3")) true
        (changing.evaluate ["v 1", "v 2", "v 3"]).diagnostics ∧
      ∀ more, changing.evaluate (["v 1", "v 2", "v 3"] ++ more) =
        changing.evaluate ["v 1", "v 2", "v 3"] := by
  obtain ⟨judged, -, -, -, goesOn⟩ := evaluate_agrees_with_steps changing ["v 1", "v 2"]
  obtain ⟨-, -, told, final, -⟩ := evaluate_agrees_with_steps changing ["v 1", "v 2", "v 3"]
  have accepted : changing.Accepts ["v 1", "v 2"] := by decide +kernel
  have passed : (changing.evaluate ["v 1", "v 2"]).passed = true :=
    (judged accepted).1.2 (by decide +kernel)
  have again : changing.AcceptsFrom (changing.stateAfter {} ["v 1", "v 2"]) ["v 2"] := by
    decide +kernel
  let refused := changing.step (changing.stateAfter {} ["v 1", "v 2"]) "v 3"
  have outcome : refused.2 = .violation (.changedAgain "v" "2" "3") := by decide +kernel
  have patched : refused.1.patched = true := by decide +kernel
  have third : changing.Refuses ["v 1", "v 2", "v 3"] 2 "v 3" refused.1 refused.2 :=
    .of_append accepted (by decide +kernel) []
  have reported := (told 2 "v 3" refused.1 refused.2 third).2
  rw [outcome, patched] at reported
  exact ⟨passed, goesOn passed ["v 2"] again, reported, final (by decide +kernel)⟩

end PatchTrial.Validator
