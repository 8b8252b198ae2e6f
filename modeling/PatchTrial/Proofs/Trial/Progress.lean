import PatchTrial.Proofs.Trial.Care
import PatchTrial.Proofs.Trial.Stages

/-!
What a trial shows of its progress. The patch is made and this is shown, the patch is applied and
this is shown, and nothing else is; so what is shown when a trial fails are the first of these texts.

What is proved:
  1. `emits_prints_bind`: two parts of a trial show what each of them shows.
  2. `emits_run_prints`: a trial that passes shows both texts, and any other the first of them.
-/
namespace PatchTrial.Trial
open Attempt (Ends)

/-- The text an action writes to the record of progress. -/
def Action.text? : Action → Option String
  | reported text _ => some text
  | _ => none

/-- The texts that are written to the record of progress. -/
def texts (acts : List Action) : List String := acts.filterMap Action.text?

/-- Some texts are written one after another: all of them, or those up to a failure. -/
def Prints {ε α : Type} (all : List String) : Except ε α → List Action → Prop :=
  Ends (fun _ acts => texts acts = all) fun _ acts => texts acts <+: all

variable {s : Scenario} {c : Setting}

theorem texts_append (xs ys : List Action) : texts (xs ++ ys) = texts xs ++ texts ys :=
  List.filterMap_append

/-- Whatever becomes of a part of a trial, it may write all. -/
theorem prints_of_texts {ε α : Type} {all : List String} {acts : List Action} (h : texts acts = all)
    (r : Except ε α) : Prints all r acts := by
  cases r with
  | ok a => exact h
  | error e => exact h ▸ List.prefix_rfl

/-- A part of a trial that fails may write nothing. -/
theorem prints_of_silent {ε α : Type} {acts : List Action} (h : texts acts = [])
    (all : List String) (e : ε) : Prints (α := α) all (.error e) acts := by
  show texts acts <+: all
  rw [h]
  exact List.nil_prefix

/-- What is written before a part of a trial is written. -/
theorem Prints.after {ε α : Type} {first rest : List String} {xs ys : List Action} {r : Except ε α}
    (hx : texts xs = first) (h : Prints rest r ys) : Prints (first ++ rest) r (xs ++ ys) := by
  cases r with
  | ok a =>
    have all : texts ys = rest := h
    exact (texts_append xs ys).trans (by rw [hx, all])
  | error e =>
    have some : texts ys <+: rest := h
    show texts (xs ++ ys) <+: first ++ rest
    rw [texts_append, hx]
    exact (List.prefix_append_right_inj first).2 some

theorem Prints.cut {ε α β : Type} {first : List String} {xs : List Action} {e : ε}
    (h : Prints (α := α) first (.error e) xs) (rest : List String) :
    Prints (α := β) (first ++ rest) (.error e) xs :=
  h.trans (List.prefix_append first rest)

/-- Two parts of a trial show what each of them shows. -/
theorem emits_prints_bind {ε α β : Type} {x : Attempt ε α} {f : α → Attempt ε β}
    {first rest : List String} (h : Emits s x.outcome (Prints first))
    (hf : ∀ a, Emits s (f a).outcome (Prints rest)) :
    Emits s (x >>= f).outcome (Prints (first ++ rest)) :=
  Emits.attempt_bind h (fun a _ hx => (hf a).mono fun _ _ h => h.after hx) fun _ _ h => h.cut rest

theorem emits_prints_progress (text : String) : Emits s (progress text).outcome (Prints [text]) := by
  refine Emits.attempt_bind (Q := fun _ acts => texts acts = [text]) ?_ ?_ ?_
  · exact Emits.attempt_of (Emits.request fun how => rfl)
  · intro u xs h
    refine Emits.attempt_of (Emits.request fun how => ?_)
    have flushed : texts [.flushed how] = [] := rfl
    have both : texts (xs ++ [.flushed how]) = [text] := by rw [texts_append, h, flushed]; rfl
    exact prints_of_texts both _
  · exact fun e xs h => prints_of_texts h _

theorem texts_toolRan {argv : List String} {r : Except Failure ExitStatus} {acts : List Action}
    (h : ToolRan argv r acts) : texts acts = [] := by
  cases r with
  | ok status =>
    obtain ⟨out, err, rfl⟩ := h
    rfl
  | error f =>
    rcases h with rfl | ⟨out, err, how, rfl⟩ <;> rfl

/-- A stage that runs the tool shows one text, if it shows any. -/
theorem emits_prints_toolStage (stage : Stage) (argv : List String) {capture : Capture}
    (text : String) (failed : ExitStatus → Failure)
    (hout : capture.out ≠ s.capturedLog) (herr : capture.err ≠ s.capturedLog) :
    Emits s (do
        let status ← runTool stage argv capture c.log
        if !status.succeeded then throw (failed status)
        progress text : Step Unit).outcome (Prints [text]) := by
  refine Emits.attempt_bind (emits_runTool stage argv c.log hout herr) ?_ ?_
  · intro status xs ran
    have silent := texts_toolRan ran
    dsimp only
    split
    · refine Emits.attempt_throw (prints_of_silent ?_ _ _)
      rw [List.append_nil, silent]
    · exact (emits_prints_progress text).mono fun _ _ h => h.after silent
  · exact fun f xs ran => prints_of_silent (texts_toolRan ran) _ f

theorem texts_launched {ε : Type} {argv : List String} {terminator : Terminator}
    {r : Except ε Target} {acts : List Action} (h : Launched argv terminator r acts) :
    texts acts = [] := by
  cases r with
  | ok t =>
    obtain ⟨rfl, -⟩ := h
    rfl
  | error f =>
    rcases h with rfl | ⟨e, rfl⟩ <;> rfl

theorem texts_stopping {pid : Pid} {acts : List Action} (h : AllStopping c pid acts) :
    texts acts = [] := by
  refine List.filterMap_eq_nil_iff.2 fun a ha => ?_
  cases h a ha <;> rfl

theorem texts_closing {pid : Pid} {acts : List Action} (h : Closing c pid acts) :
    texts acts = [] := by
  obtain ⟨xs, tail, rfl, stopping, ending⟩ := h
  rw [texts_append, texts_stopping stopping]
  rcases ending with ⟨-, rfl | rfl⟩ | rfl <;> rfl

theorem texts_left {t t' : Target} {acts : List Action} (h : Left c t t' acts) :
    texts acts = [] := by
  rcases h with ⟨-, closed⟩ | ⟨-, -, -, tried⟩
  · exact texts_closing closed
  · exact texts_stopping tried

/-- Giving up a target shows nothing. -/
theorem emits_dispose_silent (t : Target) : Emits s t.dispose fun _ acts => texts acts = [] := by
  intro past
  refine ((only_dispose t).always (I := fun past' => ∃ acts, past' = past ++ acts ∧ texts acts = [])
    ?_ ⟨[], (List.append_nil past).symm, rfl⟩)
  rintro past₁ r reply past₂ gives step ⟨acts, rfl, silent⟩
  refine ⟨acts ++ (actionOf? s r reply).toList, ?_, ?_⟩
  · rw [← List.append_assoc]
    exact step
  · rw [texts_append, silent]
    cases gives with
    | tends tends =>
      cases tends with
      | lookup look =>
        cases look with
        | list => rfl
        | read => rw [actionOf?, if_neg (linePath_ne_capturedLog _ _)]; rfl
      | _ => rfl
    | _ => rfl

theorem emits_prints_attend {t : Target} (ht : t.terminator = terminatorOf c.harness s)
    (hf : t.finished = none) (hs : t.stopped = false) :
    EmitsOn s t (attend c s) fun r _ acts => Prints ["patch|"] r acts := by
  refine EmitsOn.bind (Q := fun r t' acts => r = .ok t ∧ t' = t ∧ acts = [])
    (Emits.done ⟨rfl, rfl, rfl⟩) ?_ fun e t' xs h => (by cases h.1)
  rintro t₀ t₁ xs ⟨e, rfl, rfl⟩
  obtain rfl : t₀ = t₁ := Except.ok.inj e
  refine EmitsOn.bind (EmitsOn.step (emits_findProgram c t₀)) ?_ ?_
  · rintro program t₁ xs ⟨rfl, rfl⟩
    have applied : Emits s (apply c s program).outcome (Prints ["patch|"]) :=
      emits_prints_toolStage .apply _ "patch|" _ applyOut_ne_capturedLog applyErrors_ne_capturedLog
    refine EmitsOn.bind (EmitsOn.step applied) ?_ fun f t₂ ys h => h.2.after rfl
    rintro u t₂ ys ⟨rfl, shown⟩
    refine EmitsOn.bind (emits_observe (c := c) program hf) ?_ ?_
    -- to observe and to stop the target shows nothing
    · rintro u' t₃ zs ⟨⟨how, rfl, -⟩, sameStop, -, sameTerminator⟩
      refine (emits_stop (c := c) program (sameTerminator.trans ht) (sameStop.trans hs)).mono ?_
      rintro ⟨r, t₄⟩ us left
      have quiet := texts_left left
      have all : texts ys = ["patch|"] := shown
      have whole : texts ([.rested s.settleMs] ++ (ys ++ ([.rested s.observeMs, .polled t₂.pid how] ++
          us))) = ["patch|"] := by
        simp only [texts_append, all, quiet]
        rfl
      exact prints_of_texts whole r
    · rintro f t₃ zs ⟨⟨how, rfl, -⟩, -⟩
      have all : texts ys = ["patch|"] := shown
      have whole : texts ([.rested s.settleMs] ++ (ys ++ [.rested s.observeMs, .polled t₂.pid how])) =
          ["patch|"] := by
        simp only [texts_append, all]
        rfl
      exact prints_of_texts whole _
  · rintro f t₁ xs ⟨rfl, rfl⟩
    exact prints_of_silent rfl _ f

/-- What a trial shows is how far it came. -/
theorem emits_run_prints (v : Validator) :
    Emits s (run c s v) (Prints ["gen|", "patch|"]) := by
  have attempted : Emits s (attempt c s v).outcome (Prints ["gen|", "patch|"]) := by
    refine (quiet_log (quiet_lines c.log _)).attempt_before (fun _ => ?_)
      fun f => prints_of_silent rfl _ f
    have made : Emits s (generate c s).outcome (Prints ["gen|"]) :=
      emits_prints_toolStage .generate _ "gen|" _ generateOut_ne_capturedLog
        generateErrors_ne_capturedLog
    refine emits_prints_bind made fun u => ?_
    refine Emits.attempt_bind (emits_launch c) ?_
      fun f xs h => prints_of_silent (texts_launched h) _ f
    -- from here on nothing is shown but what the patch tool is run for
    intro t starting h
    obtain ⟨-, ht, hf, hs⟩ := id h
    refine Emits.lift_bind (emits_prints_attend ht hf hs) ?_
    rintro ⟨r, t'⟩ handling shown
    refine Emits.lift_bind (emits_dispose_silent t') fun u' closing closed => ?_
    have quiet : texts starting = [] := texts_launched h
    cases r with
    | error f =>
      refine Emits.attempt_throw ?_
      have some : texts handling <+: ["patch|"] := shown
      show texts (starting ++ (handling ++ (closing ++ []))) <+: _
      simpa only [texts_append, quiet, closed, List.append_nil, List.nil_append] using some
    | ok u' =>
      have all : texts handling = ["patch|"] := shown
      refine (emits_judge c v).mono fun r judging judged => ?_
      have read : texts judging = [] := by
        cases r with
        | ok u =>
          obtain ⟨how, rfl, -⟩ := judged
          rfl
        | error f => rcases judged with rfl | ⟨how, rfl, -⟩ <;> rfl
      have whole : texts (starting ++ (handling ++ (closing ++ judging))) = ["patch|"] := by
        simp only [texts_append, quiet, all, closed, read, List.nil_append, List.append_nil]
      exact prints_of_texts whole r
  refine attempted.bind fun r xs h => ?_
  cases r with
  | ok u => exact Emits.done (by rw [List.append_nil]; exact h)
  | error f =>
    refine (quiet_recordFailure c.log f).before fun _ => Emits.done ?_
    rw [List.append_nil]
    exact h

end PatchTrial.Trial
