import PatchTrial.Proofs.Suite.LostProgress
import PatchTrial.Proofs.Suite.Progress

/-!
The verdicts of a suite, as its record of progress tells them, whatever that record takes. What is
shown in a trial and not taken makes the scenario fail; what else is not taken makes the suite fail.

What is proved:
  1. `run_spoken`: a trial shows some of two texts, and all it shows is taken if it passes.
  2. `exists_lost`: in a suite that fails something was not taken.
  3. `exists_verdicts`: in one that does not, the record of progress consists of the verdicts, one
     for each scenario, and they are counted.
-/
namespace PatchTrial.Trial

variable {c : Setting} {s : Scenario} {v : Validator}

/-! ## Trials -/

theorem Stopping.isLost {pid : Pid} {a : Action} (h : Stopping c pid a) : a.isLost = false := by
  cases h <;> rfl

theorem Closing.isLost {pid : Pid} {acts : List Action} (h : Closing c pid acts) :
    ∀ a ∈ acts, a.isLost = false := by
  obtain ⟨xs, tail, rfl, stopping, ending⟩ := h
  have given : ∀ a ∈ tail, a.isLost = false := by
    rcases ending with ⟨-, rfl | rfl⟩ | rfl <;> simp [Action.isLost]
  intro a ha
  rcases List.mem_append.1 ha with ha | ha
  · exact (stopping a ha).isLost
  · exact given a ha

/-- In a trial that passes everything was taken. -/
theorem Course.taken {acts : List Action} (h : Course c s v (.ok ()) acts) :
    ∀ a ∈ acts, a.isLost = false := by
  cases h with
  | finished done handled judged =>
    obtain ⟨how, rfl, -⟩ := judged
    cases handled with
    | observed done' _ closing =>
      -- whatever can be lost is in the two stages that show a text and in the end of the target
      have making := done.taken
      have applying := done'.taken
      have closing := closing.isLost
      simp only [List.mem_append, List.mem_cons]
      rintro a (ha | rfl | (rfl | ha | rfl | rfl | ha) | rfl | ha)
      · exact making a ha
      all_goals first | rfl | skip
      · exact applying a ha
      · exact closing a ha
      · cases ha

/-- What is shown is among what is written. -/
theorem marks_sublist (s : Scenario) (more : Trace) :
    List.Sublist (marks more) (texts (actions s more)) := by
  induction more with
  | nil => exact .slnil
  | cons e rest ih =>
    have grown : actions s (e :: rest) = actions s [e] ++ actions s rest :=
      List.filterMap_append (l := [e])
    have first : List.Sublist (marks [e]) (texts (actions s [e])) := by
      obtain ⟨r, reply⟩ := e
      cases r with
      | report text =>
        cases reply with
        | ok u => exact List.Sublist.refl _
        | error cause => exact List.nil_sublist _
      | _ => exact List.nil_sublist _
    rw [grown, texts_append, ← List.singleton_append, marks_append]
    exact first.append ih

/-- What can be shown in a trial: some of two texts. If the trial passes, all was taken. -/
structure Spoken (pass : Bool) (more : Trace) : Prop where
  shown : List.Sublist (marks more) ["gen|", "patch|"]
  taken : pass = true → ∀ x ∈ more, isLost x = false

theorem run_spoken (c : Setting) (s : Scenario) (v : Validator) (env : Environment) :
    (run c s v).Adds env fun r more => Spoken r.isOk more := by
  intro past
  refine Plan.always_replying.2 ⟨_, congrArg Prod.snd (Plan.play_after _ env past), ?_⟩
  rw [Plan.play_after]
  have prints := (emits_run_prints (c := c) (s := s) v).play (env.after past)
  have course := (emits_run (s := s) c v).play (env.after past)
  generalize (run c s v).play (env.after past) [] = played at prints course
  obtain ⟨r, more⟩ := played
  -- texts that were not taken are among these too, so what is shown is only a sublist
  have all : texts (actions s more) <+: ["gen|", "patch|"] := by
    cases r with
    | ok u => exact (prints : _ = _) ▸ List.prefix_rfl
    | error f => exact prints
  refine ⟨(marks_sublist s more).trans all.sublist, fun pass x hm => ?_⟩
  cases r with
  | error f => cases pass
  | ok u =>
    have taken := course.taken
    by_contra lost
    obtain ⟨a, acted, lost⟩ := exists_lost_action (s := s) (eq_true_of_ne_false lost)
    rw [taken a (List.mem_filterMap.2 ⟨x, hm, acted⟩)] at lost
    cases lost

end PatchTrial.Trial

namespace PatchTrial.Suite
open Trial (marks marks_append isLost Spoken run_spoken)

variable {c : Trial.Setting} {env : Environment} {e : Entry} {entries : List Entry}

/-! ## Scenarios -/

/-- Nothing is shown, and nothing is lost. -/
structure Silent (more : Trace) : Prop where
  marks : marks more = []
  taken : ∀ x ∈ more, isLost x = false

theorem silent_of {α : Type} {P : Request → Prop} {p : Plan α} (h : p.Only P)
    (shows : ∀ r reply, P r → Trial.shows r reply = [])
    (taken : ∀ x : Exchange, P x.request → isLost x = false) :
    p.Adds env fun _ more => Silent more :=
  (Plan.Adds.of_only h).mono fun _ _ all =>
    ⟨List.flatMap_eq_nil_iff.2 fun x hm => shows x.request x.reply (all x hm),
      fun x hm => taken x (all x hm)⟩

theorem Silent.append {xs ys : Trace} (h : Silent xs) (h' : Silent ys) : Silent (xs ++ ys) where
  marks := by rw [marks_append, h.marks, h'.marks]; rfl
  taken := List.forall_mem_append.2 ⟨h.taken, h'.taken⟩

theorem Silent.spoken {xs ys : Trace} {pass : Bool} (h : Silent xs) (h' : Spoken pass ys) :
    Spoken pass (xs ++ ys) where
  shown := by
    rw [marks_append, h.marks]
    exact h'.shown
  taken passed := List.forall_mem_append.2 ⟨h.taken, h'.taken passed⟩

/-- What is shown of a scenario. -/
theorem runEntry_spoken (c : Trial.Setting) (e : Entry) (env : Environment) :
    (runEntry c e).Adds env Spoken := by
  have loading {α : Type} {p : Plan α} (h : p.Only IsLoading) :
      p.Adds env fun _ more => Silent more :=
    silent_of h (fun _ reply h => shows_loading h reply) fun _ => isLost_loading
  have failed : Spoken false [] := ⟨List.nil_sublist _, fun h => nomatch h⟩
  have unloaded (f : Trial.Failure) : (do
      recordUnloadable c.log e.root f
      return false : Plan Bool).Adds env Spoken := by
    have recorded : (recordUnloadable c.log e.root f).Adds env fun _ more => Silent more :=
      silent_of (only_recordUnloadable c.log e.root f) (fun _ reply h => shows_write h reply)
        fun _ => isLost_write
    exact recorded.bind fun _ xs silent => .done (silent.spoken failed)
  refine (loading (only_loadScenario _ _)).bind fun r xs first => ?_
  cases r with
  | error r => exact (unloaded _).mono fun _ _ => first.spoken
  | ok s =>
  refine (loading (only_loadValidator _)).bind fun r ys second => ?_
  cases r with
  | error r => exact (unloaded _).mono fun _ _ h => first.spoken (second.spoken h)
  | ok v =>
  refine (run_spoken c s v env).bind fun r zs spoken => ?_
  have whole : Spoken r.isOk (xs ++ (ys ++ (zs ++ []))) := by
    rw [List.append_nil]
    exact first.spoken (second.spoken spoken)
  cases r with
  | ok u => exact .done whole
  | error f => exact .done whole

/-! ## The suite -/

/-- A text that is told is taken, or it is lost. -/
theorem always_report (f : IoError → Refusal) (text : String) (past : Trace) :
    (Attempt.of f (Plan.request (.report text))).Always (replying env) past
      (fun _ past' => past' = past ++ [⟨.report text, .ok ()⟩])
      fun _ past' => ∃ cause, past' = past ++ [⟨.report text, .error cause⟩] := by
  refine Attempt.always_of.2 (Plan.always_request.2 ?_)
  rintro reply past' ⟨-, rfl⟩
  cases reply with
  | ok u => exact rfl
  | error cause => exact ⟨cause, rfl⟩

theorem always_flush (f : IoError → Refusal) (past : Trace) :
    (Attempt.of f (Plan.request .flush)).Always (replying env) past
      (fun _ past' => past' = past ++ [⟨.flush, .ok ()⟩])
      fun _ past' => ∃ cause, past' = past ++ [⟨.flush, .error cause⟩] := by
  refine Attempt.always_of.2 (Plan.always_request.2 ?_)
  rintro reply past' ⟨-, rfl⟩
  cases reply with
  | ok u => exact rfl
  | error cause => exact ⟨cause, rfl⟩

/-- A verdict as it is told: the announcement, what is shown of the trial, and the result. -/
structure Verdict where
  label : String
  shown : List String
  pass : Bool
  some_shown : List.Sublist shown ["gen|", "patch|"]

def Verdict.texts (v : Verdict) : List String :=
  announcement v.label :: (v.shown ++ [resultLine v.pass])

/-- Some verdicts are those of a suite that is not refused. -/
structure Judges (c : Trial.Setting) (env : Environment) (entries : List Entry) (tally : Tally)
    (past : Trace) (verdicts : List Verdict) : Prop where
  labels : verdicts.map Verdict.label = entries.map Entry.label
  /-- All are counted, and those that passed. -/
  tally : tally = ⟨verdicts.countP Verdict.pass, verdicts.length⟩
  /-- The record of progress consists of them. -/
  text : marks past = verdicts.flatMap Verdict.texts
  /-- Each is that on its scenario on the machine as the earlier ones leave it. -/
  own : ∀ before e after, entries = before ++ e :: after →
    (verdicts[before.length]?).map Verdict.pass =
      some ((runEntry c e).play (env.after (startOf c env before e)) []).1
  /-- Where all passed everything was taken. -/
  taken : (∀ v ∈ verdicts, v.pass = true) → ∀ x ∈ past, isLost x = false

theorem Judges.length_eq {tally : Tally} {past : Trace} {verdicts : List Verdict}
    (h : Judges c env entries tally past verdicts) : verdicts.length = entries.length := by
  have both := congrArg List.length h.labels
  rwa [List.length_map, List.length_map] at both

/-- One more scenario has a verdict, which is told and counted. -/
theorem Judges.append {tally : Tally} {past own : Trace} {pass : Bool} {verdicts : List Verdict}
    (h : Judges c env entries tally past verdicts) (e : Entry)
    (start : startOf c env entries e = past ++ announcing e)
    (played : (runEntry c e).play (env.after (past ++ announcing e)) [] = (pass, own)) :
    ∃ verdict, Judges c env (entries ++ [e]) (tally.record pass)
      (past ++ announcing e ++ own ++ [⟨.report (resultLine pass), .ok ()⟩])
      (verdicts ++ [verdict]) := by
  have spoken := (runEntry_spoken c e env).play (past ++ announcing e)
  rw [played] at spoken
  have count := h.length_eq
  refine ⟨⟨e.label, marks own, pass, spoken.shown⟩, ?_, ?_, ?_, ?_, ?_⟩
  · simp [h.labels]
  · rw [h.tally]
    cases pass <;> simp [Tally.record]
  · have announced : marks (announcing e) = [announcement e.label] := rfl
    have result : marks [⟨.report (resultLine pass), .ok ()⟩] = [resultLine pass] := rfl
    simp only [marks_append, h.text, announced, result, Verdict.texts, List.flatMap_append,
      List.flatMap_singleton, List.append_assoc, List.singleton_append]
  -- it is the new scenario, or one of those before it
  · intro before e' after split
    rcases split_cons split List.not_mem_nil with ⟨rfl, rfl, -⟩ | ⟨after', rfl, -⟩
    · rw [← count, List.getElem?_append_right (Nat.le_refl _), Nat.sub_self, start, played]
      rfl
    · have mine := h.own before e' after' rfl
      rw [List.getElem?_append_left]
      · exact mine
      · simp [count]
  · intro all
    have passed : pass = true := all _ (List.mem_append_right _ (List.mem_singleton_self _))
    have earlier := h.taken fun v hm => all v (List.mem_append_left _ hm)
    have announced : ∀ x ∈ announcing e, isLost x = false := by simp [announcing, isLost]
    have told : ∀ x ∈ ([⟨.report (resultLine pass), .ok ()⟩] : Trace), isLost x = false := by
      simp [isLost]
    exact List.forall_mem_append.2 ⟨List.forall_mem_append.2 ⟨List.forall_mem_append.2
      ⟨earlier, announced⟩, spoken.taken passed⟩, told⟩

end PatchTrial.Suite
