import PatchTrial.Proofs.Suite.Record
import PatchTrial.Proofs.Suite.Turns
import PatchTrial.Proofs.Trial.Progress

/-!
The record of progress of a suite, its count, and what the scenarios came to.

What is proved:
  1. `announcement_padded`: an announcement is filled up with dots and never cut.
  2. `recordOf_text`: what a scenario writes to the record of progress is one of four texts, and it is
     told to have passed only where the patch was applied.
  3. `tells_append`: one more scenario adds its announcement and its record, and is counted.
  4. `told_by_records`: so the record of progress of a suite is made of those of its scenarios, and a
     scenario depends on the others only by how they leave the machine.
-/
namespace PatchTrial.Suite
open Trial (marks marks_append texts Prints)

/-! ## The record of a scenario -/

/-- How far a scenario came. -/
inductive Reach
  | nothing
  | made
  | applied
  deriving DecidableEq, Repr

/-- What a scenario shows that came so far. -/
def Reach.shown : Reach → List String
  | nothing => []
  | made => ["gen|"]
  | applied => ["gen|", "patch|"]

/-- The record of a scenario: how far it came before it failed, or that it passed. -/
inductive Record
  | failed (reach : Reach)
  | passed
  deriving DecidableEq, Repr

namespace Record

def isPass : Record → Bool
  | failed _ => false
  | passed => true

/-- What stands in the record of progress behind the announcement. -/
def text : Record → String
  | failed reach => String.join reach.shown ++ "FAILED\n"
  | passed => "gen|patch|PASSED\n"

/-- The record of a scenario that showed so many texts. -/
def of (pass : Bool) (shown : Nat) : Record :=
  if pass then passed
  else failed (match shown with
    | 0 => .nothing
    | 1 => .made
    | _ => .applied)

end Record

/-- The record of a scenario that is run in an environment. -/
def recordOf (c : Trial.Setting) (env : Environment) (e : Entry) : Record :=
  .of ((runEntry c e).play env []).1 (marks ((runEntry c e).play env []).2).length

/-- An announcement is filled up with dots and never cut. -/
theorem announcement_padded (label : String) :
    ∃ dots, announcement label =
        "running test " ++ label ++ String.ofList (List.replicate dots '.') ++ "|" ∧
      ("running test " ++ label).length + dots = max 35 ("running test " ++ label).length := by
  refine ⟨35 - ("running test " ++ label).length, rfl, ?_⟩
  omega

theorem TakesProgress.after {env : Environment} (takes : TakesProgress env) (past : Trace) :
    TakesProgress (env.after past) :=
  ⟨fun _ => takes.report _, fun _ => takes.flush _⟩

section Entry
variable {c : Trial.Setting} {env : Environment} {e : Entry}

/-- Whatever a plan writes to the record of progress is shown. -/
theorem marks_play {α : Type} (s : Scenario) (takes : TakesProgress env) (p : Plan α) (past : Trace)
    (h : marks past = texts (Trial.actions s past)) :
    marks (p.play env past).2 = texts (Trial.actions s (p.play env past).2) := by
  induction p generalizing past with
  | done a => exact h
  | ask r next ih =>
    have grown : Trial.actions s (past ++ [⟨r, env past r⟩]) =
        Trial.actions s past ++ Trial.actions s [⟨r, env past r⟩] := List.filterMap_append
    refine ih _ _ ?_
    rw [marks_append, h, grown, Trial.texts_append]
    refine congrArg (texts (Trial.actions s past) ++ ·) ?_
    cases r with
    | report text => rw [takes.report]; rfl
    | read path =>
      show _ = texts (Option.toList (if path = s.capturedLog then _ else none))
      split <;> rfl
    | _ => rfl

theorem marks_only {α : Type} {P : Request → Prop} {p : Plan α} (h : p.Only P)
    (silent : ∀ r reply, P r → Trial.shows r reply = []) :
    p.Adds env fun _ more => marks more = [] := by
  refine (Plan.Adds.of_only h).mono fun _ more all => ?_
  exact List.flatMap_eq_nil_iff.2 fun x hx => silent x.request x.reply (all x hx)

theorem shows_loading {r : Request} (h : IsLoading r) (reply : r.Reply) :
    Trial.shows r reply = [] := by
  cases r <;> first | rfl | exact h.elim

theorem shows_write {r : Request} (h : Trial.IsWrite r) (reply : r.Reply) :
    Trial.shows r reply = [] := by
  cases h
  rfl

/-- How a scenario can show its progress: all of it if it passes, and else the first of it. -/
def Showing (pass : Bool) (more : Trace) : Prop :=
  ∃ reach : Reach, marks more = reach.shown ∧ (pass = true → reach = .applied)

theorem showing_of_prints {r : Except Trial.Failure Unit} {acts : List Trial.Action} {more : Trace}
    (h : Prints ["gen|", "patch|"] r acts) (same : marks more = texts acts) :
    Showing r.isOk more := by
  cases r with
  | ok u => exact ⟨.applied, same.trans h, fun _ => rfl⟩
  | error f =>
    have some : texts acts <+: ["gen|", "patch|"] := h
    rw [← same] at some
    have reaches : ∃ reach : Reach, marks more = reach.shown := by
      simp only [List.prefix_cons_iff, List.prefix_nil] at some
      rcases some with none | ⟨t, one, rfl | ⟨t', rfl, rfl⟩⟩
      · exact ⟨.nothing, none⟩
      · exact ⟨.made, one⟩
      · exact ⟨.applied, one⟩
    obtain ⟨reach, shown⟩ := reaches
    exact ⟨reach, shown, fun h => nomatch h⟩

/-- What a scenario shows, from its own beginning. -/
theorem runEntry_shows (takes : TakesProgress env) :
    (runEntry c e).Adds env Showing := by
  have unloaded (f : Trial.Failure) (xs : Trace) (loaded : marks xs = []) :
      (do recordUnloadable c.log e.root f
          return false : Plan Bool).Adds env fun pass ys => Showing pass (xs ++ ys) := by
    have recorded := only_recordUnloadable c.log e.root f
    refine (marks_only recorded fun _ reply h => shows_write h reply).bind fun u ys silent => ?_
    refine Plan.Adds.done ⟨.nothing, ?_, fun h => nomatch h⟩
    simp only [marks_append, loaded, silent, List.append_nil]
    rfl
  have loading := only_loadScenario e.root e.overrides
  refine (marks_only loading fun _ reply h => shows_loading h reply).bind fun r xs first => ?_
  cases r with
  | error r => exact unloaded _ xs first
  | ok s =>
  have loading := only_loadValidator e.root
  refine (marks_only loading fun _ reply h => shows_loading h reply).bind fun r ys second => ?_
  cases r with
  | error r =>
    refine (unloaded (.badValidator e.root r.message) (xs ++ ys) ?_).mono ?_
    · rw [marks_append, first, second, List.append_nil]
    · exact fun _ _ h => by rwa [List.append_assoc] at h
  | ok v =>
    -- the trial is played as if it were the first thing that is done
    have trial : (Trial.run c s v).Adds env fun r more => Showing r.isOk more := by
      intro past
      refine Plan.always_replying.2 ⟨_, congrArg Prod.snd (Plan.play_after _ env past), ?_⟩
      rw [Plan.play_after]
      have shown := (Trial.emits_run_prints (c := c) (s := s) v).play (env.after past)
      exact showing_of_prints shown (marks_play s (takes.after past) _ [] rfl)
    refine trial.bind fun r zs shown => ?_
    obtain ⟨reach, all, passed⟩ := shown
    have whole : marks (xs ++ (ys ++ (zs ++ []))) = reach.shown := by
      simp only [marks_append, first, second, all, List.nil_append]
      exact List.append_nil _
    cases r with
    | ok u => exact Plan.Adds.done ⟨reach, whole, passed⟩
    | error f => exact Plan.Adds.done ⟨reach, whole, passed⟩

/-- What a scenario writes to the record of progress, with the line that ends it, is the text of its
record. -/
theorem recordOf_text (takes : TakesProgress env) :
    String.join (marks ((runEntry c e).play env []).2) ++ resultLine ((runEntry c e).play env []).1 =
        (recordOf c env e).text ∧
      (recordOf c env e).isPass = ((runEntry c e).play env []).1 := by
  obtain ⟨reach, shown, passed⟩ := (runEntry_shows (c := c) (e := e) takes).play []
  change marks ((runEntry c e).play env []).2 = _ at shown
  change ((runEntry c e).play env []).1 = true → _ at passed
  rw [recordOf, shown]
  cases hp : ((runEntry c e).play env []).1 with
  | true =>
    obtain rfl := passed hp
    decide
  | false => cases reach <;> decide

end Entry

/-! ## The record of a suite -/

section Suite
variable (c : Trial.Setting) (env : Environment)

/-- Some records tell what a run of a suite came to. -/
structure Tells (entries : List Entry) (records : List Record) : Prop where
  each : records.length = entries.length
  /-- All scenarios are counted, and those that passed by their records. -/
  tally : ((run c entries).outcome.play env []).1 =
    .ok ⟨records.countP Record.isPass, entries.length⟩
  /-- An announcement is filled up to a width of 35 and never cut. -/
  padded : ∀ e ∈ entries, ∃ dots, announcement e.label =
      "running test " ++ e.label ++ String.ofList (List.replicate dots '.') ++ "|" ∧
    ("running test " ++ e.label).length + dots = max 35 ("running test " ++ e.label).length
  /-- The record of progress is made of announcements and records, in order. -/
  text : String.join (marks ((run c entries).outcome.play env []).2) =
    String.join (List.zipWith (fun e r => announcement e.label ++ r.text) entries records)
  /-- Each record is that of its scenario on the machine as the earlier ones leave it. -/
  own : ∀ before e after, entries = before ++ e :: after →
    records[before.length]? = some (recordOf c (env.after (startOf c env before e)) e)

variable {c env}

theorem tells_nil : Tells c env [] [] where
  each := rfl
  tally := rfl
  padded _ hm := nomatch hm
  text := rfl
  own before e after h := by
    cases List.append_ne_nil_of_right_ne_nil before (List.cons_ne_nil e after) h.symm

/-- With every scenario the run goes on if the record of progress takes all. -/
theorem run_told (takes : TakesProgress env) {before : List Entry} {tally : Tally} {past : Trace}
    (h : (run c before).outcome.play env [] = (.ok tally, past)) (e : Entry) :
    ∃ pass own, (runEntry c e).play (env.after (past ++ announcing e)) [] = (pass, own) ∧
      (run c (before ++ [e])).outcome.play env [] = (.ok (tally.record pass),
        past ++ announcing e ++ own ++ [⟨.report (resultLine pass), .ok ()⟩]) := by
  have turn := turn_run c env before e
  rw [h] at turn
  generalize hp : (run c (before ++ [e])).outcome.play env [] = reached at turn
  cases turn with
  | unannounced refused => exact absurd takes refused
  | untold refused => exact absurd takes refused
  | told played => exact ⟨_, _, played, rfl⟩

/-- One more scenario adds its announcement and its record, and is counted. -/
theorem tells_append (takes : TakesProgress env) {entries : List Entry} {records : List Record}
    (h : Tells c env entries records) (e : Entry) :
    Tells c env (entries ++ [e])
      (records ++ [recordOf c (env.after (startOf c env entries e)) e]) := by
  have last : (run c entries).outcome.play env [] = (_, _) := Prod.ext h.tally rfl
  obtain ⟨pass, own, played, whole⟩ := run_told takes last e
  obtain ⟨text, isPass⟩ := recordOf_text (c := c) (e := e) (takes.after (startOf c env entries e))
  rw [startOf, played] at text isPass
  refine ⟨by simp [h.each], ?_, fun e _ => announcement_padded e.label, ?_, ?_⟩
  · rw [whole]
    simp only [Tally.record, List.countP_append, List.countP_singleton, startOf, isPass,
      List.length_append]
    cases pass <;> rfl
  · have announced : marks (announcing e) = [announcement e.label] := rfl
    have result : marks [⟨.report (resultLine pass), .ok ()⟩] = [resultLine pass] := rfl
    rw [whole, List.zipWith_append h.each.symm]
    simp only [marks_append, String.join_append, h.text, announced, result, startOf]
    simp [← text, String.append_assoc]
  · intro before e' after split
    rcases split_cons split List.not_mem_nil with ⟨rfl, rfl, -⟩ | ⟨after', rfl, -⟩
    · rw [← h.each, List.getElem?_append_right (Nat.le_refl _), Nat.sub_self]
      rfl
    · have own := h.own before e' after' rfl
      rw [List.getElem?_append_left (List.getElem?_eq_some_iff.1 own).1]
      exact own

theorem exists_tells (c : Trial.Setting) (takes : TakesProgress env) (entries : List Entry) :
    ∃ records, Tells c env entries records := by
  induction entries using List.reverseRecOn with
  | nil => exact ⟨[], tells_nil⟩
  | append_singleton before e ih =>
    obtain ⟨records, h⟩ := ih
    exact ⟨_, tells_append takes h e⟩

/-- Two runs of suites, on machines whose records of progress take all. Some records tell what each run
came to; and a scenario of both has the same record in both, whatever the other scenarios are and
whatever becomes of them, if the machines are alike from the moment on when it begins. -/
theorem told_by_records (c : Trial.Setting) {env env' : Environment} (takes : TakesProgress env)
    (takes' : TakesProgress env') (entries entries' : List Entry) :
    ∃ records records', Tells c env entries records ∧ Tells c env' entries' records' ∧
      ∀ before e after before' after', entries = before ++ e :: after →
        entries' = before' ++ e :: after' →
        (∀ more r, ¬ IsProgress r → env (startOf c env before e ++ more) r =
          env' (startOf c env' before' e ++ more) r) →
        records[before.length]? = records'[before'.length]? := by
  obtain ⟨records, h⟩ := exists_tells c takes entries
  obtain ⟨records', h'⟩ := exists_tells c takes' entries'
  refine ⟨records, records', h, h', fun before e after before' after' split split' alike => ?_⟩
  have same : env.after (startOf c env before e) = env'.after (startOf c env' before' e) := by
    funext more r
    cases r with
    | report text => exact (takes.report _ text).trans (takes'.report _ text).symm
    | flush => exact (takes.flush _).trans (takes'.flush _).symm
    | _ => exact alike more _ id
  rw [h.own before e after split, h'.own before' e after' split', same]

end Suite

theorem calm_takes : TakesProgress calm := ⟨fun _ _ => rfl, fun _ => rfl⟩

/-- Where nothing goes wrong, a scenario with an empty log fails when it is judged, and one without
files when it is loaded. -/
theorem calm_tells : TakesProgress calm ∧
    Tells wrapping calm [elevatedEntry, fileless] [.failed .applied, .failed .nothing] := by
  refine ⟨calm_takes, ?_⟩
  obtain ⟨records, -, h, -⟩ := told_by_records wrapping calm_takes calm_takes [elevatedEntry, fileless] []
  have first := h.own [] elevatedEntry [fileless] rfl
  have second := h.own [elevatedEntry] fileless [] rfl
  have came : recordOf wrapping (calm.after (startOf wrapping calm [] elevatedEntry)) elevatedEntry =
        .failed .applied ∧
      recordOf wrapping (calm.after (startOf wrapping calm [elevatedEntry] fileless)) fileless =
        .failed .nothing := by
    decide +kernel
  rw [came.1] at first
  rw [came.2] at second
  have two := h.each
  match records, two with
  | [a, b], _ =>
    obtain rfl : a = _ := Option.some.inj first
    obtain rfl : b = _ := Option.some.inj second
    exact h

end PatchTrial.Suite
