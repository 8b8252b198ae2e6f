import PatchTrial.Proofs.Suite.Signals
import PatchTrial.Proofs.Suite.Turns
import PatchTrial.Proofs.Trial.LostProgress

/-!
A suite whose record of progress is lost: from some moment on it takes nothing any more. The moment
may be anywhere, when a scenario is announced, in the middle of its trial, or when its result is
told.

What is proved:
  1. `runEntry_heeds`: a scenario starts no program after the moment but to stop its target.
  2. `Halts.append`: the scenario of the moment is the last one; what follows it is not begun.
  3. `lost_progress_stops`: so the suite fails, and it leaves no target behind.
-/
namespace PatchTrial.Suite
open Trial

/-- A record of progress that takes nothing any more once it did not take something. -/
def StaysLost (env : Environment) : Prop :=
  ∀ past, (∃ e ∈ past, isLost e = true) → ∀ r, IsProgress r → isLost ⟨r, env past r⟩ = true

variable {c : Setting} {env : Environment} {entries : List Entry}

/-! ## One scenario -/

theorem isLost_loading {e : Exchange} (h : IsLoading e.request) : isLost e = false := by
  obtain ⟨r, reply⟩ := e
  cases r <;> first | rfl | exact h.elim

theorem isLost_write {e : Exchange} (h : IsWrite e.request) : isLost e = false := by
  obtain ⟨r, reply⟩ := e
  cases h
  rfl

/-- What is taken matters nothing to what follows it. -/
theorem heeds_after {xs ys : Trace} (taken : ∀ e ∈ xs, isLost e = false)
    (h : ys.Pairwise (Heeds c)) : (xs ++ ys).Pairwise (Heeds c) := by
  have heeds : ∀ e ∈ xs, ∀ later, Heeds c e later := by
    intro e hm later lost
    rw [taken e hm] at lost
    cases lost
  exact List.pairwise_append.2 ⟨List.pairwise_of_forall_mem_list fun e he b _ => heeds e he b, h,
    fun e he b _ => heeds e he b⟩

/-- A scenario heeds that something is not taken, from its own beginning. -/
theorem runEntry_heeds (c : Setting) (e : Entry) (env : Environment) :
    (runEntry c e).Adds env fun _ more => more.Pairwise (Heeds c) := by
  have loading {α : Type} {p : Plan α} (h : p.Only IsLoading) :
      p.Adds env fun _ more => ∀ x ∈ more, isLost x = false :=
    (Plan.Adds.of_only h).mono fun _ _ all x hm => isLost_loading (all x hm)
  have unloaded (f : Failure) : (do
      recordUnloadable c.log e.root f
      return false : Plan Bool).Adds env fun _ more => more.Pairwise (Heeds c) := by
    have writes : (recordUnloadable c.log e.root f).Adds env _ :=
      .of_only (only_recordUnloadable c.log e.root f)
    refine writes.bind fun _ more all => .done ?_
    exact heeds_after (fun x hm => isLost_write (all x hm)) .nil
  refine (loading (only_loadScenario _ _)).bind fun r xs first => ?_
  cases r with
  | error r => exact (unloaded _).mono fun _ _ => heeds_after first
  | ok s =>
  refine (loading (only_loadValidator _)).bind fun r ys second => ?_
  cases r with
  | error r => exact (unloaded _).mono fun _ _ h => heeds_after first (heeds_after second h)
  | ok v =>
  refine (run_heeds c s v env).bind fun r zs heeds => ?_
  have whole : (xs ++ (ys ++ (zs ++ []))).Pairwise (Heeds c) := by
    rw [List.append_nil]
    exact heeds_after first (heeds_after second heeds)
  cases r with
  | ok u => exact .done whole
  | error f => exact .done whole

/-! ## The suite -/

/-- What a run of a suite came to and the trace it left, in view of what was not taken. -/
structure Halts (c : Setting) (env : Environment) (entries : List Entry)
    (reached : Except Refusal Tally × Trace) : Prop where
  played : (run c entries).outcome.play env [] = reached
  heeds : reached.2.Pairwise (Heeds c)
  /-- In a run that is to go on everything was taken. -/
  taken : ∀ tally, reached.1 = .ok tally → ∀ e ∈ reached.2, isLost e = false
  /-- A run that failed did so in one of its scenarios and came no further. -/
  failed : ∀ r, reached.1 = .error r → (∃ cause, r = .noProgress cause) ∧
    ∃ done e rest, entries = done ++ e :: rest ∧
      (∀ x ∈ ((run c done).outcome.play env []).2, isLost x = false) ∧
      (run c (done ++ [e])).outcome.play env [] = reached

theorem Halts.nil : Halts c env [] (.ok {}, []) where
  played := rfl
  heeds := .nil
  taken _ _ _ hm := nomatch hm
  failed _ h := nomatch h

/-- If the last thing is taken, so was everything before it. -/
theorem taken_before_last (stays : StaysLost env) {past : Trace} {last : Exchange}
    (whole : ((run c entries).outcome.play env []).2 = past ++ [last])
    (progress : IsProgress last.request) (taken : isLost last = false) :
    ∀ x ∈ past ++ [last], isLost x = false := by
  have within : (run c entries).outcome.Within env [] past last :=
    ⟨List.nil_prefix, whole ▸ List.prefix_rfl⟩
  intro x hm
  rcases List.mem_append.1 hm with earlier | now
  · by_contra lost
    have again := stays past ⟨x, earlier, by simpa using lost⟩ _ progress
    rw [← within.replied, taken] at again
    cases again
  · rw [List.mem_singleton.1 now]
    exact taken

/-- Progress is shown without starting a program. -/
theorem IsProgress.onlyStops {r : Request} (h : IsProgress r) : OnlyStops c r := by
  intro argv starts
  cases r <;> first | exact h.elim | cases starts

/-- One more scenario: the run goes on with it, or it comes to its end there, or it had before. -/
theorem Halts.append (stays : StaysLost env) {e : Entry}
    {reached after : Except Refusal Tally × Trace} (h : Halts c env entries reached)
    (turn : Turn c env e reached after)
    (played : (run c (entries ++ [e])).outcome.play env [] = after) :
    Halts c env (entries ++ [e]) after := by
  -- a run that fails with this scenario
  have here {past : Trace} {cause : IoError} (same : after = (.error (.noProgress cause), past))
      (heeds : past.Pairwise (Heeds c)) (calm : ∀ x ∈ reached.2, isLost x = false) :
      Halts c env (entries ++ [e]) after := by
    subst same
    refine ⟨played, heeds, (fun _ h => nomatch h), fun r h => ?_⟩
    cases h
    exact ⟨⟨cause, rfl⟩, entries, e, [], rfl, h.played ▸ calm, played⟩
  cases turn with
  | @ended r past =>
    refine ⟨played, h.heeds, h.taken, fun r' h' => ?_⟩
    obtain ⟨cause, done, e', rest, rfl, calm, same⟩ := h.failed r' h'
    exact ⟨cause, done, e', rest ++ [e], by simp, calm, same⟩
  | @unannounced tally past more cause _ progress =>
    have calm := h.taken tally rfl
    have heeds : more.Pairwise (Heeds c) :=
      List.pairwise_of_forall_mem_list fun _ _ later hm _ => (progress later hm).onlyStops
    exact here rfl (heeds_after calm heeds) calm
  | @untold tally past own pass cause _ own_played =>
    have calm := h.taken tally rfl
    have entry := (runEntry_heeds c e env).play (past ++ announcing e)
    rw [own_played] at entry
    have announced : ∀ x ∈ announcing e, isLost x = false := by simp [announcing, isLost]
    have told :
        (own ++ [⟨.report (resultLine pass), .error cause⟩] : Trace).Pairwise (Heeds c) := by
      refine List.pairwise_append.2 ⟨entry, List.pairwise_singleton _ _, fun x _ y hy _ => ?_⟩
      obtain rfl := List.mem_singleton.1 hy
      exact IsProgress.onlyStops trivial
    have heeds := heeds_after calm (heeds_after announced told)
    simp only [← List.append_assoc] at heeds
    exact here rfl heeds calm
  | @told tally past own pass own_played =>
    have all : ∀ x ∈ past ++ announcing e ++ own ++ [⟨.report (resultLine pass), .ok ()⟩],
        isLost x = false := taken_before_last stays (congrArg Prod.snd played) trivial rfl
    refine ⟨played, ?_, fun _ _ => all, fun r h => nomatch h⟩
    have heeds := heeds_after (c := c) all .nil
    rwa [List.append_nil] at heeds

theorem halts_run (stays : StaysLost env) (c : Setting) (entries : List Entry) :
    Halts c env entries ((run c entries).outcome.play env []) := by
  induction entries using List.reverseRecOn with
  | nil => exact .nil
  | append_singleton before e ih => exact ih.append stays (turn_run c env before e) rfl

/-- A suite leaves no target, whatever it came to. -/
theorem idle_run (c : Setting) (entries : List Entry) (env : Environment) :
    Idle ((run c entries).outcome.play env []).2 := by
  have ends := (Attempt.asks_outcome.1 (runFrom_proper c {} entries idle_nil)).play env
  revert ends
  rw [run]
  cases ((runFrom c {} entries).outcome.play env []).1 <;> exact id

theorem prefix_of_not_mem {α : Type} {xs before after : List α} {a : α}
    (h : xs <+: before ++ a :: after) (other : a ∉ xs) : xs <+: before := by
  rcases List.prefix_or_prefix_of_prefix h (List.prefix_append before _) with inside | ⟨rest, rfl⟩
  · exact inside
  · cases rest with
    | nil => simp
    | cons b rest =>
      obtain rfl := (List.cons_prefix_cons.1 ((List.prefix_append_right_inj before).1 h)).1
      exact absurd (List.mem_append_right before List.mem_cons_self) other

/-- Where the record of progress takes nothing any more from some moment of a suite on, the suite
fails. After that moment no program is started but to stop a target; the run is that of the
scenarios up to the one in whose course the moment is, so none after it is begun; and every target
that was started was stopped with success or given up in the end. -/
theorem lost_progress_stops (stays : StaysLost env) {before after : Trace} {lost : Exchange}
    (split : ((run c entries).outcome.play env []).2 = before ++ lost :: after)
    (refused : isLost lost = true) :
    (∃ cause, ((run c entries).outcome.play env []).1 = .error (.noProgress cause)) ∧
    (∀ e ∈ after, OnlyStops c e.request) ∧
    (∃ done e rest, entries = done ++ e :: rest ∧
      ((run c done).outcome.play env []).2 <+: before ∧
      (run c (done ++ [e])).outcome.play env [] = (run c entries).outcome.play env []) ∧
    ∀ earlier start since group, before = earlier ++ start :: since → Starts group start →
      Dismissed group (since ++ lost :: after) := by
  have halts := halts_run stays c entries
  have there : lost ∈ ((run c entries).outcome.play env []).2 := by simp [split]
  obtain ⟨r, result⟩ : ∃ r, ((run c entries).outcome.play env []).1 = .error r := by
    cases result : ((run c entries).outcome.play env []).1 with
    | ok tally => exact absurd refused (by simp [halts.taken tally result lost there])
    | error r => exact ⟨r, rfl⟩
  obtain ⟨⟨cause, rfl⟩, done, e, rest, rfl, calm, last⟩ := halts.failed r result
  refine ⟨⟨cause, result⟩, ?_, ⟨done, e, rest, rfl, ?_, last⟩, ?_⟩
  -- all that is asked later heeds what was lost before it
  · have heeds := halts.heeds
    rw [split] at heeds
    have later := (List.pairwise_cons.1 (List.pairwise_append.1 heeds).2.1).1
    exact fun e hm => later e hm refused
  · have begun := prefix_run c env done (e :: rest)
    rw [split] at begun
    refine prefix_of_not_mem begun fun hm => ?_
    rw [calm lost hm] at refused
    cases refused
  · rintro earlier start since group rfl starts
    have idle := idle_run c (done ++ e :: rest) env
    rw [split, List.append_assoc, List.cons_append] at idle
    exact idle.dismissed starts rfl

/-- The machine `calm`, but that the record of progress is lost when a patch was applied. -/
def closing : Environment
  | past, .report text =>
    if text = "patch|" ∨ past.any isLost = true then .error (.other "writer is closed") else .ok ()
  | past, .flush => if past.any isLost then .error (.other "writer is closed") else .ok ()
  | past, r => calm past r

theorem closing_staysLost : StaysLost closing := by
  rintro past ⟨e, hm, lost⟩ r progress
  have any : past.any isLost = true := List.any_eq_true.2 ⟨e, hm, lost⟩
  cases r with
  | report text => simp [closing, any, isLost]
  | flush => simp [closing, any, isLost]
  | _ => exact progress.elim

/-- The record of progress may be lost while a target runs; another scenario would follow. -/
theorem closing_stops :
    StaysLost closing ∧ ∃ before lost after,
      ((run wrapping [elevatedEntry, plainEntry]).outcome.play closing []).2 =
        before ++ lost :: after ∧ isLost lost = true ∧ published before = some 7 ∧
      (∃ cause, ((run wrapping [elevatedEntry, plainEntry]).outcome.play closing []).1 =
        .error (.noProgress cause)) ∧
      (∀ e ∈ after, OnlyStops wrapping e.request) ∧
        ∃ since, Dismissed 7 (since ++ lost :: after) := by
  refine ⟨closing_staysLost, ?_⟩
  generalize htr : ((run wrapping [elevatedEntry, plainEntry]).outcome.play closing []).2 = all
  have facts : all[28]?.bind made? = some 7 ∧ all[43]?.map isLost = some true ∧
      published (all.take 43) = some 7 := by
    rw [← htr]
    decide +kernel
  obtain ⟨made, refused, shown⟩ := facts
  obtain ⟨start, atStart, made⟩ := Option.bind_eq_some_iff.1 made
  obtain ⟨lost, atLost, refused⟩ := Option.map_eq_some_iff.1 refused
  have split : all = all.take 43 ++ lost :: all.drop 44 := by
    obtain ⟨_, rfl⟩ := List.getElem?_eq_some_iff.1 atLost
    rw [← List.drop_eq_getElem_cons, List.take_append_drop]
  have stops := lost_progress_stops closing_staysLost (htr.trans split) refused
  obtain ⟨failed, heeds, -, dismissed⟩ := stops
  exact ⟨all.take 43, lost, all.drop 44, split, refused, shown, failed, heeds, _,
    dismissed _ _ _ _ (take_around atStart 14) (starts_iff.2 made)⟩

end PatchTrial.Suite
