import PatchTrial.Proofs.Suite.Record
import PatchTrial.Proofs.Trial.Tenure

/-!
Whom the signals of a suite reach. The machine may give the number of a group away once the leader
was asked how it ended, and the program goes on using the number after that.

What is proved:
  1. `runFrom_proper`: a suite asks only what is proper, and so at each of its moments it has no
     target, has just started one, or has one at hand.
  2. `signals_own_iff`: every signal is meant for the group of the target at hand. It is sure to
     reach that group exactly if the leader was not asked for successfully before.
  3. `crash_signals_reused`: the group of a target that ended while it was observed is signalled
     when its number may stand for another group.
-/
namespace PatchTrial.Suite
open Trial

variable {past : Trace} {group : Pid}

/-! ## The moments of a suite -/

theorem IsLoading.isAside {r : Request} (h : IsLoading r) : IsAside r := by
  cases r <;> trivial

section
variable (c : Setting)

theorem runEntry_proper (e : Entry) (h : Idle past) :
    (runEntry c e).Asks Proper past fun _ past' => Idle past' := by
  have recorded (f : Failure) {past : Trace} (h : Idle past) :
      (do recordUnloadable c.log e.root f
          return false : Plan Bool).Asks Proper past fun _ past' => Idle past' := by
    have write := (only_recordUnloadable c.log e.root f).mono fun _ => IsWrite.isAside
    exact Plan.asks_bind.2 ((h.asks write).mono fun _ _ h => Plan.asks_done.2 h)
  have loads := (only_loadScenario e.root e.overrides).mono fun _ => IsLoading.isAside
  refine Plan.asks_bind.2 ((h.asks loads).mono fun r _ h => ?_)
  cases r with
  | error r => exact recorded _ h
  | ok s =>
  have loads := (only_loadValidator e.root).mono fun _ => IsLoading.isAside
  refine Plan.asks_bind.2 ((h.asks loads).mono fun r _ h => ?_)
  cases r with
  | error r => exact recorded _ h
  | ok v =>
  refine Plan.asks_bind.2 ((run_proper c s v h).mono fun r _ h => ?_)
  cases r <;> exact Plan.asks_done.2 h

theorem runFrom_proper (tally : Tally) (entries : List Entry) (h : Idle past) :
    (runFrom c tally entries).Asks Proper past (fun _ past' => Idle past')
      fun _ past' => Idle past' := by
  induction entries generalizing tally past with
  | nil => exact Attempt.asks_pure.2 h
  | cons e rest ih =>
    have told (text : String) : (report text).outcome.Only IsAside :=
      Attempt.only_of (.request trivial)
    have flushed : (Attempt.of Refusal.noProgress (Plan.request .flush)).outcome.Only IsAside :=
      Attempt.only_of (.request trivial)
    refine h.bind (told _) fun _ _ h => ?_
    refine h.bind flushed fun _ _ h => ?_
    have entry := runEntry_proper c e h
    refine Attempt.asks_bind.2 (Attempt.asks_lift.2 (entry.mono fun pass _ h => ?_))
    exact h.bind (told _) fun _ _ h => ih _ h

end

variable {c : Setting} {entries : List Entry} {env : Environment}

/-- What a suite asks at a moment is proper. -/
theorem proper_run {e : Exchange} (h : past ++ [e] <+: ((run c entries).outcome.play env []).2) :
    Proper past e.request := by
  have asks := Attempt.asks_outcome.1 (runFrom_proper c {} entries idle_nil)
  exact asks.of_within ⟨List.nil_prefix, h⟩

/-- At each moment of a suite there is no target, or just a new one, or one at hand. -/
theorem moment_run (h : past <+: ((run c entries).outcome.play env []).2) : Moment past := by
  rcases List.eq_nil_or_concat past with rfl | ⟨before, e, rfl⟩
  · exact .idle idle_nil
  · rw [List.concat_eq_append] at h ⊢
    exact (proper_run h).moment e.reply

/-! ## Signals -/

/-- Whether a request sends a signal to a group, directly or through a wrapper. -/
inductive SignalsTo (group : Pid) : Request → Prop
  | signal {signal : Signal} : SignalsTo group (.signalGroup group signal)
  | command {wrapper : List String} {signal : String} :
    SignalsTo group (.run (killCommand wrapper group signal) none none)

/-- A command that sends a signal tells to which group. -/
theorem group_of_killCommand {wrapper wrapper' : List String} {other : Pid}
    {signal signal' : String}
    (h : killCommand wrapper group signal = killCommand wrapper' other signal') :
    group = other := by
  have last := congrArg List.getLast? h
  simp only [killCommand, List.getLast?_append, List.getLast?_cons_cons, List.getLast?_singleton,
    Option.some_or, Option.some.injEq] at last
  have digits := congrArg String.toList last
  rw [String.toList_append, String.toList_append] at digits
  exact Roster.toString_injective (String.toList_inj.1 (List.append_cancel_left digits))

/-- Whatever sends a signal sends it to the group of the target at hand. -/
theorem atHand_of_signalsTo {r : Request} (proper : Proper past r) (h : SignalsTo group r) :
    ∃ since, AtHand past group since := by
  -- nothing that is asked beside a target sends a signal, so the request tends the one at hand
  obtain ⟨how, other, since, held, tends⟩ : ∃ how other since, AtHand past other since ∧
      Tends how other r := by
    cases proper with
    | idle aside | beside aside => cases h <;> cases aside
    | tend held tends => exact ⟨_, _, _, held, tends⟩
    | _ => cases h
  refine ⟨since, ?_⟩
  cases h with
  | signal =>
    cases tends with
    | lookup look => cases look
    | signal => exact held
  | command =>
    generalize same : Request.run (killCommand _ group _) none none = r at tends
    cases tends with
    | lookup look => cases look <;> cases same
    | command => 
      rw [group_of_killCommand (Request.run.inj same).1]
      exact held
    | _ => cases same

/-! ## Two machines -/

def plainEntry : Entry := .of (.ofString "t") {}

/-- A machine on which nothing goes wrong but that every target has ended when it is asked after. -/
def crashing : Environment
  | _, .poll _ => .ok (some (.exited 1))
  | past, r => calm past r

/-- The group that a request sends a signal to directly. -/
def signalled? : Request → Option Pid
  | .signalGroup group _ => some group
  | _ => none

theorem signalsTo_of_signalled {r : Request} (h : signalled? r = some group) :
    SignalsTo group r := by
  cases r with
  | signalGroup other signal =>
    cases h
    exact .signal
  | _ => cases h

theorem take_around {α : Type} {xs : List α} {n : Nat} {a : α} (h : xs[n]? = some a) (k : Nat) :
    xs.take (n + 1 + k) = xs.take n ++ a :: (xs.drop (n + 1)).take k := by
  rw [List.take_add, List.take_add_one, h, Option.toList_some, List.append_assoc]
  rfl

/-! ## Which group is meant -/

/-- A suite that sends a signal at a moment to a group, or is interrupted then and kills the
published one, means the group of the target that was started last and was not dismissed. If any
course of events explains the replies, the signal reaches that group in all of them exactly if the
leader was not asked before how it ended, and had. -/
theorem signals_own_iff (moment : past <+: ((run c entries).outcome.play env []).2)
    (sends : published past = some group ∨
      ∃ e, past ++ [e] <+: ((run c entries).outcome.play env []).2 ∧ SignalsTo group e.request) :
    ∃ before start since, past = before ++ start :: since ∧ Starts group start ∧
      (∀ e ∈ since, ∀ other, ¬ Starts other e) ∧ ¬ Dismissed group since ∧
      ((∃ tenure, Possible group since tenure) →
        ((∀ tenure, Possible group since tenure → ∃ w, tenure = .own w) ↔
          ∀ e ∈ since, ¬ Reaps group e)) := by
  -- a group that is published or signalled is that of the target at hand
  have held : ∃ since, AtHand past group since := by
    rcases sends with shown | ⟨e, later, sends⟩
    · exact (moment_run moment).atHand_of_published shown
    · exact atHand_of_signalsTo (proper_run later) sends
  obtain ⟨since, held⟩ := held
  obtain ⟨before, start, -, starts, steady, split⟩ := id held
  refine ⟨before, start, _, split, starts, fun e hm other starts' => ?_, held.not_dismissed, ?_⟩
  · rcases List.mem_cons.1 hm with rfl | hm
    · cases starts'
    · exact starts'.not_steady (steady e hm)
  · rintro ⟨tenure, possible⟩
    have reused := possible_reused_iff possible
    constructor
    · intro own e hm reaps
      obtain ⟨w, same⟩ := own .reused (reused.2 ⟨e, hm, reaps⟩)
      cases same
    · intro none tenure possible'
      cases tenure with
      | own w => exact ⟨w, rfl⟩
      | reused =>
        obtain ⟨e, hm, reaps⟩ := reused.1 possible'
        exact absurd reaps (none e hm)

/-- A target that runs is sure to be the one that an interrupt kills. -/
theorem calm_interrupt_own :
    ∃ past since, past <+: ((run wrapping [plainEntry]).outcome.play calm []).2 ∧
      published past = some 7 ∧ (∃ w, Possible 7 since (.own w)) ∧
      ∀ tenure, Possible 7 since tenure → ∃ w, tenure = .own w := by
  generalize htr : ((run wrapping [plainEntry]).outcome.play calm []).2 = all
  have facts : all[28]?.bind made? = some 7 ∧ published (all.take 45) = some 7 ∧
      ((all.drop 29).take 16).all (fun e => isStill e.request) = true ∧
      (((all.drop 29).take 16).all fun e => (made? e).isNone && (reaped? e).isNone) = true := by
    rw [← htr]
    decide +kernel
  obtain ⟨made, shown, still, none⟩ := facts
  obtain ⟨start, atStart, made⟩ := Option.bind_eq_some_iff.1 made
  have moment : all.take 45 <+: ((run wrapping [plainEntry]).outcome.play calm []).2 :=
    htr ▸ List.take_prefix 45 all
  have running := (Possible.fresh fresh_alone).still (List.all_eq_true.1 still)
  rw [List.nil_append] at running
  obtain ⟨before, start', since, split, starts, last, -, own⟩ := signals_own_iff moment (.inl shown)
  have none (e : Exchange) (hm : e ∈ (all.drop 29).take 16) :
      made? e = Option.none ∧ reaped? e = Option.none := by
    simpa using List.all_eq_true.1 none e hm
  have later : start' ∉ (all.drop 29).take 16 := by
    intro hm
    have made := starts_iff.1 starts
    rw [(none start' hm).1] at made
    cases made
  rw [take_around atStart 16] at split
  rcases split_cons split later with ⟨-, -, rfl⟩ | ⟨between, -, rfl⟩
  · refine ⟨all.take 45, _, htr ▸ moment, shown, ⟨_, running⟩, (own ⟨_, running⟩).2 ?_⟩
    intro e hm reaps
    have reaped := reaps_iff.1 reaps
    rw [(none e hm).2] at reaped
    cases reaped
  · exact absurd (starts_iff.2 made) (last start (List.mem_append_right _ List.mem_cons_self) 7)

/-- The group of a target that ended while it was observed is signalled when its number may stand
for another group. -/
theorem crash_signals_reused :
    ∃ before start since e,
      before ++ start :: since ++ [e] <+: ((run wrapping [plainEntry]).outcome.play crashing []).2 ∧
      Starts 7 start ∧ SignalsTo 7 e.request ∧ Possible 7 since .reused := by
  generalize htr : ((run wrapping [plainEntry]).outcome.play crashing []).2 = all
  have facts : all[28]?.bind made? = some 7 ∧
      (((all.drop 29).take 16).all fun e => isStill e.request) = true ∧
      (all.drop 29)[16]?.bind reaped? = some 7 ∧
      all[48]?.bind (fun e => signalled? e.request) = some 7 := by
    rw [← htr]
    decide +kernel
  obtain ⟨made, still, reaped, signalled⟩ := facts
  obtain ⟨start, atStart, made⟩ := Option.bind_eq_some_iff.1 made
  obtain ⟨asked, atEnd, reaped⟩ := Option.bind_eq_some_iff.1 reaped
  obtain ⟨e, atSignal, signalled⟩ := Option.bind_eq_some_iff.1 signalled
  refine ⟨all.take 28, start, (all.drop 29).take 19, e, ?_, starts_iff.2 made,
    signalsTo_of_signalled signalled, ?_⟩
  · rw [← take_around atStart 19, ← Option.toList_some, ← atSignal, ← List.take_add_one]
    exact List.take_prefix 49 all
  · rw [take_around atEnd 2, List.append_cons]
    refine Possible.afterwards (Possible.gone ?_ (reaps_iff.2 reaped)) _
    have running := (Possible.fresh fresh_alone).still (List.all_eq_true.1 still)
    rwa [List.nil_append] at running

end PatchTrial.Suite
