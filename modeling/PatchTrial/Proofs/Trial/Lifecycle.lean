import PatchTrial.Proofs.Trial.Uses

/-!
What becomes of a target from its launch on, whatever is done with it, in any order and any number
of times. Only one thing is relied on: a leader that was reported to have ended is reported so
again.

What is proved:
  1. `Use.Made.keeps`: a target never knows more of its end than was reported, and it is not stopped
     without knowing of its end.
  2. `History.letGo_of_retracted`, `History.retracted_of_letGo`: at which moments it is taken back
     that its group is published.
  3. `launched_orderly`: what holds of every history from the launch on.
-/
namespace PatchTrial.Trial

/-- What may be done with a target one after another. Nothing is once it was given up. -/
inductive History : Target → List Use → Prop
  | nil (t : Target) : History t []
  | cons {u : Use} {rest : List Use} : u.Made → (u.act = .dropped → rest = []) →
    History u.after rest → History u.before (u :: rest)

/-- What was asked and replied in the course of a history. -/
def exchanges (uses : List Use) : Trace := uses.flatMap Use.own

/-- Once a leader was reported to have ended, it is reported so again, with the same status,
whenever it is asked for. -/
def Remembers (pid : Pid) (past : Trace) : Prop :=
  past.Pairwise fun e e' => ∀ status reply, e = ⟨.poll pid, .ok (some status)⟩ →
    e' = ⟨.poll pid, reply⟩ → reply = .ok (some status)

/-- By some moment of a history a termination of the target has succeeded, be it that of the drop,
or the drop has ended. -/
def LetGo (uses : List Use) (now : Trace) : Prop :=
  ∃ pre u post own, uses = pre ++ u :: post ∧ u.before.stopped = false ∧ own <+: u.own ∧
    Dismissal u.before own ∧ exchanges pre ++ own <+: now

/-- What holds of every history of a target that was launched by the end of `past`. -/
structure Orderly (past : Trace) (t : Target) (uses : List Use) : Prop where
  /-- How it ended stays as it was once told. -/
  told : ∀ pre u post status, uses = pre ++ u :: post → u.act = .asked (.ok (some status)) →
    ∀ v ∈ post, ∀ r, v.act = .asked r → r = .ok (some status)
  /-- Once it was stopped it is known how it ended, and nothing more is asked. -/
  stopped : ∀ pre u post, uses = pre ++ u :: post → u.act = .stopped (.ok ()) →
    ∃ status, ∀ v ∈ post, v.Quiet u.after status
  /-- A failure does not make it count as stopped. -/
  failed : ∀ u ∈ uses, ∀ e, u.act = .stopped (.error e) → u.after.stopped = false
  /-- After a failure the next time it is to be stopped or given up is another try. -/
  tried : ∀ pre u mid v post e, uses = pre ++ u :: (mid ++ v :: post) →
    u.act = .stopped (.error e) → (∀ w ∈ mid, w.act ≠ .stopped (.ok ())) →
      (v.act = .dropped ∨ ∃ r, v.act = .stopped r) → Tries t v.own
  /-- Its group is published until it is let go, and no group is after that. -/
  published : ∀ now, now <+: exchanges uses →
    (LetGo uses now → published (past ++ now) = none) ∧
      (¬ LetGo uses now → published (past ++ now) = some t.pid)

variable {t t' : Target} {own past : Trace}

/-! ## What a target knows -/

namespace Remembers
variable {pid : Pid} {before more : Trace}

theorem of_append_left (h : Remembers pid (before ++ more)) : Remembers pid before :=
  (List.pairwise_append.1 h).1

/-- What was reported of a leader stays. -/
theorem reply_eq (h : Remembers pid (before ++ more)) {status : ExitStatus}
    (told : (⟨.poll pid, .ok (some status)⟩ : Exchange) ∈ before)
    {reply : Except IoError (Option ExitStatus)} (hm : (⟨.poll pid, reply⟩ : Exchange) ∈ more) :
    reply = .ok (some status) := by
  exact (List.pairwise_append.1 h).2.2 _ told _ hm status reply rfl rfl

end Remembers

/-- What is so of a target throughout its history: it is the one that was launched, it knows of its
end what it was told, and it is stopped only if it knows of it. -/
structure Known (launched : Target) (past : Trace) (t : Target) : Prop where
  pid : t.pid = launched.pid
  terminator : t.terminator = launched.terminator
  told : ∀ status, t.finished = some status →
    (⟨.poll launched.pid, .ok (some status)⟩ : Exchange) ∈ past
  ended : t.stopped = true → ∃ status, t.finished = some status

variable {launched : Target}

theorem Known.append (h : Known launched past t) (more : Trace) : Known launched (past ++ more) t :=
  { h with told := fun status known => List.mem_append_left more (h.told status known) }

theorem Target.Asked.keeps {r : Except IoError (Option ExitStatus)} (h : t.Asked r t' own)
    (known : Known launched past t) :
    Known launched (past ++ own) t' ∧
      ∀ status, t.finished = some status → t'.finished = some status := by
  cases h with
  | known => exact ⟨known.append [], fun _ => id⟩
  | failed => exact ⟨known.append _, fun _ => id⟩
  | told none status =>
    refine ⟨⟨known.pid, known.terminator, fun now told => ?_, fun stopped => ?_⟩,
      fun before told => ?_⟩
    · obtain rfl : status = some now := told
      rw [known.pid]
      exact List.mem_append_right past (List.mem_singleton_self _)
    · obtain ⟨before, told⟩ := known.ended stopped
      cases none.symm.trans told
    · cases none.symm.trans told

theorem Target.Stops.keeps {r : Except IoError Unit} (h : t.Stops r t' own)
    (known : Known launched past t) (remembers : Remembers launched.pid (past ++ own)) :
    Known launched (past ++ own) t' ∧
      ∀ status, t.finished = some status → t'.finished = some status := by
  cases h with
  | already => exact ⟨known.append [], fun _ => id⟩
  | failed => exact ⟨known.append _, fun _ => id⟩
  | unasked => exact ⟨known.append _, fun _ => id⟩
  | @succeeded tried _ ran status =>
    -- the leader was reported to have ended while it was waited for: the last reply is the same
    have last {before : ExitStatus}
        (told : (⟨.poll launched.pid, .ok (some before)⟩ : Exchange) ∈ past ++ tried) :
        status = some before := by
      rw [known.pid, ← List.append_assoc] at remembers
      exact Except.ok.inj (remembers.reply_eq told List.mem_cons_self)
    obtain ⟨now, ended⟩ := toldEnd_of_makes ran
    rw [known.pid] at ended
    obtain rfl := last (List.mem_append_right past ended)
    refine ⟨⟨known.pid, known.terminator, fun before told => ?_, fun _ => ⟨now, rfl⟩⟩,
      fun before told => last (List.mem_append_left tried (known.told before told))⟩
    obtain rfl : now = before := Option.some.inj told
    rw [← List.append_assoc]
    exact List.mem_append_left _ (List.mem_append_right past ended)

theorem Use.Made.keeps {u : Use} (h : u.Made) (known : Known launched past u.before)
    (remembers : Remembers launched.pid (past ++ u.own)) :
    Known launched (past ++ u.own) u.after ∧
      ∀ status, u.before.finished = some status → u.after.finished = some status := by
  cases h with
  | asked makes => exact (asked_of_makes makes).keeps known
  | stopped makes => exact (stopped_of_makes makes).keeps known remembers
  | dropped makes => exact ⟨known.append _, fun _ => id⟩

/-- How a target ended is known once it was told. -/
theorem Use.Made.finished {u : Use} {status : ExitStatus} (h : u.Made)
    (told : u.act = .asked (.ok (some status))) : u.after.finished = some status := by
  cases h with
  | asked makes =>
    cases told
    cases asked_of_makes makes with
    | known h => exact h
    | told => rfl
  | _ => cases told

/-- What is known is told. -/
theorem Use.Made.told {u : Use} {status : ExitStatus} {r : Except IoError (Option ExitStatus)}
    (h : u.Made) (known : u.before.finished = some status) (asked : u.act = .asked r) :
    r = .ok (some status) := by
  cases h with
  | asked makes =>
    cases asked
    cases asked_of_makes makes with
    | known h => rw [h.symm.trans known]
    | told none => cases none.symm.trans known
    | failed none => cases none.symm.trans known
  | _ => cases asked

/-! ## Histories -/

namespace History
variable {uses pre post : List Use} {u : Use}

theorem of_append (h : History t (pre ++ u :: post)) : u.Made ∧ History u.after post := by
  induction pre generalizing t with
  | nil =>
    cases h with
    | cons made _ rest => exact ⟨made, rest⟩
  | cons w pre ih =>
    cases h with
    | cons _ _ rest => exact ih rest

/-- What is known of a target when something is done with it. -/
theorem known (h : History t (pre ++ u :: post)) (known : Known launched past t)
    (remembers : Remembers launched.pid (past ++ exchanges (pre ++ u :: post))) :
    Known launched (past ++ exchanges pre) u.before := by
  induction pre generalizing t past with
  | nil =>
    cases h with
    | cons => exact known.append []
  | cons w pre ih =>
    cases h with
    | cons made _ rest =>
      have all : past ++ exchanges (w :: pre ++ u :: post) =
          past ++ w.own ++ exchanges (pre ++ u :: post) := (List.append_assoc past _ _).symm
      rw [all] at remembers
      have next := (made.keeps known remembers.of_append_left).1
      have later := ih rest next remembers
      rwa [List.append_assoc] at later

/-- How a target ended stays known. -/
theorem finished (h : History t uses) (known : Known launched past t)
    (remembers : Remembers launched.pid (past ++ exchanges uses)) {status : ExitStatus}
    (told : t.finished = some status) : ∀ v ∈ uses, v.Made ∧ v.before.finished = some status := by
  induction h generalizing past with
  | nil => exact fun v hv => nomatch hv
  | @cons u rest made _ _ ih =>
    have all : past ++ exchanges (u :: rest) = past ++ u.own ++ exchanges rest :=
      (List.append_assoc past _ _).symm
    rw [all] at remembers
    obtain ⟨next, kept⟩ := made.keeps known remembers.of_append_left
    exact List.forall_mem_cons.2 ⟨⟨made, told⟩, ih next remembers (kept status told)⟩

/-- A target that was stopped is left alone from then on. -/
theorem quiet (h : History t uses) (stopped : t.stopped = true) {status : ExitStatus}
    (known : t.finished = some status) : ∀ v ∈ uses, v.Quiet t status := by
  induction h with
  | nil => exact fun v hv => nomatch hv
  | @cons u rest made _ _ ih =>
    have now := made.quiet stopped known
    have same : u.after = u.before := now.2.2.1
    rw [same] at ih
    exact List.forall_mem_cons.2 ⟨now, ih stopped known⟩

/-- A target is not stopped before a termination of it has succeeded. -/
theorem running (h : History t (pre ++ u :: post)) (running : t.stopped = false)
    (fails : ∀ w ∈ pre, w.act ≠ .stopped (.ok ())) : u.before.stopped = false := by
  induction pre generalizing t with
  | nil =>
    cases h with
    | cons => exact running
  | cons w pre ih =>
    obtain ⟨first, later⟩ := List.forall_mem_cons.1 fails
    cases h with
    | cons made _ rest => exact ih rest (made.running running first) later

end History

/-! ## The published group -/

/-- While nothing else is published, a group is published until that is taken back. -/
theorem published_until {group : Pid} {now : Trace} (shown : published past = some group)
    (only : ∀ e ∈ now, IsSteady e.request ∨ e.request = .retract group) :
    ((∃ e ∈ now, e.request = .retract group) → published (past ++ now) = none) ∧
      (¬ (∃ e ∈ now, e.request = .retract group) → published (past ++ now) = some group) := by
  refine grown (P := fun now =>
    ((∃ e ∈ now, e.request = .retract group) → published (past ++ now) = none) ∧
      (¬ (∃ e ∈ now, e.request = .retract group) → published (past ++ now) = some group)) only ?_ ?_
  · rw [List.append_nil]
    exact ⟨fun ⟨_, hm, _⟩ => absurd hm List.not_mem_nil, fun _ => shown⟩
  · intro now e kind ih
    rw [← List.append_assoc, published_concat]
    rcases kind with steady | taken
    · have same : (∃ d ∈ now ++ [e], d.request = .retract group) ↔
          ∃ d ∈ now, d.request = .retract group := by
        have other : e.request ≠ .retract group := fun taken => by
          rw [taken] at steady
          exact steady
        simp [or_and_right, exists_or, other]
      rw [republish_steady steady, same]
      exact ih
    -- it is taken back, for the first time or once more
    · have gone : republish (published (past ++ now)) e.request = none := by
        rw [taken]
        by_cases before : ∃ d ∈ now, d.request = .retract group
        · rw [ih.1 before]
          rfl
        · rw [ih.2 before]
          exact if_pos rfl
      refine ⟨fun _ => gone, fun none => absurd ⟨e, ?_, taken⟩ none⟩
      exact List.mem_append_right now (List.mem_singleton_self e)

theorem LetGo.cons {u : Use} {rest : List Use} {now : Trace} (h : LetGo rest now) :
    LetGo (u :: rest) (u.own ++ now) := by
  obtain ⟨pre, v, post, own, rfl, running, within, dismissal, reached⟩ := h
  refine ⟨u :: pre, v, post, own, rfl, running, within, dismissal, ?_⟩
  rw [exchanges, List.flatMap_cons, List.append_assoc]
  exact (List.prefix_append_right_inj _).2 reached

namespace History
variable {uses : List Use} {now : Trace}

theorem requests (h : History t uses) :
    ∀ e ∈ exchanges uses, IsSteady e.request ∨ e.request = .retract t.pid := by
  induction h with
  | nil => exact fun e hm => nomatch hm
  | @cons u rest made _ _ ih =>
    rw [made.pid_eq] at ih
    exact List.forall_mem_append.2 ⟨made.requests, ih⟩

theorem letGo_of_retracted (h : History t uses) (within : now <+: exchanges uses)
    (retracted : ∃ e ∈ now, e.request = .retract t.pid) : LetGo uses now := by
  induction h generalizing now with
  | nil =>
    obtain ⟨e, hm, -⟩ := retracted
    exact nomatch within.subset hm
  | @cons u rest made _ _ ih =>
    have here {front : Trace} (inside : front <+: u.own) (reached : front <+: now)
        (retracted : ∃ e ∈ front, e.request = .retract u.before.pid) : LetGo (u :: rest) now := by
      obtain ⟨running, own, ends, dismissal⟩ := made.letsGo inside retracted
      exact ⟨[], u, rest, own, rfl, running, ends.trans inside, dismissal, ends.trans reached⟩
    rcases List.prefix_or_prefix_of_prefix within (List.prefix_append u.own (exchanges rest)) with
      inside | ⟨later, rfl⟩
    · exact here inside List.prefix_rfl retracted
    · obtain ⟨e, hm, taken⟩ := retracted
      rcases List.mem_append.1 hm with hm | hm
      · exact here List.prefix_rfl (List.prefix_append _ _) ⟨e, hm, taken⟩
      · rw [made.pid_eq] at ih
        exact (ih ((List.prefix_append_right_inj _).1 within) ⟨e, hm, taken⟩).cons

theorem pid_eq {pre post : List Use} {u : Use} (h : History t (pre ++ u :: post)) :
    u.before.pid = t.pid := by
  induction pre generalizing t with
  | nil =>
    cases h with
    | cons => rfl
  | cons w pre ih =>
    cases h with
    | cons made _ rest => exact (ih rest).trans made.pid_eq

theorem retracted_of_letGo (h : History t uses) (gone : LetGo uses now) :
    ∃ e ∈ now, e.request = .retract t.pid := by
  obtain ⟨pre, u, post, own, rfl, running, within, dismissal, reached⟩ := gone
  obtain ⟨e, hm, taken⟩ := dismissal.retracts running
  exact ⟨e, reached.subset (List.mem_append_right _ hm), h.pid_eq ▸ taken⟩

end History

/-! ## From the launch on -/

theorem launched_of_makes {argv : List String} {out err : Handle} {how : Terminator}
    {comm : Option String} {start : Trace}
    (h : (Target.launch argv out err how comm).outcome.Makes (.ok t) start) :
    start = [⟨.spawn argv out err, .ok t.pid⟩, ⟨.publish t.pid, ()⟩] ∧
      t = { pid := t.pid, terminator := how, wrapperComm := comm } := by
  cases argv with
  | nil => cases (Plan.makes_done.1 h).1
  | cons program args =>
    obtain ⟨reply, later, rfl, started⟩ := Plan.makes_ask.1 h
    cases reply with
    | error e => cases (Plan.makes_done.1 started).1
    | ok pid =>
      obtain ⟨⟨⟩, last, rfl, ends⟩ := Plan.makes_ask.1 started
      obtain ⟨e, rfl⟩ := Plan.makes_done.1 ends
      cases e
      exact ⟨rfl, rfl⟩

theorem exchanges_append (pre : List Use) (u : Use) (post : List Use) :
    exchanges (pre ++ u :: post) = exchanges pre ++ u.own ++ exchanges post := by
  rw [exchanges, List.flatMap_append, List.flatMap_cons, List.append_assoc]
  rfl

/-- Whatever is done with a target that was launched, and whatever the replies are: how it ended
stays as it was once told; once stopped it is left alone; until then every termination, and the
drop, tries all over; and its group is published from the end of the launch until a termination has
succeeded or the drop has ended, and not after that. -/
theorem launched_orderly {argv : List String} {out err : Handle} {how : Terminator}
    {comm : Option String} {start : Trace} {uses : List Use} (past : Trace)
    (launched : (Target.launch argv out err how comm).outcome.Makes (.ok t) start)
    (history : History t uses) (remembers : Remembers t.pid (exchanges uses)) :
    Orderly (past ++ start) t uses := by
  obtain ⟨started, fresh⟩ := launched_of_makes launched
  have unknown : t.finished = none := by rw [fresh]
  have running : t.stopped = false := by rw [fresh]
  have known : Known t [] t :=
    ⟨rfl, rfl, fun status told => (by cases unknown.symm.trans told),
      fun stopped => (by cases running.symm.trans stopped)⟩
  have shown : published (past ++ start) = some t.pid := by
    rw [started, List.append_cons, published_concat]
    rfl
  -- what is known after something was done
  have after {pre post : List Use} {u : Use} (split : uses = pre ++ u :: post) :
      u.Made ∧ History u.after post ∧ Known t (exchanges pre ++ u.own) u.after ∧
        Remembers t.pid (exchanges pre ++ u.own ++ exchanges post) := by
    subst split
    obtain ⟨made, rest⟩ := history.of_append
    have before := history.known known remembers
    rw [exchanges_append] at remembers
    exact ⟨made, rest, (made.keeps before remembers.of_append_left).1, remembers⟩
  constructor
  case told =>
    intro pre u post status split asked v hv r answered
    obtain ⟨made, rest, knows, remembers⟩ := after split
    obtain ⟨later, kept⟩ := rest.finished knows remembers (made.finished asked) v hv
    exact later.told kept answered
  case stopped =>
    intro pre u post split ok
    obtain ⟨made, rest, knows, -⟩ := after split
    have stopped := made.stopped_of_ok ok
    obtain ⟨status, ended⟩ := knows.ended stopped
    exact ⟨status, rest.quiet stopped ended⟩
  case failed =>
    intro u hu e failed
    obtain ⟨pre, post, split⟩ := List.append_of_mem hu
    exact (after split).1.running_of_error failed
  case tried =>
    intro pre u mid v post e split failed fails stops
    obtain ⟨made, rest, -⟩ := after split
    have still := rest.running (made.running_of_error failed) fails
    have tries := rest.of_append.1.tries still stops
    have all : uses = (pre ++ u :: mid) ++ v :: post := by rw [split]; simp
    subst all
    have knows := history.known known remembers
    rwa [Tries, knows.pid, knows.terminator] at tries
  case published =>
    intro now within
    obtain ⟨taken, kept⟩ :=
      published_until shown fun e hm => history.requests e (within.subset hm)
    exact ⟨fun gone => taken (history.retracted_of_letGo gone),
      fun held => kept fun retracted => held (history.letGo_of_retracted within retracted)⟩

def seven : Target := { pid := 7, terminator := .direct 0 }

def sevenEnded : Target := { seven with finished := some (.exited 0) }

def sevenStopped : Target := { sevenEnded with stopped := true }

/-- What is asked to stop it once its leader has ended. -/
def sevenStopping : Trace :=
  [⟨.signalGroup 7 .terminate, .ok ()⟩, ⟨.now, (0 : Nat)⟩, ⟨.poll 7, .ok (some (.exited 0))⟩,
    ⟨.list Roster.system.root, .error notPermitted⟩, ⟨.signalGroup 7 0, .error .noSuchTarget⟩,
    ⟨.poll 7, .ok (some (.exited 0))⟩, ⟨.retract 7, ()⟩]

/-- Its group may not be signalled at first; then its leader ends, and it is stopped. After that it
is asked how it ended, stopped once more, and given up. -/
def sevenUses : List Use :=
  [⟨seven, .stopped (.error notPermitted), [⟨.signalGroup 7 .terminate, .error notPermitted⟩],
      seven⟩,
    ⟨seven, .asked (.ok (some (.exited 0))), [⟨.poll 7, .ok (some (.exited 0))⟩], sevenEnded⟩,
    ⟨sevenEnded, .stopped (.ok ()), sevenStopping, sevenStopped⟩,
    ⟨sevenStopped, .asked (.ok (some (.exited 0))), [], sevenStopped⟩,
    ⟨sevenStopped, .stopped (.ok ()), [], sevenStopped⟩,
    ⟨sevenStopped, .dropped, [], sevenStopped⟩]

theorem seven_orderly :
    History seven sevenUses ∧ Remembers 7 (exchanges sevenUses) ∧
      Orderly [⟨.spawn ["t"] 3 4, .ok 7⟩, ⟨.publish 7, ()⟩] seven sevenUses := by
  have launched : (Target.launch ["t"] 3 4 (.direct 0) none).outcome.Makes (.ok seven)
      [⟨.spawn ["t"] 3 4, .ok 7⟩, ⟨.publish 7, ()⟩] :=
    Plan.makes_ask.2 ⟨.ok 7, _, rfl, Plan.makes_ask.2 ⟨(), _, rfl, .done _⟩⟩
  have refused : seven.terminate.Makes (.error notPermitted, seven)
      [⟨.signalGroup 7 .terminate, .error notPermitted⟩] :=
    Plan.makes_ask.2 ⟨.error notPermitted, _, rfl, .done _⟩
  have ended : seven.exitStatus.Makes (.ok (some (.exited 0)), sevenEnded)
      [⟨.poll 7, .ok (some (.exited 0))⟩] :=
    Plan.makes_ask.2 ⟨.ok (some (.exited 0)), _, rfl, .done _⟩
  have stopped : sevenEnded.terminate.Makes (.ok (), sevenStopped) sevenStopping := by
    refine Plan.makes_ask.2 ⟨.ok (), _, rfl, Plan.makes_ask.2 ⟨(0 : Nat), _, rfl, ?_⟩⟩
    refine Plan.makes_ask.2 ⟨.ok (some (.exited 0)), _, rfl, ?_⟩
    refine Plan.makes_ask.2 ⟨.error notPermitted, _, rfl, ?_⟩
    refine Plan.makes_ask.2 ⟨.error .noSuchTarget, _, rfl, ?_⟩
    exact Plan.makes_ask.2 ⟨.ok (some (.exited 0)), _, rfl, Plan.makes_ask.2 ⟨(), _, rfl, .done _⟩⟩
  have known : sevenStopped.exitStatus.Makes (.ok (some (.exited 0)), sevenStopped) [] := .done _
  have again : sevenStopped.terminate.Makes (.ok (), sevenStopped) [] := .done _
  have dropped : sevenStopped.dispose.Makes () [] := .done _
  have history : History seven sevenUses :=
    .cons (.stopped refused) nofun <| .cons (.asked ended) nofun <|
      .cons (.stopped stopped) nofun <| .cons (.asked known) nofun <|
        .cons (.stopped again) nofun <| .cons (.dropped dropped) (fun _ => rfl) (.nil _)
  have remembers : Remembers 7 (exchanges sevenUses) := by
    simp [Remembers, exchanges, sevenUses, sevenStopping]
  exact ⟨history, remembers, launched_orderly [] launched history remembers⟩

end PatchTrial.Trial
