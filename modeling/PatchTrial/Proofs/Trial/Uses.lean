import PatchTrial.Proofs.Trial.Custody

/-!
What is done with a target that was launched: it is asked whether it has ended, it is stopped, or it
is given up, and every request may be replied to in any way.

What is proved:
  1. `terminate_told`: a termination succeeds only when the leader was reported to have ended.
  2. `asked_of_makes`, `stopped_of_makes`, `dropped_of_makes`: all there is to each of the three.
  3. `Use.Made.quiet` and `Use.Made.tries`: a target that was stopped is left alone, and to stop or
     give up any other is to try.
  4. `Use.Made.letsGo`: that its group is published is taken back by a termination that succeeds and
     when the target is given up, and by nothing else.
-/
namespace PatchTrial.Trial

/-- Something that is done with a target, and what came of it. -/
inductive Act
  /-- It was asked how it ended. -/
  | asked (r : Except IoError (Option ExitStatus))
  /-- It was to be stopped. -/
  | stopped (r : Except IoError Unit)
  /-- It was given up. -/
  | dropped

/-- What was done with a target: with the target before and after, and with what was asked and
replied meanwhile. -/
structure Use where
  before : Target
  act : Act
  own : Trace
  after : Target

/-- What may come of something that is done with a target. -/
inductive Use.Made : Use → Prop
  | asked {t t' : Target} {r : Except IoError (Option ExitStatus)} {own : Trace} :
    t.exitStatus.Makes (r, t') own → Made ⟨t, .asked r, own, t'⟩
  | stopped {t t' : Target} {r : Except IoError Unit} {own : Trace} :
    t.terminate.Makes (r, t') own → Made ⟨t, .stopped r, own, t'⟩
  | dropped {t : Target} {own : Trace} : t.dispose.Makes () own → Made ⟨t, .dropped, own, t⟩

/-- Nothing is asked, and nothing comes of it but what is known. -/
def Use.Quiet (t : Target) (status : ExitStatus) (u : Use) : Prop :=
  u.before = t ∧ u.own = [] ∧ u.after = t ∧
    (u.act = .asked (.ok (some status)) ∨ u.act = .stopped (.ok ()) ∨ u.act = .dropped)

/-- The request that tells a group to end, if there is a way to tell it. -/
def Terminator.telling? (group : Pid) : Terminator → Option Request
  | direct _ => some (.signalGroup group .terminate)
  | escalated [] _ => none
  | escalated (first :: rest) _ => some (.run (killCommand (first :: rest) group "-TERM") none none)

/-- What is asked begins with all that the terminator of a target asks to stop it. -/
def Tries (t : Target) (own : Trace) : Prop :=
  ∃ r tried rest, own = tried ++ rest ∧ (t.terminator.terminate t.pid).outcome.Makes r tried ∧
    tried.head?.map Exchange.request = t.terminator.telling? t.pid

/-! ## What a termination asks -/

variable {t t' : Target} {own past : Trace}

/-- A leader was reported to have ended. -/
def ToldEnd (pid : Pid) (past : Trace) : Prop :=
  ∃ status, (⟨.poll pid, .ok (some status)⟩ : Exchange) ∈ past

theorem ToldEnd.mono {pid : Pid} {past past' : Trace} (h : ToldEnd pid past)
    (longer : past <+: past') : ToldEnd pid past' := by
  obtain ⟨status, hm⟩ := h
  exact ⟨status, longer.subset hm⟩

/-- A wait finds a group gone only when its leader was reported to have ended. -/
theorem waitFrom_told (pid : Pid) (graceMs start looks : Nat) (past : Trace) :
    (waitFrom pid graceMs start looks).Asks (fun _ _ => True) past
      (fun gone past' => gone = true → ToldEnd pid past') fun _ _ => True := by
  induction looks generalizing past with
  | zero => exact Attempt.asks_pure.2 nofun
  | succ looks ih =>
    -- a look that did not find the end leaves it to the looks after it
    have again (past : Trace) : Attempt.Asks (fun _ _ => True)
        (do
          if graceMs * 1000 ≤ (← Plan.request .now) - start then return false
          Plan.request (.sleep pollMs)
          waitFrom pid graceMs start looks)
        past (fun gone past' => gone = true → ToldEnd pid past') fun _ _ => True := by
      refine Attempt.asks_after fun now past => ?_
      split
      · exact Attempt.asks_pure.2 nofun
      · exact Attempt.asks_after fun _ past => ih past
    refine Attempt.asks_bind.2 (Attempt.asks_of.2 (Plan.asks_request.2 ⟨trivial, fun reply => ?_⟩))
    cases reply with
    | error e => trivial
    | ok ended =>
      cases ended with
      | none => exact again _
      | some status =>
        have told : ToldEnd pid (past ++ [⟨.poll pid, .ok (some status)⟩]) :=
          ⟨status, List.mem_append_right past (List.mem_singleton_self _)⟩
        have looked : (groupIsAlive pid).Asks (fun _ _ => True)
            (past ++ [⟨.poll pid, .ok (some status)⟩]) _ :=
          ((Plan.Only.any _).asks fun _ _ => id).longer
        refine Attempt.asks_bind.2 (Attempt.asks_lift.2 (looked.mono fun alive past' h => ?_))
        cases alive with
        | true => exact again past'
        | false => exact Attempt.asks_pure.2 fun _ => told.mono h.2

theorem waitForGroup_told (pid : Pid) (graceMs : Nat) (past : Trace) :
    (waitForGroup pid graceMs).Asks (fun _ _ => True) past
      (fun gone past' => gone = true → ToldEnd pid past') fun _ _ => True :=
  Attempt.asks_after fun now past => waitFrom_told pid graceMs now _ past

/-- A group is stopped only when its leader was reported to have ended. -/
theorem terminate_told (how : Terminator) (group : Pid) (past : Trace) :
    (how.terminate group).Asks (fun _ _ => True) past (fun _ past' => ToldEnd group past')
      fun _ _ => True := by
  have round {rest : Attempt IoError Unit} (hrest : ∀ past, rest.Asks (fun _ _ => True) past
      (fun _ past' => ToldEnd group past') fun _ _ => True) (past : Trace) :
      Attempt.Asks (fun _ _ => True)
        (do
          if ← waitForGroup group how.graceMs then return ()
          rest)
        past (fun _ past' => ToldEnd group past') fun _ _ => True := by
    refine Attempt.asks_bind.2 ((waitForGroup_told group how.graceMs past).mono ?_ fun _ _ => id)
    intro gone past' told
    cases gone with
    | true => exact Attempt.asks_pure.2 (told rfl)
    | false => exact hrest past'
  refine Attempt.asks_after fun _ past => round (fun past => ?_) past
  exact Attempt.asks_after fun _ past => round (fun past => Attempt.asks_throw.2 trivial) past

theorem toldEnd_of_makes {how : Terminator} {group : Pid}
    (h : (how.terminate group).outcome.Makes (.ok ()) own) : ToldEnd group own :=
  h.of_asks (Attempt.asks_outcome.1 (terminate_told how group []))

/-- A group is told to end first of all. -/
theorem head_of_terminate {how : Terminator} {group : Pid} {r : Except IoError Unit}
    (h : (how.terminate group).outcome.Makes r own) :
    own.head?.map Exchange.request = how.telling? group := by
  cases how with
  | direct graceMs =>
    obtain ⟨reply, later, rfl, -⟩ := Plan.makes_ask.1 h
    rfl
  | escalated wrapper graceMs =>
    cases wrapper with
    | nil =>
      obtain ⟨-, rfl⟩ := Plan.makes_done.1 h
      rfl
    | cons first rest =>
      obtain ⟨reply, later, rfl, -⟩ := Plan.makes_ask.1 h
      rfl

/-! ## All there is to an act -/

/-- What may come of asking a target how it ended. -/
inductive Target.Asked (t : Target) : Except IoError (Option ExitStatus) → Target → Trace → Prop
  | known {status : ExitStatus} (h : t.finished = some status) : Asked t (.ok (some status)) t []
  | told (h : t.finished = none) (status : Option ExitStatus) :
    Asked t (.ok status) { t with finished := status } [⟨.poll t.pid, .ok status⟩]
  | failed (h : t.finished = none) (e : IoError) : Asked t (.error e) t [⟨.poll t.pid, .error e⟩]

/-- What may come of stopping a target. -/
inductive Target.Stops (t : Target) : Except IoError Unit → Target → Trace → Prop
  | already (h : t.stopped = true) : Stops t (.ok ()) t []
  | succeeded {tried : Trace} (running : t.stopped = false)
    (ran : (t.terminator.terminate t.pid).outcome.Makes (.ok ()) tried)
    (status : Option ExitStatus) :
    Stops t (.ok ()) { t with finished := status, stopped := true }
      (tried ++ [⟨.poll t.pid, .ok status⟩, ⟨.retract t.pid, ()⟩])
  | failed {tried : Trace} (running : t.stopped = false) {e : IoError}
    (ran : (t.terminator.terminate t.pid).outcome.Makes (.error e) tried) :
    Stops t (.error e) t tried
  | unasked {tried : Trace} (running : t.stopped = false)
    (ran : (t.terminator.terminate t.pid).outcome.Makes (.ok ()) tried) (e : IoError) :
    Stops t (.error e) t (tried ++ [⟨.poll t.pid, .error e⟩])

/-- What may be asked to give a target up. -/
inductive Target.Drops (t : Target) : Trace → Prop
  | already (h : t.stopped = true) : Drops t []
  | succeeded {t' : Target} {own : Trace} (running : t.stopped = false)
    (stopped : t.terminate.Makes (.ok (), t') own) : Drops t (own ++ [⟨.retract t.pid, ()⟩])
  | killed {t' : Target} {own sent : Trace} {e : IoError} {r : Except IoError Unit}
    (running : t.stopped = false) (stopped : t.terminate.Makes (.error e, t') own)
    (signalled : (signalGroup t.pid .kill).outcome.Makes r sent) (kill : Except IoError Unit)
    (await : Except IoError ExitStatus) :
    Drops t (own ++ sent ++ [⟨.kill t.pid, kill⟩, ⟨.await t.pid, await⟩] ++
      [⟨.retract t.pid, ()⟩])

theorem asked_of_makes {r : Except IoError (Option ExitStatus)}
    (h : t.exitStatus.Makes (r, t') own) : t.Asked r t' own := by
  rw [Target.exitStatus] at h
  cases hf : t.finished with
  | some status =>
    rw [hf] at h
    obtain ⟨e, rfl⟩ := Plan.makes_done.1 h
    cases e
    exact .known hf
  | none =>
    rw [hf] at h
    obtain ⟨reply, later, rfl, ends⟩ := Plan.makes_ask.1 h
    cases reply with
    | ok status =>
      obtain ⟨e, rfl⟩ := Plan.makes_done.1 ends
      cases e
      exact .told hf status
    | error failure =>
      obtain ⟨e, rfl⟩ := Plan.makes_done.1 ends
      cases e
      exact .failed hf failure

theorem stopped_of_makes {r : Except IoError Unit} (h : t.terminate.Makes (r, t') own) :
    t.Stops r t' own := by
  cases running : t.stopped with
  | true =>
    rw [Target.terminate, if_pos running] at h
    obtain ⟨e, rfl⟩ := Plan.makes_done.1 h
    cases e
    exact .already running
  | false =>
    rw [terminate_eq running] at h
    obtain ⟨q, tried, rest, rfl, ran, concludes⟩ := h.of_bind
    cases q with
    | error failure =>
      obtain ⟨e, rfl⟩ := Plan.makes_done.1 concludes
      cases e
      rw [List.append_nil]
      exact .failed running ran
    | ok u =>
      -- the group is gone, but the target is stopped only once its leader was asked for
      obtain ⟨reply, later, rfl, polled⟩ := Plan.makes_ask.1 concludes
      cases reply with
      | error failure =>
        obtain ⟨e, rfl⟩ := Plan.makes_done.1 polled
        cases e
        exact .unasked running ran failure
      | ok status =>
        obtain ⟨⟨⟩, last, rfl, ends⟩ := Plan.makes_ask.1 polled
        obtain ⟨e, rfl⟩ := Plan.makes_done.1 ends
        cases e
        exact .succeeded running ran status

theorem dropped_of_makes (h : t.dispose.Makes () own) : t.Drops own := by
  cases running : t.stopped with
  | true =>
    rw [Target.dispose, if_pos running] at h
    obtain ⟨-, rfl⟩ := Plan.makes_done.1 h
    exact .already running
  | false =>
    rw [dispose_eq running] at h
    obtain ⟨⟨q, t'⟩, stopping, rest, rfl, stopped, disposes⟩ := h.of_bind
    cases q with
    | ok u =>
      obtain ⟨⟨⟩, last, rfl, ends⟩ := Plan.makes_ask.1 disposes
      obtain ⟨-, rfl⟩ := Plan.makes_done.1 ends
      exact .succeeded running stopped
    | error e =>
      obtain ⟨r, sent, left, rfl, signalled, kills⟩ := disposes.of_bind
      obtain ⟨kill, left, rfl, awaits⟩ := Plan.makes_ask.1 kills
      obtain ⟨await, left, rfl, retracts⟩ := Plan.makes_ask.1 awaits
      obtain ⟨⟨⟩, left, rfl, ends⟩ := Plan.makes_ask.1 retracts
      obtain ⟨-, rfl⟩ := Plan.makes_done.1 ends
      have all := Target.Drops.killed running stopped signalled kill await
      simp only [List.append_assoc, List.cons_append, List.nil_append] at all
      exact all

/-- A target that was stopped is left alone. -/
theorem Use.Made.quiet {u : Use} {status : ExitStatus} (h : u.Made)
    (stopped : u.before.stopped = true) (known : u.before.finished = some status) :
    u.Quiet u.before status := by
  cases h with
  | asked makes =>
    cases asked_of_makes makes with
    | known h =>
      cases h.symm.trans known
      exact ⟨rfl, rfl, rfl, .inl rfl⟩
    | told none => cases none.symm.trans known
    | failed none => cases none.symm.trans known
  | stopped makes =>
    cases stopped_of_makes makes with
    | already => exact ⟨rfl, rfl, rfl, .inr (.inl rfl)⟩
    | succeeded running => cases running.symm.trans stopped
    | failed running => cases running.symm.trans stopped
    | unasked running => cases running.symm.trans stopped
  | dropped makes =>
    cases dropped_of_makes makes with
    | already => exact ⟨rfl, rfl, rfl, .inr (.inr rfl)⟩
    | succeeded running => cases running.symm.trans stopped
    | killed running => cases running.symm.trans stopped

/-- Only a termination that succeeds makes a target count as stopped. -/
theorem Use.Made.running {u : Use} (h : u.Made) (running : u.before.stopped = false)
    (fails : u.act ≠ .stopped (.ok ())) : u.after.stopped = false := by
  cases h with
  | asked makes => cases asked_of_makes makes <;> exact running
  | stopped makes =>
    cases stopped_of_makes makes with
    | already => exact running
    | succeeded => exact absurd rfl fails
    | failed => exact running
    | unasked => exact running
  | dropped makes => exact running

theorem Use.Made.stopped_of_ok {u : Use} (h : u.Made) (ok : u.act = .stopped (.ok ())) :
    u.after.stopped = true := by
  cases h with
  | stopped makes =>
    cases ok
    cases stopped_of_makes makes with
    | already stopped => exact stopped
    | succeeded => rfl
  | _ => cases ok

theorem Use.Made.running_of_error {u : Use} {e : IoError} (h : u.Made)
    (failed : u.act = .stopped (.error e)) : u.after.stopped = false := by
  cases h with
  | stopped makes =>
    cases failed
    cases stopped_of_makes makes with
    | failed running => exact running
    | unasked running => exact running
  | _ => cases failed

theorem Target.Stops.tries {r : Except IoError Unit} (h : t.Stops r t' own)
    (running : t.stopped = false) : Tries t own := by
  cases h with
  | already stopped => cases running.symm.trans stopped
  | succeeded _ ran => exact ⟨_, _, _, rfl, ran, head_of_terminate ran⟩
  | failed _ ran => exact ⟨_, _, [], (List.append_nil _).symm, ran, head_of_terminate ran⟩
  | unasked _ ran => exact ⟨_, _, _, rfl, ran, head_of_terminate ran⟩

theorem Tries.append (h : Tries t own) (more : Trace) : Tries t (own ++ more) := by
  obtain ⟨r, tried, rest, rfl, ran, head⟩ := h
  exact ⟨r, tried, rest ++ more, List.append_assoc tried rest more, ran, head⟩

/-- To stop or give up a target that is not stopped is to try. -/
theorem Use.Made.tries {u : Use} (h : u.Made) (running : u.before.stopped = false)
    (stops : u.act = .dropped ∨ ∃ r, u.act = .stopped r) : Tries u.before u.own := by
  cases h with
  | asked makes => rcases stops with other | ⟨r, other⟩ <;> cases other
  | stopped makes => exact (stopped_of_makes makes).tries running
  | dropped makes =>
    cases dropped_of_makes makes with
    | already stopped => cases running.symm.trans stopped
    | succeeded _ first => exact ((stopped_of_makes first).tries running).append _
    | killed _ first =>
      simp only [List.append_assoc]
      exact ((stopped_of_makes first).tries running).append _

/-! ## The published group -/

theorem steady_of_terminate {how : Terminator} {group : Pid} {r : Except IoError Unit}
    (h : (how.terminate group).outcome.Makes r own) : ∀ e ∈ own, IsSteady e.request :=
  fun e hm => ((only_terminate how group).of_makes h e hm).isSteady

theorem Target.Stops.steady_of_error {e : IoError} (h : t.Stops (.error e) t' own) :
    ∀ e ∈ own, IsSteady e.request := by
  cases h with
  | failed _ ran => exact steady_of_terminate ran
  | unasked _ ran =>
    exact List.forall_mem_append.2 ⟨steady_of_terminate ran, by simp [IsSteady]⟩

theorem not_retracted {group : Pid} {front : Trace} (steady : ∀ e ∈ own, IsSteady e.request)
    (within : front <+: own) : ¬ ∃ e ∈ front, e.request = .retract group := by
  rintro ⟨e, hm, taken⟩
  have stays := steady e (within.subset hm)
  rw [taken] at stays
  exact stays

/-- A termination takes it back last of all, when it has succeeded. -/
theorem dismissal_of_stops {r : Except IoError Unit} {front : Trace}
    (makes : t.terminate.Makes (r, t') own) (within : front <+: own)
    (retracted : ∃ e ∈ front, e.request = .retract t.pid) :
    t.stopped = false ∧ ∃ own', own' <+: front ∧ Dismissal t own' := by
  cases r with
  | error e =>
    have steady := (stopped_of_makes makes).steady_of_error
    exact absurd retracted (not_retracted steady within)
  | ok u =>
    cases id (stopped_of_makes makes) with
    | already => exact absurd retracted (not_retracted (List.forall_mem_nil _) within)
    | @succeeded tried running ran status =>
      rw [List.append_cons] at within
      rcases List.prefix_concat_iff.1 within with rfl | before
      · rw [← List.append_cons]
        exact ⟨running, _, List.prefix_rfl, .terminated makes⟩
      · have steady : ∀ e ∈ tried ++ [(⟨.poll t.pid, .ok status⟩ : Exchange)], IsSteady e.request :=
          List.forall_mem_append.2 ⟨steady_of_terminate ran, by simp [IsSteady]⟩
        exact absurd retracted (not_retracted steady before)

/-- That a group is published is taken back only by letting its target go. -/
theorem Use.Made.letsGo {u : Use} {front : Trace} (h : u.Made) (within : front <+: u.own)
    (retracted : ∃ e ∈ front, e.request = .retract u.before.pid) :
    u.before.stopped = false ∧ ∃ own, own <+: front ∧ Dismissal u.before own := by
  cases h with
  | asked makes =>
    refine absurd retracted (not_retracted ?_ within)
    cases asked_of_makes makes <;> simp [IsSteady]
  | stopped makes => exact dismissal_of_stops makes within retracted
  | @dropped t own makes =>
    cases id (dropped_of_makes makes) with
    | already => exact absurd retracted (not_retracted (List.forall_mem_nil _) within)
    | succeeded running first =>
      rcases List.prefix_concat_iff.1 within with rfl | before
      · exact ⟨running, _, List.prefix_append _ _, .terminated first⟩
      · exact dismissal_of_stops first before retracted
    | @killed _ _ sent _ _ running first signalled kill await =>
      rcases List.prefix_concat_iff.1 within with rfl | before
      · exact ⟨running, _, List.prefix_rfl, .disposed makes⟩
      · refine absurd retracted (not_retracted ?_ before)
        refine List.forall_mem_append.2 ⟨List.forall_mem_append.2 ⟨?_, ?_⟩, by simp [IsSteady]⟩
        · exact (stopped_of_makes first).steady_of_error
        · exact fun e hm =>
            ((only_signalGroup t.terminator t.pid .kill).of_makes signalled e hm).isSteady

/-- What concerns the published group in what is done with a target. -/
theorem Use.Made.requests {u : Use} (h : u.Made) :
    ∀ e ∈ u.own, IsSteady e.request ∨ e.request = .retract u.before.pid := by
  have given {t : Target} {r : Request} (h : GivesUp t r) : IsSteady r ∨ r = .retract t.pid := by
    cases h with
    | tends h => exact .inl h.isSteady
    | kill => exact .inl trivial
    | await => exact .inl trivial
    | retract => exact .inr rfl
  cases h with
  | asked makes => cases asked_of_makes makes <;> simp [IsSteady]
  | stopped makes => exact fun e hm => given ((only_stopTarget _).of_makes makes e hm)
  | dropped makes => exact fun e hm => given ((only_dispose _).of_makes makes e hm)

theorem Use.Made.pid_eq {u : Use} (h : u.Made) : u.after.pid = u.before.pid := by
  cases h with
  | asked makes => cases asked_of_makes makes <;> rfl
  | stopped makes => cases stopped_of_makes makes <;> rfl
  | dropped => rfl

end PatchTrial.Trial
