import PatchTrial.Proofs.Trial.Tenure
import PatchTrial.Proofs.Trial.Untroubled
import PatchTrial.Proofs.Trial.Uses

/-!
Targets that cannot be stopped. That a target goes on after it was to be stopped is noted; then the
target is given up, and its log is judged.

What is proved:
  1. `reaches_await_iff`: to give a target up, its leader is waited for when a second termination has
     failed and both the group and the leader were to be killed, whatever came of that.
  2. `outlived_trial`: the wait finds the leader running exactly if the kill before it was refused;
     otherwise the target does not matter any more, and the verdict is that on the log.
  3. `refused_kill_waits`: a target that may not be signalled is waited for while it runs.
-/
namespace PatchTrial.Trial

/-- A trial up to the launch of its target. -/
def upToLaunch (c : Setting) (s : Scenario) : Step Target := do
  Step.log (c.log.banner (title s.root))
  generate c s
  launch c s

/-- A trial has come to where its target is given up: the target had not ended when it was looked
at, it could not be stopped after that, and this was noted. -/
inductive Outlived (c : Setting) (s : Scenario) (t : Target) : Trace → Prop
  | intro {started looked : Target} {pid : Pid} {e : IoError}
    {launched found applied asked tried noted : Trace}
    (launch : (upToLaunch c s).outcome.Makes (.ok started) launched)
    (find : (findProgram c s started).outcome.Makes (.ok pid) found)
    (apply : (apply c s pid).outcome.Makes (.ok ()) applied)
    (look : started.exitStatus.Makes (.ok none, looked) asked)
    (stop : looked.terminate.Makes (.error e, t) tried)
    (note : (Step.log (c.log.line (survivorLine pid e))).outcome.Makes (.ok ()) noted) :
    Outlived c s t (launched ++ (found ++ (applied ++
      (⟨.sleep s.observeMs, ()⟩ :: asked ++ (tried ++ noted)))))

/-- A target whose termination failed does not count as stopped. -/
theorem Outlived.running {c : Setting} {s : Scenario} {t : Target} {past : Trace}
    (outlived : Outlived c s t past) : t.stopped = false := by
  obtain ⟨_, _, _, _, stop, _⟩ := outlived
  cases stopped_of_makes stop with
  | failed running => exact running
  | unasked running => exact running

/-- Whether a request lasts until a process has ended. -/
def lasts : Request → Bool
  | .run _ _ _ => true
  | .await _ => true
  | _ => false

variable {c : Setting} {s : Scenario} {t : Target} {past own : Trace}

/-! ## Work with a target -/

section WithTarget
variable {α β : Type} {t' : Target} {r : Except Failure α} {more later : Trace}

theorem makes_step {x : Step α} (h : x.outcome.Makes r more) :
    ((WithTarget.step x).run.run t).Makes (r, t) more := by
  have all : ((WithTarget.step x).run.run t).Makes (r, t) (more ++ []) := h.bind (.done (r, t))
  rwa [List.append_nil] at all

theorem makes_then {x : WithTarget α} {f : α → WithTarget β} {a : α} {q : Except Failure β × Target}
    (h : (x.run.run t).Makes (.ok a, t') more) (hf : ((f a).run.run t').Makes q later) :
    ((x >>= f).run.run t).Makes q (more ++ later) := h.bind hf

theorem makes_operate {f : IoError → Failure} {op : Target → Plan (Except IoError α × Target)}
    {q : Except IoError α} (h : (op t).Makes (q, t') more) :
    ((WithTarget.operate f op).run.run t).Makes (q.mapError f, t') more := by
  have all : ((WithTarget.operate f op).run.run t).Makes (q.mapError f, t') (more ++ []) :=
    h.bind (.done _)
  rwa [List.append_nil] at all

end WithTarget

theorem makes_observe {started looked : Target} {asked : Trace} (pid : Pid)
    (look : started.exitStatus.Makes (.ok none, looked) asked) :
    ((observe c s pid).run.run started).Makes (.ok (), looked)
      (⟨.sleep s.observeMs, ()⟩ :: asked) := by
  have slept : ((WithTarget.step (liftM (Plan.request (.sleep s.observeMs)))).run.run started).Makes
      (.ok (), started) [⟨.sleep s.observeMs, ()⟩] :=
    makes_step (Plan.makes_ask.2 ⟨(), [], rfl, .done _⟩)
  have looks : ((WithTarget.operate (Failure.refused ("poll target pid " ++ toString pid))
      Target.exitStatus).run.run started).Makes (.ok none, looked) asked := makes_operate look
  rw [← List.append_nil asked, ← List.singleton_append]
  exact makes_then slept (makes_then looks (.done _))

theorem makes_stop {looked : Target} {pid : Pid} {e : IoError} {tried noted : Trace}
    (fails : looked.terminate.Makes (.error e, t) tried)
    (note : (Step.log (c.log.line (survivorLine pid e))).outcome.Makes (.ok ()) noted) :
    ((stop c pid).run.run looked).Makes (.ok (), t) (tried ++ noted) := by
  have written := note.bind (f := fun r : Except Failure Unit => Plan.done (r, t)) (.done _)
  rw [List.append_nil] at written
  exact fails.bind written

/-- What is done while a target runs, if it cannot be stopped. -/
theorem attended_of_outlived (outlived : Outlived c s t past) :
    ∃ started launched attended, past = launched ++ attended ∧
      (upToLaunch c s).outcome.Makes (.ok started) launched ∧
        ((attend c s).run.run started).Makes (.ok (), t) attended := by
  obtain @⟨started, looked, pid, e, launched, found, applied, asked, tried, noted, launch, find,
    patched, look, fails, note⟩ := outlived
  have got : ((get : WithTarget Target).run.run started).Makes (.ok started, started) [] := .done _
  have observed := makes_observe (c := c) (s := s) pid look
  have attended := makes_then (f := fun t => do
      let pid ← WithTarget.step (findProgram c s t)
      WithTarget.step (apply c s pid)
      observe c s pid
      stop c pid) got
    (makes_then (makes_step find) (makes_then (makes_step patched)
      (makes_then observed (makes_stop fails note))))
  exact ⟨started, launched, _, rfl, launch, attended⟩

/-! ## The rest of a trial -/

/-- The judgment on the log, if nothing went wrong before. -/
def judging (c : Setting) (s : Scenario) (v : Validator) :
    Except Failure Unit → Plan (Except Failure Unit)
  | .error f => .done (.error f)
  | .ok () => (judge c s v).outcome

/-- A trial after its target was launched, or was not. -/
def afterLaunch (c : Setting) (s : Scenario) (v : Validator) :
    Except Failure Target → Plan (Except Failure Unit)
  | .error f => .done (.error f)
  | .ok t => (attend c s).run.run t >>= fun p => p.2.dispose >>= fun _ => judging c s v p.1

/-- The record of a failure. -/
def recording (c : Setting) : Except Failure Unit → Plan (Except Failure Unit)
  | .error f => recordFailure c.log f >>= fun _ => .done (.error f)
  | .ok () => .done (.ok ())

theorem attempt_eq (c : Setting) (s : Scenario) (v : Validator) :
    (attempt c s v).outcome = (upToLaunch c s).outcome >>= afterLaunch c s v := by
  have same : attempt c s v =
      upToLaunch c s >>= fun t => ExceptT.mk (afterLaunch c s v (.ok t)) := by
    simp only [attempt, upToLaunch, bind_assoc]
    refine congrArg (_ >>= ·) (funext fun _ => congrArg (_ >>= ·) (funext fun _ => ?_))
    refine congrArg (_ >>= ·) (funext fun t => congrArg ExceptT.mk ?_)
    refine (Attempt.outcome_bind _ _).trans ?_
    rw [Attempt.outcome_lift, Plan.bind_assoc]
    refine congrArg (_ >>= ·) (funext fun p => (Attempt.outcome_bind _ _).trans ?_)
    rw [Attempt.outcome_lift, Plan.bind_assoc]
    rcases p with ⟨_ | _, t⟩ <;> rfl
  rw [same, Attempt.outcome_bind]
  refine congrArg (_ >>= ·) (funext fun r => ?_)
  cases r <;> rfl

theorem run_eq (c : Setting) (s : Scenario) (v : Validator) :
    run c s v = (upToLaunch c s).outcome >>= fun q => afterLaunch c s v q >>= recording c := by
  rw [← Plan.bind_assoc, ← attempt_eq]
  refine congrArg (_ >>= ·) (funext fun r => ?_)
  cases r <;> rfl

/-- A failure is recorded and stays what it is. -/
theorem recording_makes {q r : Except Failure Unit} {recorded : Trace}
    (h : (recording c q).Makes r recorded) : r = q := by
  cases q with
  | ok u => exact (Plan.makes_done.1 h).1
  | error f =>
    obtain ⟨_, _, _, _, _, ends⟩ := h.of_bind
    exact (Plan.makes_done.1 ends).1

/-- What is left of a trial when its target is given up: this, the judgment, and the record. -/
def leftToDo (c : Setting) (s : Scenario) (v : Validator) (t : Target) :
    Plan (Except Failure Unit) :=
  (t.dispose >>= fun _ => (judge c s v).outcome) >>= recording c

theorem Outlived.makes_iff (outlived : Outlived c s t past) (v : Validator)
    {r : Except Failure Unit} {more : Trace} :
    (run c s v).Makes r (past ++ more) ↔ (leftToDo c s v t).Makes r more := by
  obtain ⟨started, launched, attended, rfl, launch, attend⟩ := attended_of_outlived outlived
  rw [run_eq, List.append_assoc]
  constructor
  · intro all
    have rest := launch.rest all
    rw [afterLaunch, Plan.bind_assoc] at rest
    exact attend.rest rest
  · intro rest
    refine launch.bind ?_
    rw [afterLaunch, Plan.bind_assoc]
    exact attend.bind rest

theorem Outlived.reaches (outlived : Outlived c s t past) (v : Validator) {r : Request}
    (h : (leftToDo c s v t).Reaches own r) : (run c s v).Reaches (past ++ own) r := by
  obtain ⟨started, launched, attended, rfl, launch, attend⟩ := attended_of_outlived outlived
  rw [run_eq, List.append_assoc]
  refine launch.reaches ?_
  rw [afterLaunch, Plan.bind_assoc]
  exact attend.reaches h

theorem leftToDo_makes_iff {v : Validator} {r : Except Failure Unit} {more : Trace} :
    (leftToDo c s v t).Makes r more ↔ ∃ own judged recorded, more = own ++ (judged ++ recorded) ∧
      t.dispose.Makes () own ∧ (judge c s v).outcome.Makes r judged ∧
        (recording c r).Makes r recorded := by
  constructor
  · intro all
    obtain ⟨q, front, recorded, rfl, before, records⟩ := all.of_bind
    obtain ⟨⟨⟩, own, judged, rfl, disposes, judges⟩ := before.of_bind
    obtain rfl := recording_makes records
    exact ⟨own, judged, recorded, List.append_assoc own judged recorded, disposes, judges, records⟩
  · rintro ⟨own, judged, recorded, rfl, disposes, judges, records⟩
    have decided : (t.dispose >>= fun _ => (judge c s v).outcome).Makes r (own ++ judged) :=
      disposes.bind judges
    rw [← List.append_assoc]
    exact decided.bind records

/-! ## Giving a target up -/

/-- A target could not be stopped once more, and then its group was to be killed, whatever came of
that. -/
inductive GivenUp (t : Target) : Trace → Prop
  | intro {e : IoError} {t' : Target} {q : Except IoError Unit} {tried sent : Trace}
    (fails : t.terminate.Makes (.error e, t') tried)
    (signals : (signalGroup t.pid .kill).outcome.Makes q sent) : GivenUp t (tried ++ sent)

/-- What is done with the leader of a group that was to be killed. -/
def lettingGo (pid : Pid) : Plan Unit :=
  .ask (.kill pid) fun _ => .ask (.await pid) fun _ => .ask (.retract pid) .done

theorem lettingGo_awaits {pid : Pid} :
    (lettingGo pid).Reaches own (.await pid) ↔ ∃ reply, own = [⟨.kill pid, reply⟩] := by
  constructor
  · rintro (_ | ⟨reply, _ | ⟨_, _ | ⟨_, ⟨⟩⟩⟩⟩)
    exact ⟨reply, rfl⟩
  · rintro ⟨reply, rfl⟩
    exact .later reply .here

/-- What a termination asks. -/
theorem tends_of_reaches {r : Request} (h : t.terminate.Reaches own r) :
    Tends t.terminator t.pid r ∨ r = .retract t.pid := by
  cases running : t.stopped with
  | true =>
    rw [Target.terminate, if_pos running] at h
    exact absurd h Plan.not_reaches_done
  | false =>
    rw [terminate_eq running] at h
    rcases Plan.reaches_bind.1 h with first | ⟨q, tried, rest, rfl, -, concludes⟩
    · exact .inl ((only_terminate t.terminator t.pid).of_reaches first)
    cases q with
    | error e => exact absurd concludes Plan.not_reaches_done
    | ok u =>
      obtain ⟨-, rfl⟩ | ⟨reply, later, rfl, polled⟩ := Plan.reaches_ask.1 concludes
      · exact .inl .poll
      cases reply with
      | error e => exact absurd polled Plan.not_reaches_done
      | ok status =>
        obtain ⟨-, rfl⟩ | ⟨_, later, rfl, ends⟩ := Plan.reaches_ask.1 polled
        · exact .inr rfl
        · exact absurd ends Plan.not_reaches_done

/-- A termination does not wait for the leader. -/
theorem not_tends_await : ¬ (Tends t.terminator t.pid (.await t.pid) ∨
    Request.await t.pid = .retract t.pid) := by
  rintro (tends | e)
  · cases tends with
    | lookup look => cases look
  · cases e

/-- The leader is waited for right after it was to be killed, whatever came of that, when a
termination has failed and the group was to be killed. -/
theorem reaches_await_iff (running : t.stopped = false) :
    t.dispose.Reaches own (.await t.pid) ↔
      ∃ front reply, own = front ++ [⟨.kill t.pid, reply⟩] ∧ GivenUp t front := by
  rw [dispose_eq running, Plan.reaches_bind,
    or_iff_right fun h => not_tends_await (tends_of_reaches h)]
  constructor
  · rintro ⟨⟨q, t'⟩, tried, rest, rfl, stops, disposes⟩
    cases q with
    | ok u =>
      obtain ⟨-, e⟩ | ⟨_, later, rfl, h⟩ := Plan.reaches_ask.1 disposes
      · cases e
      · exact absurd h Plan.not_reaches_done
    | error e =>
      -- to kill the group is not to wait for its leader
      rcases Plan.reaches_bind.1 disposes with first | ⟨q, sent, last, rfl, signals, h⟩
      · have asked := (only_signalGroup t.terminator t.pid .kill).of_reaches first
        exact absurd (.inl asked) not_tends_await
      · obtain ⟨reply, rfl⟩ := lettingGo_awaits.1 h
        exact ⟨tried ++ sent, reply, (List.append_assoc tried sent _).symm, stops, signals⟩
  · rintro ⟨_, reply, rfl, stops, signals⟩
    rw [List.append_assoc]
    exact ⟨_, _, _, rfl, stops, signals.reaches (lettingGo_awaits.2 ⟨reply, rfl⟩)⟩

/-- Of what is asked to give a target up, only kill commands and the wait for the leader last. -/
theorem lasts_of_reaches {r : Request} (h : t.dispose.Reaches own r) (long : lasts r = true) :
    r = .await t.pid ∨ ∃ wrapper graceMs signal, t.terminator = .escalated wrapper graceMs ∧
      r = .run (killCommand wrapper t.pid signal) none none := by
  cases (only_dispose t).of_reaches h with
  | tends tends =>
    cases tends with
    | lookup look => cases look <;> cases long
    | command through filled => exact .inr ⟨_, _, _, through, rfl⟩
    | _ => cases long
  | await => exact .inl rfl
  | _ => cases long

/-! ## A target that may not be signalled -/

/-- A setting with a wrapper that does not do what it is told. -/
def idleWrapper : Setting := ⟨⟨.ofString "k", ["w"], 0⟩, ⟨.ofString "d.log", 9⟩⟩

def privileged : Scenario := .of (.ofString "t") { elevated := true } {}

def unkilled : Target := { pid := 7, terminator := .escalated ["w"] 0, wrapperComm := some "w" }

/-- A machine on which nothing goes wrong, but no signal is permitted, and the leader of group 7
runs on whatever the wrapper is told. -/
def unkillable : Environment
  | _, .poll _ => .ok none
  | _, .list _ | _, .await _ | _, .kill _ | _, .signalGroup _ _ => .error notPermitted
  | past, .read path =>
    if path = Roster.system.linePath 7 then .ok ((inGroup [] .running).line 7)
    else if path.isAbsolute then .error .notFound
    else untroubled (fun _ _ => false) (fun _ => []) past (.read path)
  | past, r => untroubled (fun _ _ => false) (fun _ => []) past r

/-- That the leader runs on explains what the machine replies. -/
theorem replies_unkillable (past : Trace) (r : Request) :
    Replies 7 (alone .running) r (unkillable past r) (alone .running) := by
  have leader : (alone .running).table 7 = some (inGroup [] .running) := rfl
  cases r with
  | poll pid =>
    by_cases leads : pid = 7
    · subst leads
      exact replies_poll.2 (.running leader rfl)
    · exact (if_neg leads).mpr rfl
  | await pid =>
    by_cases leads : pid = 7
    · subst leads
      exact replies_await.2 (.failed notPermitted)
    · exact (if_neg leads).mpr rfl
  | list path =>
    by_cases roster : path = Roster.system.root
    · subst roster
      exact replies_list.2 (.failed notPermitted)
    · exact (if_neg roster).mpr rfl
  | signalGroup other signal => exact ⟨fun _ => .denied, rfl⟩
  | read path =>
    have other {pid : Pid} (leads : pid ≠ 7) : (alone .running).table pid = none := if_neg leads
    rw [unkillable]
    split
    · next line =>
      subst line
      have text : (inGroup [] .running).name? = some "" := by decide +kernel
      exact replies_read.2 (.line leader text)
    next off =>
    -- no other process is there, so its line is not either
    split
    · by_cases line : ∃ pid, path = Roster.system.linePath pid
      · obtain ⟨pid, rfl⟩ := line
        exact replies_read.2 (.gone (other fun e => off (e ▸ rfl)) _)
      · exact .inr ⟨fun pid e => line ⟨pid, e⟩, rfl⟩
    · next relative => exact replies_still (by simp [isStill, relative]) _ _
  | _ => rfl

/-- Every reply is the one of that machine. -/
def Denied (more : Trace) : Prop := ∀ e ∈ more, ∃ before, e.reply = unkillable before e.request

theorem Denied.append {more later : Trace} (h : Denied more) (h' : Denied later) :
    Denied (more ++ later) := List.forall_mem_append.2 ⟨h, h'⟩

theorem denied_one (before : Trace) (r : Request) : Denied [⟨r, unkillable before r⟩] := by
  intro e hm
  obtain rfl := List.mem_singleton.1 hm
  exact ⟨before, rfl⟩

/-- A process was not killed by its number. -/
def NotKilled (pid : Pid) (more : Trace) : Prop := (⟨.kill pid, .ok ()⟩ : Exchange) ∉ more

theorem Denied.notKilled {more : Trace} (h : Denied more) : NotKilled 7 more := by
  intro hm
  obtain ⟨before, replied⟩ := h _ hm
  cases replied

/-- After any such replies the leader may still run. -/
theorem Denied.possible {since : Trace} (h : Denied since) :
    Possible 7 since (.own (alone .running)) := by
  refine grown (P := fun since => Possible 7 since (.own (alone .running))) h ?_ ?_
  · exact .fresh fresh_alone
  · rintro since e ⟨before, replied⟩ earlier
    exact earlier.exchange (replied ▸ replies_unkillable before e.request)

/-- What a plan comes to on that machine. -/
theorem exists_denied {α : Type} {p : Plan α} {a : α} (ends : (p.play unkillable []).1 = a) :
    ∃ more, p.Makes a more ∧ Denied more := by
  obtain ⟨more, -, makes, denied⟩ := p.exists_makes unkillable []
  exact ⟨more, ends ▸ makes, denied⟩

/-- On that machine the target is launched, outlives its termination, and is given up. -/
theorem unkilled_outlived : ∃ past, Outlived idleWrapper privileged unkilled past ∧
    (∃ start ∈ past, Starts 7 start) ∧ Denied past := by
  obtain ⟨launched, trace, launch, denied⟩ :=
    (upToLaunch idleWrapper privileged).outcome.exists_makes unkillable []
  have denied₁ : Denied launched := denied
  have started : ((upToLaunch idleWrapper privileged).outcome.play unkillable []).1 = .ok unkilled ∧
      (((upToLaunch idleWrapper privileged).outcome.play unkillable []).2.any fun e =>
        made? e = some 7) = true := by decide +kernel
  rw [started.1] at launch
  rw [trace, List.nil_append] at started
  obtain ⟨start, hm, made⟩ := List.any_eq_true.1 started.2
  obtain ⟨found, find, denied₂⟩ : ∃ more,
      (findProgram idleWrapper privileged unkilled).outcome.Makes (.ok 7) more ∧ Denied more :=
    exists_denied (by decide +kernel)
  obtain ⟨applied, patched, denied₃⟩ : ∃ more,
      (apply idleWrapper privileged 7).outcome.Makes (.ok ()) more ∧ Denied more :=
    exists_denied (by decide +kernel)
  obtain ⟨asked, look, denied₄⟩ : ∃ more,
      unkilled.exitStatus.Makes (.ok none, unkilled) more ∧ Denied more :=
    exists_denied (by decide +kernel)
  obtain ⟨tried, fails, denied₅⟩ : ∃ more,
      unkilled.terminate.Makes (.error (unkilled.terminator.survived 7), unkilled) more ∧
        Denied more := exists_denied (by decide +kernel)
  obtain ⟨noted, note, denied₆⟩ : ∃ more,
      (Step.log (idleWrapper.log.line (survivorLine 7
        (unkilled.terminator.survived 7)))).outcome.Makes (.ok ()) more ∧ Denied more :=
    exists_denied (by decide +kernel)
  have slept : Denied [⟨.sleep privileged.observeMs, ()⟩] := denied_one [] _
  refine ⟨_, ⟨launch, find, patched, look, fails, note⟩, ?_, ?_⟩
  · exact ⟨start, List.mem_append_left _ hm, starts_iff.2 (of_decide_eq_true made)⟩
  · exact denied₁.append (denied₂.append (denied₃.append ((slept.append denied₄).append
      (denied₅.append denied₆))))

/-- It cannot be stopped once more, and its group may not be killed either. -/
theorem unkilled_givenUp : ∃ front, GivenUp unkilled front ∧ Denied front := by
  obtain ⟨tried, fails, denied⟩ : ∃ more,
      unkilled.terminate.Makes (.error (unkilled.terminator.survived 7), unkilled) more ∧
        Denied more := exists_denied (by decide +kernel)
  obtain ⟨sent, signals, refused⟩ : ∃ more,
      (signalGroup 7 .kill).outcome.Makes (.error notPermitted) more ∧ Denied more :=
    exists_denied (by decide +kernel)
  exact ⟨tried ++ sent, ⟨fails, signals⟩, denied.append refused⟩

/-! ## What comes of it -/

/-- A target that outlived its termination is given up, and then its log is judged: the verdict is
that on the log. Its leader is waited for when a second termination has failed and its group was to
be killed, and runs then exactly if the kill of the leader was refused after that. Beside this wait
only the kill commands of an escalation last. -/
theorem outlived_trial (outlived : Outlived c s t past) (v : Validator) {runs : Trace → Prop}
    (killed : ∀ more, ¬ runs (more ++ [⟨.kill t.pid, .ok ()⟩])) :
    (∀ own, t.dispose.Reaches own (.await t.pid) ∧ runs (past ++ own) ↔
      ∃ front e, own = front ++ [⟨.kill t.pid, .error e⟩] ∧ GivenUp t front ∧
        runs (past ++ own)) ∧
    (∀ own r, t.dispose.Reaches own r → (run c s v).Reaches (past ++ own) r ∧
      (lasts r = true → r = .await t.pid ∨ ∃ wrapper graceMs signal,
        t.terminator = .escalated wrapper graceMs ∧
          r = .run (killCommand wrapper t.pid signal) none none)) ∧
    ∀ r more, (run c s v).Makes r (past ++ more) ↔
      ∃ own judged recorded, more = own ++ (judged ++ recorded) ∧ t.dispose.Makes () own ∧
        (judge c s v).outcome.Makes r judged ∧ (recording c r).Makes r recorded := by
  refine ⟨fun own => ?waits, fun own r h => ?lasts, fun r more => ?verdict⟩
  case waits =>
    rw [reaches_await_iff outlived.running]
    constructor
    · rintro ⟨⟨front, reply, rfl, givenUp⟩, running⟩
      cases reply with
      | ok u =>
        rw [← List.append_assoc] at running
        exact absurd running (killed _)
      | error e => exact ⟨front, e, rfl, givenUp, running⟩
    · rintro ⟨front, e, rfl, givenUp, running⟩
      exact ⟨⟨front, .error e, rfl, givenUp⟩, running⟩
  case lasts => exact ⟨outlived.reaches v h.bind.bind, lasts_of_reaches h⟩
  case verdict => exact (outlived.makes_iff v).trans leftToDo_makes_iff

/-- A target that no signal reaches was not killed when it is waited for. -/
theorem unkilled_awaited : ∃ past own, Outlived idleWrapper privileged unkilled past ∧
    (∀ more, ¬ NotKilled 7 (more ++ [⟨.kill 7, .ok ()⟩])) ∧
    unkilled.dispose.Reaches own (.await 7) ∧ NotKilled 7 (past ++ own) := by
  obtain ⟨past, outlived, -, denied⟩ := unkilled_outlived
  obtain ⟨front, givenUp, refused⟩ := unkilled_givenUp
  have killed (more : Trace) : ¬ NotKilled 7 (more ++ [⟨.kill 7, .ok ()⟩]) :=
    not_not_intro (List.mem_append_right more (List.mem_singleton_self _))
  have runs := (denied.append (refused.append (denied_one [] (.kill 7)))).notKilled
  obtain ⟨waits, -⟩ := outlived_trial outlived ⟨"", ⟨[], [], .nil⟩⟩ killed
  obtain ⟨awaits, still⟩ := (waits _).2 ⟨front, notPermitted, rfl, givenUp, runs⟩
  exact ⟨past, _, outlived, killed, awaits, still⟩

/-- A target that may not be signalled is waited for while it runs: the wrapper does not kill it,
the harness may not, and the wait does not end as long as it runs. -/
theorem refused_kill_waits : ∃ past own, Outlived idleWrapper privileged unkilled past ∧
    unkilled.dispose.Reaches own (.await 7) ∧
    (∀ v, (run idleWrapper privileged v).Reaches (past ++ own) (.await 7)) ∧
    ∃ before start since w, past ++ own = before ++ start :: since ∧ Starts 7 start ∧
      Possible 7 since (.own w) ∧ w.IsMember 7 7 ∧
        ∀ status w', ¬ Replies 7 w (.await 7) (.ok status) w' := by
  obtain ⟨past, outlived, ⟨start, hm, starts⟩, denied⟩ := unkilled_outlived
  obtain ⟨front, givenUp, refused⟩ := unkilled_givenUp
  have waits : unkilled.dispose.Reaches (front ++ [⟨.kill 7, .error notPermitted⟩]) (.await 7) :=
    (reaches_await_iff rfl).2 ⟨front, _, rfl, givenUp⟩
  obtain ⟨before, since, rfl⟩ := List.append_of_mem hm
  refine ⟨_, _, outlived, waits, fun v => outlived.reaches v waits.bind.bind, before, start,
    since ++ (front ++ [⟨.kill 7, .error notPermitted⟩]), alone .running, ?_, starts, ?_, ?_, ?_⟩
  · rw [List.append_assoc, List.cons_append]
  · have later : Denied since := fun e h =>
      denied e (List.mem_append_right before (List.mem_cons_of_mem start h))
    exact (later.append (refused.append (denied_one [] (.kill 7)))).possible
  · exact fresh_alone.leader
  · intro status w' replied
    cases replies_await.1 replied with
    | known known => cases known
    | ended _ leader ended =>
      cases leader
      cases ended

end PatchTrial.Trial
