import PatchTrial.Proofs.Trial.Processes

/-!
What is left of a group that was stopped. The lines of the roster are read one after another while
the processes go on, so a look at the group can miss a live member of it. Which ones it can miss is
said here, and it misses no other.

What is proved:
  1. `scan_spec`: when a scan is over, it has told of a live member, or every live member was born
     since the listing began, or its line was not read as text.
  2. `terminate_leaves_none_iff`: so it is when stopping the group has succeeded, and then no member
     lives exactly when no such member does; the leader has been asked for.
  3. `members_outlive_success`: there are such members in runs of both ways to stop a group.
-/
namespace PatchTrial.Trial
open Plan
open Roster.Entry (pidLimit)

variable {g pid : Pid} {w w' : World} {pids : List Pid}

/-- Every live member was overlooked, or its line is yet to be read. -/
def Pending (g : Pid) (w : World) (pids : List Pid) : Prop :=
  ∀ pid, w.IsMember g pid → w.IsOverlooked pid ∨ pid ∈ pids

/-- An entry that tells of a live member. -/
def Shows (g : Pid) (e : Roster.Entry) : Prop := e.group = g ∧ e.isLive = true

theorem Later.pending (h : Later g w w') (hp : Pending g w pids) : Pending g w' pids := by
  intro pid hm
  rcases h.member hm with old | born
  · rcases hp pid old with (unlisted | unread) | later
    · exact .inl (.inl (h.unlisted unlisted))
    · exact .inl (.inr (h.unread ▸ unread))
    · exact .inr later
  · exact .inl (.inl born)

/-- The line of a process is not waited for if it is no live member or was overlooked. -/
theorem Pending.read (h : Pending g w (pid :: pids)) (hm : w.IsMember g pid → w.IsOverlooked pid) :
    Pending g w pids := by
  intro other member
  rcases h other member with overlooked | waits
  · exact .inl overlooked
  · rcases List.mem_cons.1 waits with rfl | later
    · exact .inl (hm member)
    · exact .inr later

theorem Pending.missed (h : Pending g w (pid :: pids)) : Pending g (w.missed pid) pids := by
  have still : Pending g (w.missed pid) (pid :: pids) := by
    intro other member
    rcases h other member with (unlisted | unread) | waits
    · exact .inl (.inl unlisted)
    · exact .inl (.inr (List.mem_cons_of_mem pid unread))
    · exact .inr waits
  exact still.read fun _ => .inr List.mem_cons_self

/-! ## A look at the group -/

/-- One line is read: it tells of a live member, or one line less is yet to be read. -/
theorem info?_spec (g : Pid) (w : World) (pid : Pid) :
    Always (answers g) w (Roster.system.info? pid) fun info w' =>
      w'.reaped = w.reaped ∧ ∀ pids, Pending g w (pid :: pids) →
        (∃ e, info = some e ∧ Shows g e) ∨ Pending g w' pids := by
  unfold Roster.info?
  rw [always_bind, always_request]
  intro reply w' answer
  obtain ⟨u, drift, told⟩ := answer
  have later := drift.later
  rw [pure_eq, always_done, ← later.reaped]
  cases replies_read.1 told with
  | @line p name hp text =>
    refine ⟨rfl, fun pids h => ?_⟩
    rw [p.infoOf?_line, text]
    by_cases shows : p.group = g ∧ p.isLive = true
    · exact .inl ⟨_, rfl, shows.1, (p.isLive_letter pid name).trans shows.2⟩
    · refine .inr ((later.pending h).read fun hm => ?_)
      obtain ⟨q, hq, member⟩ := hm
      cases hp.symm.trans hq
      exact absurd member shows
  | broken hp text => exact ⟨rfl, fun pids h => .inr (later.pending h).missed⟩
  | refused hp e => exact ⟨rfl, fun pids h => .inr (later.pending h).missed⟩
  | gone hp e =>
    refine ⟨rfl, fun pids h => .inr ((later.pending h).read fun hm => ?_)⟩
    obtain ⟨q, hq, -⟩ := hm
    cases hp.symm.trans hq

/-- Lines are read one after another, while the processes go on. -/
theorem infos_spec (g : Pid) (w : World) (pids : List Pid) :
    Always (answers g) w (Roster.system.infos pids) fun entries w' =>
      w'.reaped = w.reaped ∧
        (Pending g w pids → (∃ e ∈ entries, Shows g e) ∨ Pending g w' []) := by
  induction pids generalizing w with
  | nil => exact always_done.2 ⟨rfl, .inr⟩
  | cons pid rest ih =>
    unfold Roster.infos
    rw [always_bind]
    refine (info?_spec g w pid).mono fun info u first => ?_
    rw [always_bind]
    refine (ih u).mono fun more w' next => ?_
    rw [pure_eq, always_done]
    refine ⟨next.1.trans first.1, fun h => ?_⟩
    have head : (∃ e, info = some e ∧ Shows g e) ∨ ((∃ e ∈ more, Shows g e) ∨ Pending g w' []) :=
      (first.2 rest h).imp_right next.2
    cases info with
    | none =>
      rcases head with ⟨e, he, -⟩ | tail
      · cases he
      · exact tail
    | some e =>
      rcases head with ⟨e', he, shows⟩ | ⟨e', he, shows⟩ | pending
      · cases he
        exact .inl ⟨e, List.mem_cons_self, shows⟩
      · exact .inl ⟨e', List.mem_cons_of_mem e he, shows⟩
      · exact .inr pending

/-- A scan tells of a live member, or it overlooked all there are. -/
theorem scan_spec (g : Pid) (w : World) :
    Attempt.Always (answers g) w Roster.system.scan
      (fun entries w' =>
        w'.reaped = w.reaped ∧ ((∃ e ∈ entries, Shows g e) ∨ Pending g w' []))
      fun _ w' => w'.reaped = w.reaped := by
  unfold Roster.scan
  rw [Attempt.always_bind, Attempt.always_of, always_request]
  intro reply u answer
  obtain ⟨v, drift, listed⟩ := answer
  have reaped := drift.later.reaped
  cases replies_list.1 listed with
  | names meanwhile all =>
    have during := meanwhile.later
    refine Attempt.always_lift.2 ((infos_spec g u _).mono fun entries w' h => ?_)
    refine ⟨h.1.trans (during.reaped.trans reaped), h.2 fun pid hm => ?_⟩
    by_cases born : pid ∈ u.unlisted
    · exact .inl (.inl born)
    · -- it was there when the listing began
      obtain ⟨p, hp, -⟩ := (during.member hm).resolve_right born
      obtain ⟨q, hq, -⟩ := hm
      exact .inr (List.mem_filterMap.2
        ⟨_, all pid p q hp hq born, Roster.pidOfName?_toString (v.bounded hp)⟩)
  | failed e => exact reaped

theorem groupIsLive_spec (g : Pid) (w : World) :
    Attempt.Always (answers g) w (Roster.system.groupIsLive g)
      (fun alive w' => w'.reaped = w.reaped ∧ (alive = false → Pending g w' []))
      fun _ w' => w'.reaped = w.reaped := by
  unfold Roster.groupIsLive
  rw [Attempt.always_bind]
  refine (scan_spec g w).mono (fun entries w' h => ?_) fun _ _ => id
  refine Attempt.always_pure.2 ⟨h.1, fun none => h.2.resolve_left fun some => ?_⟩
  obtain ⟨e, he, group, live⟩ := some
  have all := List.any_eq_false.1 none e he
  rw [group, live, beq_self_eq_true] at all
  exact all rfl

/-- A group that does not seem to be alive has only live members that were overlooked. -/
theorem groupIsAlive_spec (g : Pid) (w : World) :
    Always (answers g) w (groupIsAlive g) fun alive w' =>
      w'.reaped = w.reaped ∧ (alive = false → Pending g w' []) := by
  unfold groupIsAlive
  rw [always_bind]
  refine Plan.Always.mono (groupIsLive_spec g w) fun outcome u looked => ?_
  cases outcome with
  | ok alive => exact always_done.2 looked
  | error e =>
    -- the roster cannot be read, so the group itself is asked for
    rw [always_bind, always_request]
    intro reply w' answer
    obtain ⟨v, drift, replied⟩ := answer
    obtain ⟨signalled, rfl⟩ := replies_signal.1 replied
    have reaped := drift.later.reaped.trans looked
    cases signalled with
    | sent hp group => exact always_done.2 ⟨reaped, fun h => nomatch h⟩
    | gone none =>
      refine always_done.2 ⟨reaped, fun _ pid hm => ?_⟩
      obtain ⟨p, hp, group, -⟩ := hm
      exact absurd group (none pid p hp)
    | denied => exact always_done.2 ⟨reaped, fun h => nomatch h⟩

/-! ## Stopping the group -/

/-- The leader has been asked for, and every live member was overlooked. -/
def Swept (g : Pid) (w : World) : Prop := w.reaped.isSome = true ∧ Pending g w []

theorem waitFrom_spec (g : Pid) (w : World) (graceMs start looks : Nat) :
    Attempt.Always (answers g) w (waitFrom g graceMs start looks)
      (fun gone w' => gone = true → Swept g w') fun _ _ => True := by
  induction looks generalizing w with
  | zero => exact Attempt.always_pure.2 fun h => nomatch h
  | succ looks ih =>
    -- a look that does not find the group gone leaves nothing for the looks after it
    have again (u : World) : Attempt.Always (answers g) u
        (do
          if graceMs * 1000 ≤ (← Plan.request .now) - start then return false
          Plan.request (.sleep pollMs)
          waitFrom g graceMs start looks)
        (fun gone w' => gone = true → Swept g w') fun _ _ => True := by
      refine Attempt.always_bind.2 (Attempt.always_lift.2 fun now v _ => ?_)
      split
      · exact Attempt.always_pure.2 fun h => nomatch h
      · exact Attempt.always_bind.2 (Attempt.always_lift.2 fun _ v' _ => ih v')
    refine Attempt.always_bind.2 (Attempt.always_of.2 (always_request.2 fun reply u answer => ?_))
    obtain ⟨v, drift, replied⟩ := answer
    have polled := replies_poll.1 replied
    cases reply with
    | error e => exact trivial
    | ok ended =>
      cases ended with
      | none => exact again u
      | some status =>
        have reaped : u.reaped = some status := by
          cases polled with
          | known h => exact h
          | ended h hp _ => rfl
        refine Attempt.always_bind.2 (Attempt.always_lift.2 ?_)
        refine (groupIsAlive_spec g u).mono fun alive w' looked => ?_
        cases alive with
        | true => exact again w'
        | false =>
          refine Attempt.always_pure.2 fun _ => ⟨?_, looked.2 rfl⟩
          rw [looked.1, reaped]
          rfl

theorem waitForGroup_spec (g : Pid) (w : World) (graceMs : Nat) :
    Attempt.Always (answers g) w (waitForGroup g graceMs)
      (fun gone w' => gone = true → Swept g w') fun _ _ => True :=
  Attempt.always_bind.2 (Attempt.always_lift.2 fun now u _ => waitFrom_spec g u graceMs now _)

/-- One round: something is sent to the group, and it is waited for; if it is not gone, there is
the rest. -/
theorem round_spec {send rest : Attempt IoError Unit} (graceMs : Nat)
    (hrest : ∀ u, Attempt.Always (answers g) u rest (fun _ w' => Swept g w') fun _ _ => True) :
    Attempt.Always (answers g) w
      (do
        send
        if ← waitForGroup g graceMs then return ()
        rest)
      (fun _ w' => Swept g w') fun _ _ => True := by
  -- nothing is needed of what is sent
  have sent : Attempt.Always (answers g) w send (fun _ _ => True) fun _ _ => True := by
    intro r u _
    cases r <;> exact trivial
  refine Attempt.always_bind.2 (sent.mono (fun _ u _ => ?_) fun _ _ => id)
  refine Attempt.always_bind.2 ((waitForGroup_spec g u graceMs).mono ?_ fun _ _ => id)
  intro gone u' waited
  cases gone with
  | true => exact Attempt.always_pure.2 (waited rfl)
  | false => exact hrest u'

theorem terminate_spec (t : Terminator) (g : Pid) (w : World) :
    Attempt.Always (answers g) w (t.terminate g) (fun _ w' => Swept g w') fun _ _ => True :=
  round_spec t.graceMs fun _ => round_spec t.graceMs fun _ => Attempt.always_throw.2 trivial

/-- When stopping a group has succeeded, its leader has ended and was asked how. From then on the
group has no live member exactly when it has none that the last look at the roster overlooked:
none that was born since the last listing began, or whose line was not read as text. -/
theorem terminate_leaves_none_iff {t : Terminator} {g : Pid} {w w' w'' : World}
    (run : Runs (answers g) w (t.terminate g).outcome (.ok ()) w') (drift : Drift g w' w'') :
    w''.reaped.isSome = true ∧
      ((∀ pid, ¬ w''.IsMember g pid) ↔ ∀ pid, w''.IsOverlooked pid → ¬ w''.IsMember g pid) := by
  have swept : Swept g w' := terminate_spec t g w _ w' run
  have later := drift.later
  refine ⟨later.reaped ▸ swept.1, fun none pid _ => none pid, fun none pid hm => ?_⟩
  rcases later.pending swept.2 pid hm with overlooked | waits
  · exact none pid overlooked hm
  · cases waits

/-! ## Runs in which the first look is enough -/

/-- A group with a process in it can be told to end. -/
theorem runs_tell {t : Terminator} {g pid : Pid} {w : World} {p : Process}
    (ht : ∀ graceMs, t ≠ .escalated [] graceMs) (hp : w.table pid = some p) (group : p.group = g) :
    Runs (answers g) w (t.tell g).outcome (.ok ()) w := by
  cases t with
  | direct graceMs =>
    have sent : answers g w (.signalGroup g .terminate) (.ok ()) w :=
      ⟨w, .refl w, replies_signal.2 ⟨.sent hp group, rfl⟩⟩
    exact runs_bind.2 ⟨.ok (), w, runs_request sent, .done w _⟩
  | escalated wrapper graceMs =>
    cases wrapper with
    | nil => exact absurd rfl (ht graceMs)
    | cons program arguments =>
      have ran : answers g w (.run (killCommand (program :: arguments) g "-TERM") none none)
          (.ok (.exited 0)) w := ⟨w, .refl w, rfl⟩
      exact Attempt.runs_bind (Attempt.runs_of (runs_request ran)) (.done w _)

/-- A line that is read tells what is read from it. -/
theorem runs_infos {pid : Pid} {pids : List Pid} {u : World} {reply : Except IoError Bytes}
    {more : List Roster.Entry} (told : answers g w (.read (Roster.system.linePath pid)) reply u)
    (rest : Runs (answers g) u (Roster.system.infos pids) more w') :
    Runs (answers g) w (Roster.system.infos (pid :: pids))
      ((Roster.infoOf? pid reply).toList ++ more) w' := by
  have first : Runs (answers g) w (Roster.system.info? pid) (Roster.infoOf? pid reply) u :=
    runs_bind.2 ⟨reply, u, runs_request told, .done u _⟩
  refine runs_bind.2 ⟨_, u, first, runs_bind.2 ⟨more, w', rest, ?_⟩⟩
  cases Roster.infoOf? pid reply <;> exact .done w' _

/-- If the leader has ended and no line that is read tells of a live member, the first look at the
group is enough. -/
theorem runs_terminate {t : Terminator} {g : Pid} {w w' : World} {p : Process} {pids : List Pid}
    {entries : List Roster.Entry} (status : ExitStatus)
    (ht : ∀ graceMs, t ≠ .escalated [] graceMs) (hr : w.reaped = none) (hp : w.table g = some p)
    (group : p.group = g) (ended : p.isLive = false) (hl : ∀ pid ∈ pids, pid ≤ pidLimit)
    (all : ∀ pid q, (w.reap g status).table pid = some q → pid ∈ pids)
    (told : Runs (answers g) (w.reap g status).listed (Roster.system.infos pids) entries w')
    (none : entries.any (fun e => e.group == g && e.isLive) = false) :
    Runs (answers g) w (t.terminate g).outcome (.ok ()) w' := by
  -- nothing happens between these requests: what there is to overlook is overlooked in the scan
  have polled : answers g w (.poll g) (.ok (some status)) (w.reap g status) :=
    ⟨w, .refl w, replies_poll.2 (.ended hr hp ended)⟩
  have listed : answers g (w.reap g status) (.list Roster.system.root)
      (.ok (pids.map fun pid => Utf8.encode (toString pid))) (w.reap g status).listed :=
    ⟨_, .refl _, replies_list.2 (.names (.refl _) fun pid q _ hq _ _ =>
      List.mem_map_of_mem (all pid q hq))⟩
  have now : answers g w .now 0 w := ⟨w, .refl w, rfl⟩
  have scanned : Runs (answers g) (w.reap g status) Roster.system.scan.outcome (.ok entries) w' := by
    refine Attempt.runs_bind (Attempt.runs_of (runs_request listed)) (Attempt.runs_lift ?_)
    rw [Roster.filterMap_pidOfName? hl]
    exact told
  have looked : Runs (answers g) (w.reap g status) (groupIsAlive g) false w' := by
    refine runs_bind.2 ⟨.ok false, w', Attempt.runs_bind scanned ?_, .done w' false⟩
    rw [none]
    exact .done w' _
  have waited : Runs (answers g) w (waitForGroup g t.graceMs).outcome (.ok true) w' := by
    refine Attempt.runs_bind (Attempt.runs_lift (runs_request now)) ?_
    refine Attempt.runs_bind (Attempt.runs_of (runs_request polled)) ?_
    refine Attempt.runs_bind (Attempt.runs_lift looked) ?_
    exact .done w' _
  exact Attempt.runs_bind (runs_tell ht hp group) (Attempt.runs_bind waited (.done w' _))

def inGroup (comm : Bytes) (doing : Doing) : Process where
  comm := comm
  doing := doing
  parent := 1
  group := 7
  more := ""
  parent_le := by decide
  group_le := by decide
  more_plain := Utf8.plain_of_all rfl
  more_blank := fun _ h => nomatch h
  more_open := List.not_mem_nil

/-- The leader of group 7 has ended; there may be one more process. -/
def withLeader (other : Option Process) : World where
  table pid := if pid = 7 then some (inGroup [] .zombie) else if pid = 101 then other else none
  bounded := by
    intro pid p hp
    by_cases leader : pid = 7
    · rw [leader]
      decide
    · by_cases one : pid = 101
      · rw [one]
        decide
      · rw [if_neg leader, if_neg one] at hp
        cases hp

theorem withLeader_table {other : Option Process} {status : ExitStatus} {pid : Pid} {q : Process}
    (h : ((withLeader other).reap 7 status).table pid = some q) : pid = 101 ∧ other = some q := by
  replace h : (if pid = 7 then none else (withLeader other).table pid) = some q := h
  by_cases leader : pid = 7
  · rw [if_pos leader] at h
    cases h
  · rw [if_neg leader] at h
    replace h : (if pid = 7 then _ else if pid = 101 then other else none) = some q := h
    rw [if_neg leader] at h
    by_cases one : pid = 101
    · rw [if_pos one] at h
      exact ⟨one, h⟩
    · rw [if_neg one] at h
      cases h

/-- The machine after its leader was asked for and the roster was listed. -/
def lookedAt (other : Process) : World := ((withLeader (some other)).reap 7 (.exited 0)).listed

/-- The only line to be read tells of no live member. -/
theorem runs_terminate_one {t : Terminator} {other : Process} {w' : World}
    {reply : Except IoError Bytes} (ht : ∀ graceMs, t ≠ .escalated [] graceMs)
    (told : answers 7 (lookedAt other) (.read (Roster.system.linePath 101)) reply w')
    (none : (Roster.infoOf? 101 reply).toList.any (fun e => e.group == 7 && e.isLive) = false) :
    Runs (answers 7) (withLeader (some other)) (t.terminate 7).outcome (.ok ()) w' := by
  have limit : ∀ pid ∈ [101], pid ≤ pidLimit := by decide
  have all : ∀ pid q, ((withLeader (some other)).reap 7 (.exited 0)).table pid = some q →
      pid ∈ [101] := fun pid q hq => List.mem_singleton.2 (withLeader_table hq).1
  refine runs_terminate (p := inGroup [] .zombie) (.exited 0) ht rfl rfl rfl rfl limit all
    (runs_infos told (.done w' [])) ?_
  rw [List.append_nil]
  exact none

/-- A live process may fork and end, and nothing is asked in between. -/
theorem drift_fork_end {g pid child : Pid} {w : World} {p q p' : Process}
    (hp : w.table pid = some p) (live : p.isLive = true) (free : w.table child = none)
    (h : child ≤ pidLimit) (group : q.group = p.group) (ended : p'.isLive = false)
    (group' : p'.group = p.group) :
    Drift g w ((w.born child q h).put pid p' (w.bounded hp)) := by
  have same : (w.born child q h).table pid = some p := by
    have other : pid ≠ child := by
      intro e
      rw [← e, hp] at free
      cases free
    exact (World.put_other w h other).trans hp
  refine .head (.fork hp live free h group) (.head (.change same ?_ (.inl group')) (.refl _))
  rw [ended]
  exact fun h => nomatch h

/-- The process of group 7 that is looked at, while it sleeps and when it has ended. -/
def member (doing : Doing) : Process := inGroup (Utf8.encode "t") doing

theorem member_text (doing : Doing) : (member doing).name? = some "t" :=
  Utf8.decode?_eq_some_iff.2 rfl

/-- What the member leaves behind that forks after the listing and ends before its own line is
read. -/
def leftBehind : World :=
  ((lookedAt (member .sleeping)).born 102 (member .sleeping) (by decide)).put 101 (member .zombie)
    (by decide)

theorem drift_leftBehind : Drift 7 (lookedAt (member .sleeping)) leftBehind :=
  drift_fork_end (p := member .sleeping) rfl rfl rfl (by decide) rfl rfl rfl

/-- The member ended, so its line tells of no live member, and this look is enough. -/
theorem runs_terminate_ended {t : Terminator} {w' : World}
    (ht : ∀ graceMs, t ≠ .escalated [] graceMs) (drift : Drift 7 (lookedAt (member .sleeping)) w')
    (ended : w'.table 101 = some (member .zombie)) :
    Runs (answers 7) (withLeader (some (member .sleeping))) (t.terminate 7).outcome (.ok ()) w' := by
  refine runs_terminate_one ht ⟨_, drift, replies_read.2 (.line ended (member_text _))⟩ ?_
  rw [Process.infoOf?_line, member_text]
  rfl

/-- A live member forks while the roster is read, its child ends, and it ends itself before its own
line is read: the child was overlooked, and nothing lives. -/
theorem members_end_meanwhile :
    (withLeader (some (member .sleeping))).IsMember 7 101 ∧
    ∃ w', Runs (answers 7) (withLeader (some (member .sleeping)))
        ((Terminator.escalated ["sudo"] 5000).terminate 7).outcome (.ok ()) w' ∧
      w'.IsOverlooked 102 ∧ ∀ pid, ¬ w'.IsMember 7 pid := by
  have childEnds : Drift 7 leftBehind (leftBehind.put 102 (member .zombie) (by decide)) :=
    .head (.change (p := member .sleeping) (q := member .zombie) rfl (fun h => nomatch h) (.inl rfl))
      (.refl _)
  have run := runs_terminate_ended (t := .escalated ["sudo"] 5000) (by simp)
    (drift_leftBehind.trans childEnds) rfl
  refine ⟨⟨member .sleeping, rfl, rfl, rfl⟩, _, run, .inl List.mem_cons_self, ?_⟩
  refine (terminate_leaves_none_iff run (.refl _)).2.2 fun pid overlooked => ?_
  rintro ⟨p, hp, -, live⟩
  rcases overlooked with unlisted | unread
  · obtain rfl := List.mem_singleton.1 unlisted
    cases hp
    cases live
  · cases unread

/-- A child outlives a success: its parent forks after the listing, and ends before its own line is
read. -/
theorem child_outlives {t : Terminator} (ht : ∀ graceMs, t ≠ .escalated [] graceMs) :
    ∃ w', Runs (answers 7) (withLeader (some (member .sleeping))) (t.terminate 7).outcome (.ok ())
      w' ∧ w'.IsMember 7 102 ∧ w'.unread = [] :=
  ⟨_, runs_terminate_ended ht drift_leftBehind rfl, ⟨member .sleeping, rfl, rfl, rfl⟩, rfl⟩

/-- A process whose name is no text outlives a success. -/
theorem nameless_outlives {t : Terminator} (ht : ∀ graceMs, t ≠ .escalated [] graceMs) :
    ∃ w', Runs (answers 7) (withLeader (some (inGroup [0xFF] .sleeping)))
      (t.terminate 7).outcome (.ok ()) w' ∧ w'.IsMember 7 101 ∧ w'.unlisted = [] := by
  have text : (inGroup [0xFF] .sleeping).name? = none := by
    show Utf8.decode? [0xFF] = none
    have broken : Utf8.next? [0xFF] = some (none, []) := rfl
    rw [Utf8.decode?, Utf8.parts_of_next? broken]
    rfl
  refine ⟨_, runs_terminate_one ht ⟨_, .refl _,
    replies_read.2 (.broken (p := inGroup [0xFF] .sleeping) rfl text)⟩ ?_, ?_, rfl⟩
  · rw [Process.infoOf?_line, text]
    rfl
  · exact ⟨inGroup [0xFF] .sleeping, rfl, rfl, rfl⟩

/-- Live members outlive a success in both ways to stop a group. -/
theorem members_outlive_success :
    (∃ w', Runs (answers 7) (withLeader (some (member .sleeping)))
        ((Terminator.direct 5000).terminate 7).outcome (.ok ()) w' ∧
      w'.IsMember 7 102 ∧ w'.unread = []) ∧
    ∃ w', Runs (answers 7) (withLeader (some (inGroup [0xFF] .sleeping)))
        ((Terminator.escalated ["sudo"] 5000).terminate 7).outcome (.ok ()) w' ∧
      w'.IsMember 7 101 ∧ w'.unlisted = [] := by
  constructor
  · exact child_outlives (by simp)
  · exact nameless_outlives (by simp)

end PatchTrial.Trial
