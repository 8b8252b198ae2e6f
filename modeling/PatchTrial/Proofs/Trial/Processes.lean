import PatchTrial.Proofs.Plan.Runs
import PatchTrial.Proofs.Trial.StatLine
import PatchTrial.Trial.Target

/-!
A machine with processes. Between two requests, and so between the readings of two lines of the
roster, processes fork, change, end and vanish in any order. The state of the machine is the table
of its processes; it also keeps which processes the last look at the roster cannot have shown.

What is proved:
  1. `infoOf?_line`: what is read of a process from its line is what the table says, or nothing if
     its name is not text.
  2. `Drift.later`: whatever happens between two requests, a live member of a group was one before,
     or it was born since the last listing of the roster began.
-/
namespace PatchTrial.Trial
open Roster.Entry (pidLimit)

/-! ## Processes and their lines -/

/-- What a process is doing. -/
inductive Doing
  | running
  | sleeping
  | waiting
  | stopped
  | traced
  | parked
  | idle
  /-- It has ended, and nobody has asked how. -/
  | zombie
  | dead
  deriving DecidableEq, Repr

namespace Doing

def letter : Doing → Char
  | running => 'R'
  | sleeping => 'S'
  | waiting => 'D'
  | stopped => 'T'
  | traced => 't'
  | parked => 'P'
  | idle => 'I'
  | zombie => 'Z'
  | dead => 'X'

/-- Whether a process that does so has not ended. -/
def isLive : Doing → Bool
  | zombie => false
  | dead => false
  | _ => true

theorem letter_plain (d : Doing) : Utf8.Plain d.letter := by
  cases d <;> decide

theorem letter_solid (d : Doing) : Text.isBlank d.letter = false ∧ d.letter ≠ ')' := by
  cases d <;> decide

end Doing

structure Process where
  /-- The bytes of its name. -/
  comm : Bytes
  doing : Doing
  parent : Pid
  group : Pid
  /-- What its line tells after the group. -/
  more : String
  parent_le : parent ≤ pidLimit
  group_le : group ≤ pidLimit
  more_plain : ∀ c ∈ more.toList, Utf8.Plain c
  more_blank : Roster.StartsBlank more.toList
  more_open : ')' ∉ more.toList

namespace Process

def isLive (p : Process) : Bool := p.doing.isLive

/-- What stands in front of the name in the line of a process. -/
def front (pid : Pid) : String := toString pid ++ " ("

def back (p : Process) : String :=
  ") " ++ String.singleton p.doing.letter ++ " " ++ toString p.parent ++ " " ++ toString p.group ++
    p.more

def line (p : Process) (pid : Pid) : Bytes :=
  Utf8.encode (front pid) ++ p.comm ++ Utf8.encode p.back

def name? (p : Process) : Option String := Utf8.decode? p.comm

def stat (p : Process) : Roster.Stat where
  comm := p.comm
  state := p.doing.letter
  parent := p.parent
  group := p.group
  more := p.more
  state_plain := p.doing.letter_plain
  state_solid := p.doing.letter_solid.1
  state_open := p.doing.letter_solid.2
  parent_le := p.parent_le
  group_le := p.group_le
  more_plain := p.more_plain
  more_blank := p.more_blank
  more_open := p.more_open

/-- What is read of a process from its line. -/
theorem infoOf?_line (p : Process) (pid : Pid) :
    Roster.infoOf? pid (.ok (p.line pid)) =
      p.name?.map fun name => ⟨pid, name, p.doing.letter, p.parent, p.group⟩ :=
  p.stat.infoOf?_line pid

theorem isLive_letter (p : Process) (pid : Pid) (name : String) :
    Roster.Entry.isLive ⟨pid, name, p.doing.letter, p.parent, p.group⟩ = p.isLive := by
  unfold isLive Roster.Entry.isLive
  cases p.doing <;> rfl

end Process

/-! ## The table of processes -/

/-- The processes of a machine. What the last listing of the roster and the readings after it cannot
have shown is kept beside them. -/
structure World where
  table : Pid → Option Process
  bounded : ∀ {pid p}, table pid = some p → pid ≤ pidLimit
  /-- How the leader of the group ended, once it was asked and its entry given up. -/
  reaped : Option ExitStatus := none
  /-- The processes born since the last listing of the roster began. -/
  unlisted : List Pid := []
  /-- The processes whose lines could not be read since then, or were read while their names were no
  text. -/
  unread : List Pid := []

namespace World
variable {g pid other : Pid} {p : Process}

/-- A process is in the table. -/
def put (w : World) (pid : Pid) (p : Process) (h : pid ≤ pidLimit) : World :=
  { w with
    table := fun other => if other = pid then some p else w.table other
    bounded := by
      intro other q hq
      by_cases e : other = pid
      · exact e ▸ h
      · rw [if_neg e] at hq
        exact w.bounded hq }

/-- A process is no longer in the table. -/
def remove (w : World) (pid : Pid) : World :=
  { w with
    table := fun other => if other = pid then none else w.table other
    bounded := by
      intro other q hq
      by_cases e : other = pid
      · rw [if_pos e] at hq
        cases hq
      · rw [if_neg e] at hq
        exact w.bounded hq }

/-- A process is born. -/
def born (w : World) (pid : Pid) (p : Process) (h : pid ≤ pidLimit) : World :=
  { w.put pid p h with unlisted := pid :: w.unlisted }

/-- A process is a live member of a group. -/
def IsMember (w : World) (g pid : Pid) : Prop :=
  ∃ p, w.table pid = some p ∧ p.group = g ∧ p.isLive = true

/-- No process of the table is in the group, live or not. -/
def IsGone (w : World) (g : Pid) : Prop := ∀ pid p, w.table pid = some p → p.group ≠ g

/-- A process was overlooked: the last look at the roster cannot have shown it. -/
def IsOverlooked (w : World) (pid : Pid) : Prop := pid ∈ w.unlisted ∨ pid ∈ w.unread

theorem put_self (w : World) (h : pid ≤ pidLimit) : (w.put pid p h).table pid = some p := if_pos rfl

theorem put_other (w : World) (h : pid ≤ pidLimit) (hne : other ≠ pid) :
    (w.put pid p h).table other = w.table other := if_neg hne

/-- The members after a process is put in the table. -/
theorem IsMember.of_put {w : World} {h : pid ≤ pidLimit} (hm : (w.put pid p h).IsMember g other) :
    (other = pid ∧ p.group = g ∧ p.isLive = true) ∨ w.IsMember g other := by
  obtain ⟨q, hq, group, live⟩ := hm
  by_cases e : other = pid
  · rw [e, put_self] at hq
    cases hq
    exact .inl ⟨e, group, live⟩
  · rw [put_other w h e] at hq
    exact .inr ⟨q, hq, group, live⟩

theorem IsMember.of_remove {w : World} (hm : (w.remove pid).IsMember g other) :
    w.IsMember g other := by
  obtain ⟨q, hq, group, live⟩ := hm
  by_cases e : other = pid
  · cases (if_pos e).symm.trans hq
  · exact ⟨q, (if_neg e).symm.trans hq, group, live⟩

end World

/-! ## What happens between two requests -/

/-- One event in the life of a process. Nothing joins the group from outside: a child starts in the
group of its parent, and who changes the group goes to another one. -/
inductive Move (g : Pid) : World → World → Prop
  /-- A live process has a child, by a number that is free. -/
  | fork {w : World} {parent child : Pid} {p q : Process} (hp : w.table parent = some p)
    (live : p.isLive = true) (free : w.table child = none) (h : child ≤ pidLimit)
    (group : q.group = p.group) :
    Move g w (w.born child q h)
  /-- A process goes on in any way, or ends; what has ended does not live again. -/
  | change {w : World} {pid : Pid} {p q : Process} (hp : w.table pid = some p)
    (live : q.isLive = true → p.isLive = true) (group : q.group = p.group ∨ q.group ≠ g) :
    Move g w (w.put pid q (w.bounded hp))
  /-- The entry of a process that has ended is given up. That of the leader waits to be asked for. -/
  | vanish {w : World} {pid : Pid} {p : Process} (hp : w.table pid = some p)
    (ended : p.isLive = false) (asked : pid = g → w.reaped.isSome) : Move g w (w.remove pid)

/-- Any number of events. -/
inductive Drift (g : Pid) : World → World → Prop
  | refl (w : World) : Drift g w w
  | head {w w' w'' : World} : Move g w w' → Drift g w' w'' → Drift g w w''

theorem Drift.trans {g : Pid} {w w' w'' : World} (h : Drift g w w') (h' : Drift g w' w'') :
    Drift g w w'' := by
  induction h with
  | refl => exact h'
  | head move _ ih => exact .head move (ih h')

/-- What can be said of a world some events later. -/
structure Later (g : Pid) (w w' : World) : Prop where
  member : ∀ {pid}, w'.IsMember g pid → w.IsMember g pid ∨ pid ∈ w'.unlisted
  unlisted : ∀ {pid}, pid ∈ w.unlisted → pid ∈ w'.unlisted
  unread : w'.unread = w.unread
  reaped : w'.reaped = w.reaped

theorem Later.refl (g : Pid) (w : World) : Later g w w := ⟨.inl, id, rfl, rfl⟩

theorem Later.trans {g : Pid} {w w' w'' : World} (h : Later g w w') (h' : Later g w' w'') :
    Later g w w'' where
  member hm := by
    rcases h'.member hm with hm' | hu
    · exact (h.member hm').imp_right h'.unlisted
    · exact .inr hu
  unlisted hu := h'.unlisted (h.unlisted hu)
  unread := h'.unread.trans h.unread
  reaped := h'.reaped.trans h.reaped

theorem Move.later {g : Pid} {w w' : World} (h : Move g w w') : Later g w w' := by
  cases h with
  | @fork parent child p q hp live free hl group =>
    refine ⟨fun hm => ?_, List.mem_cons_of_mem child, rfl, rfl⟩
    rcases World.IsMember.of_put (h := hl) hm with ⟨e, -, -⟩ | old
    · exact .inr (e ▸ List.mem_cons_self)
    · exact .inl old
  | @change pid p q hp live group =>
    refine ⟨fun hm => .inl ?_, id, rfl, rfl⟩
    rcases hm.of_put with ⟨e, hg, hl⟩ | old
    · -- it has not come from outside the group
      have same : q.group = p.group := group.resolve_right fun hne => hne hg
      exact ⟨p, e ▸ hp, same.symm.trans hg, live hl⟩
    · exact old
  | vanish hp ended asked =>
    exact ⟨fun hm => .inl hm.of_remove, id, rfl, rfl⟩

/-- A live member of the group was one before, or it was born since the last listing
of the roster began. -/
theorem Drift.later {g : Pid} {w w' : World} (h : Drift g w w') : Later g w w' := by
  induction h with
  | refl w => exact .refl g w
  | head move _ ih => exact move.later.trans ih

/-! ## What the machine replies -/

/-- The line of a process was not read, or not read as text. -/
def World.missed (w : World) (pid : Pid) : World := { w with unread := pid :: w.unread }

/-- A listing of the roster begins; nobody is overlooked yet. -/
def World.listed (w : World) : World := { w with unlisted := [], unread := [] }

/-- The leader ended, and its entry is given up. -/
def World.reap (w : World) (g : Pid) (status : ExitStatus) : World :=
  { w.remove g with reaped := some status }

/-- Whether the leader has ended, and how. -/
inductive Polled (g : Pid) (w : World) : Except IoError (Option ExitStatus) → World → Prop
  | known {status : ExitStatus} (h : w.reaped = some status) : Polled g w (.ok (some status)) w
  | ended {status : ExitStatus} {p : Process} (h : w.reaped = none) (hp : w.table g = some p)
    (ended : p.isLive = false) : Polled g w (.ok (some status)) (w.reap g status)
  | running {p : Process} (hp : w.table g = some p) (live : p.isLive = true) :
    Polled g w (.ok none) w
  | failed (e : IoError) : Polled g w (.error e) w

/-- A listing of the roster takes time. It names every process that is there from its start to its
end; it need not name who is born or vanishes meanwhile. -/
inductive Listed (g : Pid) (w : World) : Except IoError (List Bytes) → World → Prop
  | names {names : List Bytes} {w' : World} (meanwhile : Drift g w.listed w')
    (all : ∀ pid p q, w.table pid = some p → w'.table pid = some q → pid ∉ w'.unlisted →
      Utf8.encode (toString pid) ∈ names) :
    Listed g w (.ok names) w'
  | failed (e : IoError) : Listed g w (.error e) w

/-- What is told of a process, if it is still there. -/
inductive Told (w : World) (pid : Pid) : Except IoError Bytes → World → Prop
  | line {p : Process} {name : String} (hp : w.table pid = some p) (text : p.name? = some name) :
    Told w pid (.ok (p.line pid)) w
  | broken {p : Process} (hp : w.table pid = some p) (text : p.name? = none) :
    Told w pid (.ok (p.line pid)) (w.missed pid)
  | refused {p : Process} (hp : w.table pid = some p) (e : IoError) :
    Told w pid (.error e) (w.missed pid)
  | gone (hp : w.table pid = none) (e : IoError) : Told w pid (.error e) w

/-- A signal to a group finds one of it, live or not, or is refused. -/
inductive Signalled (g : Pid) (w : World) : Except IoError Unit → Prop
  | sent {pid : Pid} {p : Process} (hp : w.table pid = some p) (group : p.group = g) :
    Signalled g w (.ok ())
  | gone (h : w.IsGone g) : Signalled g w (.error .noSuchTarget)
  | denied : Signalled g w (.error notPermitted)

/-- What the machine may reply at once, and its state after that. The other requests are not about
processes, or what they do to processes is among the events that may follow. -/
def Replies (g : Pid) (w : World) : (r : Request) → r.Reply → World → Prop
  | .poll pid, reply, w' => if pid = g then Polled g w reply w' else w' = w
  | .await pid, reply, w' => if pid = g then Polled g w (reply.map some) w' else w' = w
  | .list path, reply, w' => if path = Roster.system.root then Listed g w reply w' else w' = w
  | .read path, reply, w' =>
    (∃ pid, path = Roster.system.linePath pid ∧ Told w pid reply w') ∨
      (∀ pid, path ≠ Roster.system.linePath pid) ∧ w' = w
  | .signalGroup group _, reply, w' => (group = g → Signalled g w reply) ∧ w' = w
  | _, _, w' => w' = w

theorem replies_poll {g : Pid} {w w' : World} {reply : Except IoError (Option ExitStatus)} :
    Replies g w (.poll g) reply w' ↔ Polled g w reply w' := iff_of_eq (if_pos rfl)

theorem replies_await {g : Pid} {w w' : World} {reply : Except IoError ExitStatus} :
    Replies g w (.await g) reply w' ↔ Polled g w (reply.map some) w' := iff_of_eq (if_pos rfl)

theorem replies_list {g : Pid} {w w' : World} {reply : Except IoError (List Bytes)} :
    Replies g w (.list Roster.system.root) reply w' ↔ Listed g w reply w' := by
  unfold Replies
  simp only [if_true]

theorem replies_read {g pid : Pid} {w w' : World} {reply : Except IoError Bytes} :
    Replies g w (.read (Roster.system.linePath pid)) reply w' ↔ Told w pid reply w' := by
  constructor
  · intro h
    rcases h with ⟨other, path, told⟩ | ⟨off, -⟩
    · cases Roster.linePath_injective _ path
      exact told
    · exact absurd rfl (off pid)
  · intro h
    exact .inl ⟨pid, rfl, h⟩

theorem replies_signal {g : Pid} {w w' : World} {signal : Signal} {reply : Except IoError Unit} :
    Replies g w (.signalGroup g signal) reply w' ↔ Signalled g w reply ∧ w' = w := by
  constructor
  · intro h
    exact ⟨h.1 rfl, h.2⟩
  · intro h
    exact ⟨fun _ => h.1, h.2⟩

def answers (g : Pid) : Answers World := fun w r reply w' =>
  ∃ u, Drift g w u ∧ Replies g u r reply w'

end PatchTrial.Trial
