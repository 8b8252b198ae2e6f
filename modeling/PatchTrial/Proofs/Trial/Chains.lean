import Mathlib.Data.List.Chain
import Mathlib.Data.List.Perm.Subperm
import Mathlib.Logic.Relation
import PatchTrial.Proofs.Trial.Wrappers

/-!
Chains of wrappers in any folder. What is in the file of a number may be the line of a process, or
something else, or the file may not be readable; such an entry is no one's child. As long as the folder
stays as it is and no process is an ancestor of itself, following the wrappers ends.

What is proved:
  1. `Follows.unique`: from a process on there is one chain at most, since a process that leads on does
     so to one other.
  2. `length_le_of_isChain`: a process that leads on is the parent of the next one, so no process comes
     up twice, and a chain is no longer than there are processes.
  3. `exists_follows`: so there is a chain, and `resolveWrapped_follows`: the last process of it is the
     one that is resolved, whatever number of steps is allowed above the number of processes.
-/
namespace PatchTrial.Trial.Roster
open Entry

/-- A folder of processes at one moment: its names, in the order in which they are listed, and what
comes of reading the file of a number. -/
structure Folder where
  names : List Bytes
  content : Pid → Except IoError Bytes
  nodup : names.Nodup
  /-- A name that is a number is written in the one way. -/
  written : ∀ name ∈ names, ∀ pid, pidOfName? name = some pid → name = Utf8.encode (toString pid)

namespace Folder
variable (f : Folder)

def pids : List Pid := f.names.filterMap pidOfName?

/-- What can be read of a process. -/
def entry? (pid : Pid) : Option Entry := infoOf? pid (f.content pid)

/-- A process names another as its parent. -/
def ChildOf (child parent : Pid) : Prop :=
  child ∈ f.pids ∧ ∃ e, f.entry? child = some e ∧ e.parent = parent

/-- A process that has not ended names another as its parent. -/
def LiveChild (child parent : Pid) : Prop :=
  child ∈ f.pids ∧ ∃ e, f.entry? child = some e ∧ e.isLive = true ∧ e.parent = parent

/-- No process is an ancestor of itself. -/
def Acyclic : Prop := ∀ pid, ¬ Relation.TransGen f.ChildOf pid pid

/-- A wrapper leads on to its one live child. -/
structure Leads (comm : String) (pid child : Pid) : Prop where
  wrapper : ∃ e, f.entry? pid = some e ∧ e.comm = comm
  only : ∀ other, f.LiveChild other pid ↔ other = child

/-- What does not lead on: an entry that cannot be read, one of another name, or one that has any other
number of live children than one. -/
def Last (comm : String) (pid : Pid) : Prop :=
  f.entry? pid = none ∨ (∃ e, f.entry? pid = some e ∧ e.comm ≠ comm) ∨ ¬ ∃! child, f.LiveChild child pid

/-- The chain of wrappers from a process on, with what it leads to at its end. -/
inductive Follows (comm : String) : Pid → List Pid → Prop
  | last {pid : Pid} : f.Last comm pid → Follows comm pid [pid]
  | next {pid child : Pid} {rest : List Pid} : f.Leads comm pid child → Follows comm child rest →
      Follows comm pid (pid :: rest)

/-- An environment replies with the names and the files, whenever it is asked for them. -/
structure ShownBy (t : Roster) (env : Environment) : Prop where
  list : ∀ past, env past (.list t.root) = .ok f.names
  read : ∀ past pid, env past (.read (t.linePath pid)) = f.content pid

variable {f} {comm : String}

/-! ## What leads on -/

theorem Leads.liveChild {pid child : Pid} (h : f.Leads comm pid child) : f.LiveChild child pid :=
  (h.only child).2 rfl

theorem Leads.childOf {pid child : Pid} (h : f.Leads comm pid child) : f.ChildOf child pid := by
  obtain ⟨listed, e, he, -, parent⟩ := h.liveChild
  exact ⟨listed, e, he, parent⟩

/-- A process leads on to no two others. -/
theorem Leads.unique {pid child child' : Pid} (h : f.Leads comm pid child)
    (h' : f.Leads comm pid child') : child = child' := (h'.only child).1 h.liveChild

/-- What leads on is not last. -/
theorem Leads.not_last {pid child : Pid} (h : f.Leads comm pid child) : ¬ f.Last comm pid := by
  obtain ⟨e, he, named⟩ := h.wrapper
  intro last
  rcases last with none | ⟨e', he', other⟩ | several
  · rw [he] at none
    cases none
  · rw [he] at he'
    cases he'
    exact other named
  · exact several ⟨child, h.liveChild, fun other => (h.only other).1⟩

theorem last_or_leads (f : Folder) (comm : String) (pid : Pid) :
    f.Last comm pid ∨ ∃ child, f.Leads comm pid child := by
  cases he : f.entry? pid with
  | none => exact .inl (.inl he)
  | some e =>
    by_cases named : e.comm = comm
    · by_cases one : ∃! child, f.LiveChild child pid
      · obtain ⟨child, live, only⟩ := one
        refine .inr ⟨child, ⟨e, he, named⟩, fun other => ⟨only other, fun same => ?_⟩⟩
        rw [same]
        exact live
      · exact .inl (.inr (.inr one))
    · exact .inl (.inr (.inl ⟨e, he, named⟩))

/-! ## Chains -/

theorem Follows.unique {pid : Pid} {chain chain' : List Pid} (h : f.Follows comm pid chain)
    (h' : f.Follows comm pid chain') : chain = chain' := by
  induction h generalizing chain' with
  | last last =>
    cases h' with
    | last _ => rfl
    | next leads _ => exact absurd last leads.not_last
  | next leads _ ih =>
    cases h' with
    | last last => exact absurd last leads.not_last
    | next leads' more' =>
      obtain rfl := leads.unique leads'
      rw [ih more']

theorem Follows.head? {pid : Pid} {chain : List Pid} (h : f.Follows comm pid chain) :
    chain.head? = some pid := by
  cases h <;> rfl

/-- Each process of a chain leads on to the next. -/
theorem Follows.isChain {pid : Pid} {chain : List Pid} (h : f.Follows comm pid chain) :
    chain.IsChain (f.Leads comm) := by
  induction h with
  | last _ => exact .singleton _
  | @next pid child rest leads more ih =>
    refine List.isChain_cons.2 ⟨fun next hn => ?_, ih⟩
    rw [more.head?] at hn
    obtain rfl := Option.some.inj hn
    exact leads

/-- At its end a chain has what does not lead on. -/
theorem Follows.exists_last {pid : Pid} {chain : List Pid} (h : f.Follows comm pid chain) :
    ∃ r, chain.getLast? = some r ∧ f.Last comm r := by
  induction h with
  | last last => exact ⟨_, rfl, last⟩
  | @next pid child rest leads more ih =>
    obtain ⟨r, found, last⟩ := ih
    exact ⟨r, by rw [List.getLast?_cons, found]; rfl, last⟩

/-- Behind the first process a chain has live ones only. -/
theorem liveChild_of_isChain {path : List Pid} (h : path.IsChain (f.Leads comm)) :
    ∀ pid ∈ path.tail, ∃ parent, f.LiveChild pid parent := by
  induction path with
  | nil => exact fun _ hm => nomatch hm
  | cons first rest ih =>
    intro pid hm
    rw [List.tail_cons] at hm
    cases rest with
    | nil => cases hm
    | cons second more =>
      obtain ⟨leads, h⟩ := List.isChain_cons_cons.1 h
      rcases List.mem_cons.1 hm with rfl | hm
      · exact ⟨first, leads.liveChild⟩
      · exact ih h pid hm

/-! ## How long a chain can be -/

/-- Either a chain ends, or there are as many processes that lead on one to the next as one likes. -/
theorem exists_follows_or_path (f : Folder) (comm : String) (n : Nat) (pid : Pid) :
    (∃ chain, f.Follows comm pid chain) ∨
      ∃ path : List Pid, path.length = n + 1 ∧ path.head? = some pid ∧ path.IsChain (f.Leads comm) := by
  induction n generalizing pid with
  | zero => exact .inr ⟨[pid], rfl, rfl, .singleton _⟩
  | succ n ih =>
    rcases last_or_leads f comm pid with last | ⟨child, leads⟩
    · exact .inl ⟨[pid], .last last⟩
    · rcases ih child with ⟨chain, more⟩ | ⟨path, length, first, more⟩
      · exact .inl ⟨pid :: chain, .next leads more⟩
      · refine .inr ⟨pid :: path, by rw [List.length_cons, length], rfl,
          List.isChain_cons.2 ⟨fun next hn => ?_, more⟩⟩
        rw [first] at hn
        obtain rfl := Option.some.inj hn
        exact leads

section Acyclic
variable (acyclic : f.Acyclic)
include acyclic

/-- No process comes up twice. -/
theorem nodup_of_isChain {path : List Pid} (h : path.IsChain (f.Leads comm)) : path.Nodup := by
  have ancestors : path.IsChain fun a b => Relation.TransGen f.ChildOf b a :=
    h.imp fun _ _ leads => .single leads.childOf
  have : IsTrans Pid fun a b => Relation.TransGen f.ChildOf b a := ⟨fun _ _ _ hab hbc => hbc.trans hab⟩
  refine (List.isChain_iff_pairwise.1 ancestors).imp fun {a b} hab same => ?_
  subst same
  exact acyclic a hab

/-- All but the first are in the folder. -/
theorem length_le_of_isChain {path : List Pid} (h : path.IsChain (f.Leads comm)) :
    path.length ≤ f.pids.length + 1 := by
  have listed : path.tail ⊆ f.pids := by
    intro pid hm
    obtain ⟨_, live⟩ := liveChild_of_isChain h pid hm
    exact live.1
  have apart : path.tail.Nodup := (nodup_of_isChain acyclic h).sublist (List.tail_sublist path)
  have counted := (List.subperm_of_subset apart listed).length_le
  rw [List.length_tail] at counted
  omega

theorem exists_follows (comm : String) (pid : Pid) : ∃ chain, f.Follows comm pid chain := by
  rcases exists_follows_or_path f comm (f.pids.length + 1) pid with h | ⟨path, length, -, h⟩
  · exact h
  · have := length_le_of_isChain acyclic h
    omega

end Acyclic

/-! ## Following a chain -/

theorem nodup_pids (f : Folder) : f.pids.Nodup := nodup_filterMap_pidOfName? f.nodup f.written

/-- A name stands for no larger number. -/
theorem le_of_pidOfName? {name : Bytes} {pid : Pid} (h : pidOfName? name = some pid) :
    pid ≤ pidLimit := by
  simp only [pidOfName?, pid?, Option.ite_none_left_eq_some, Option.ite_none_right_eq_some,
    Option.some.injEq] at h
  obtain ⟨-, small, rfl⟩ := h
  exact small

/-- There are no more processes than numbers for them. -/
theorem length_pids_le (f : Folder) : f.pids.length ≤ pidLimit + 1 := by
  have small : f.pids ⊆ List.range (pidLimit + 1) := by
    intro pid hm
    obtain ⟨name, -, hp⟩ := List.mem_filterMap.1 hm
    exact List.mem_range.2 (Nat.lt_succ_of_le (le_of_pidOfName? hp))
  have counted := (List.subperm_of_subset f.nodup_pids small).length_le
  rwa [List.length_range] at counted

/-- What is read of a number is about that number. -/
theorem pid_of_entry? (f : Folder) {pid : Pid} {e : Entry} (h : f.entry? pid = some e) :
    e.pid = pid := by
  unfold entry? infoOf? at h
  split at h
  · obtain ⟨line, -, h⟩ := Option.bind_eq_some_iff.1 h
    obtain ⟨⟨head, tail⟩, -, h⟩ := Option.bind_eq_some_iff.1 h
    obtain ⟨⟨_, name⟩, -, h⟩ := Option.bind_eq_some_iff.1 h
    dsimp only at h
    split at h
    · obtain ⟨parent, -, h⟩ := Option.bind_eq_some_iff.1 h
      obtain ⟨group, -, h⟩ := Option.bind_eq_some_iff.1 h
      cases h
      rfl
    · cases h
  · cases h

theorem nodup_entries (f : Folder) : ((f.pids.filterMap f.entry?).map Entry.pid).Nodup := by
  refine List.pairwise_map.2 (List.pairwise_filterMap.2 (f.nodup_pids.imp ?_))
  intro pid pid' hne e he e' he'
  rw [f.pid_of_entry? he, f.pid_of_entry? he']
  exact hne

section Following
variable {t : Roster} {env : Environment} (h : f.ShownBy t env)
include h

theorem play_info? (past : Trace) (pid : Pid) : ((t.info? pid).play env past).1 = f.entry? pid := by
  show infoOf? pid (env past (.read (t.linePath pid))) = _
  rw [h.read]
  rfl

/-- The numbers that are told are those of the live children. -/
theorem play_liveChildren (past : Trace) (parent : Pid) :
    ∃ pids, ((t.liveChildren parent).outcome.play env past).1 = .ok pids ∧ pids.Nodup ∧
      ∀ pid, pid ∈ pids ↔ f.LiveChild pid parent := by
  refine ⟨_, play_liveChildren_of h.list (fun past pid _ => play_info? h past pid) past parent,
    ?_, fun pid => ?_⟩
  · refine (List.mergeSort_perm _ _).nodup_iff.2 ?_
    exact f.nodup_entries.sublist (List.filter_sublist.map Entry.pid)
  · change pid ∈ (((f.pids.filterMap f.entry?).filter _).map Entry.pid).mergeSort ↔ _
    simp only [List.mem_mergeSort, List.mem_map, List.mem_filter, List.mem_filterMap,
      Bool.and_eq_true, beq_iff_eq]
    constructor
    · intro told
      obtain ⟨e, ⟨⟨other, listed, he⟩, named, live⟩, rfl⟩ := told
      obtain rfl := f.pid_of_entry? he
      exact ⟨listed, e, he, live, named⟩
    · intro child
      obtain ⟨listed, e, he, live, named⟩ := child
      exact ⟨e, ⟨⟨pid, listed, he⟩, named, live⟩, f.pid_of_entry? he⟩

/-- From a process of the name it goes on to its live child, if there is one and no other. -/
theorem play_followWrappers_named (past : Trace) (steps : Nat) {pid : Pid} {e : Entry}
    (he : f.entry? pid = some e) (named : e.comm = comm) :
    ∃ past' pids, pids.Nodup ∧ (∀ child, child ∈ pids ↔ f.LiveChild child pid) ∧
      ((t.followWrappers comm (steps + 1) pid).play env past).1 =
        match pids with
        | [child] => ((t.followWrappers comm steps child).play env past').1
        | _ => pid := by
  let past' := ((t.info? pid).play env past).2
  obtain ⟨pids, played, apart, members⟩ := play_liveChildren h past' pid
  refine ⟨((t.liveChildren pid).outcome.play env past').2, pids, apart, members, ?_⟩
  rw [followWrappers, Plan.play_bind, play_info? h past pid, he]
  dsimp only
  rw [if_neg (not_not_intro named), Plan.play_bind, played]
  cases pids with
  | nil => rfl
  | cons child more => cases more <;> rfl

/-- What does not lead on is resolved to itself. -/
theorem play_followWrappers_last (past : Trace) (steps : Nat) {pid : Pid} (last : f.Last comm pid) :
    ((t.followWrappers comm steps pid).play env past).1 = pid := by
  cases steps with
  | zero => rfl
  | succ steps =>
    cases he : f.entry? pid with
    | none =>
      rw [followWrappers, Plan.play_bind, play_info? h past pid, he]
      rfl
    | some e =>
      by_cases named : e.comm = comm
      · obtain ⟨past', pids, apart, members, step⟩ :=
          play_followWrappers_named h past steps he named
        rw [step]
        split
        · next child =>
          -- the wrapper has one live child, so it would not be the last process
          have one : ∃! child, f.LiveChild child pid :=
            ⟨child, (members child).1 List.mem_cons_self, fun other live =>
              List.mem_singleton.1 ((members other).2 live)⟩
          rcases last with none | ⟨e', he', other⟩ | several
          · cases he.symm.trans none
          · cases he.symm.trans he'
            exact absurd named other
          · exact absurd one several
        · rfl
      · rw [followWrappers, Plan.play_bind, play_info? h past pid, he]
        dsimp only
        rw [if_pos named]
        rfl

/-- Whatever leads on is followed to the one live child. -/
theorem play_followWrappers_leads (past : Trace) (steps : Nat) {pid child : Pid}
    (leads : f.Leads comm pid child) :
    ∃ past', ((t.followWrappers comm (steps + 1) pid).play env past).1 =
      ((t.followWrappers comm steps child).play env past').1 := by
  obtain ⟨e, he, named⟩ := leads.wrapper
  obtain ⟨past', pids, apart, members, step⟩ := play_followWrappers_named h past steps he named
  have one : pids = [child] := by
    refine List.perm_singleton.1 ?_
    refine (List.perm_ext_iff_of_nodup apart (List.pairwise_singleton _ child)).2 ?_
    intro other
    rw [members, leads.only, List.mem_singleton]
  rw [one] at step
  exact ⟨past', step⟩

/-- A chain is followed to its end, if there are steps enough for it. -/
theorem play_followWrappers_follows {pid r : Pid} {chain : List Pid}
    (follows : f.Follows comm pid chain) (last : chain.getLast? = some r) (past : Trace) {steps : Nat}
    (enough : chain.length ≤ steps + 1) : ((t.followWrappers comm steps pid).play env past).1 = r := by
  induction follows generalizing steps past with
  | last ends =>
    obtain rfl := Option.some.inj last
    exact play_followWrappers_last h past steps ends
  | @next pid child rest leads more ih =>
    have nonempty : rest ≠ [] := by
      intro none
      have first := more.head?
      rw [none] at first
      cases first
    have behind : rest.getLast? = some r := by
      rw [List.getLast?_cons_of_ne_nil nonempty] at last
      exact last
    have longer := List.length_pos_of_ne_nil nonempty
    rw [List.length_cons] at enough
    obtain ⟨steps, rfl⟩ : ∃ k, steps = k + 1 := ⟨steps - 1, by omega⟩
    obtain ⟨past', step⟩ := play_followWrappers_leads h past steps leads
    rw [step]
    exact ih behind past' (by omega)

end Following

/-! ## A roster as a folder -/

theorem acyclic_of_lt (older : ∀ pid ∈ f.pids, ∀ e ∈ f.entry? pid, e.parent < pid) : f.Acyclic := by
  have lt {child parent : Pid} (h : Relation.TransGen f.ChildOf child parent) : parent < child := by
    induction h with
    | single first =>
      obtain ⟨listed, e, he, rfl⟩ := first
      exact older child listed e he
    | @tail pid parent _ last ih =>
      obtain ⟨listed, e, he, rfl⟩ := last
      exact Nat.lt_trans (older pid listed e he) ih
  exact fun pid h => Nat.lt_irrefl pid (lt h)

theorem leads_of_filter {pid child : Pid} {e : Entry} (he : f.entry? pid = some e)
    (named : e.comm = comm)
    (one : f.pids.filter (fun other => (f.entry? other).any fun e => e.isLive && e.parent == pid) =
      [child]) : f.Leads comm pid child := by
  refine ⟨⟨e, he, named⟩, fun other => ?_⟩
  rw [← List.mem_singleton, ← one, List.mem_filter, Option.any_eq_true]
  simp only [Bool.and_eq_true, beq_iff_eq]
  exact Iff.rfl

end Folder

/-- The folder of a roster. -/
def Snapshot.folder (f : Snapshot) : Folder where
  names := f.names
  content pid := ((f.stat? pid).map fun s => s.line pid).elim (.error .notFound) .ok
  nodup := f.nodup
  written name hn pid hp := (f.numbered name hn pid hp).1

theorem Snapshot.folder_shownBy (f : Snapshot) (t : Roster) :
    f.folder.ShownBy t (f.replies t) where
  list := (f.shownBy_replies t).list
  read past pid := by
    show (f.replies t) past (.read (t.linePath pid)) =
      ((f.stat? pid).map fun s => s.line pid).elim (.error .notFound) .ok
    cases hs : f.stat? pid with
    | some s => exact (f.shownBy_replies t).read past pid s hs
    | none =>
      rw [replies, List.find?_eq_none.2]
      · rfl
      · intro other listed same
        obtain rfl : other = pid := t.linePath_injective (of_decide_eq_true same)
        have found := (f.mem_pids other).1 listed
        rw [hs] at found
        cases found

/-! ## What is resolved -/

namespace Folder
variable {f : Folder}

/-- From every process on there is one chain of wrappers, and its last process is resolved. Each before
it has the name of the wrapper and one live child, which is the next; the last one has not. The chain
meets no process twice, and all but its first are live. Any number of steps at least that of the
processes leads to the same end, so it is not the steps that end it. -/
theorem resolveWrapped_follows {t : Roster} {env : Environment} (h : f.ShownBy t env)
    (acyclic : f.Acyclic) (comm : String) (pid : Pid) :
    ∃ chain r, f.Follows comm pid chain ∧ (∀ other, f.Follows comm pid other → other = chain) ∧
      chain.head? = some pid ∧ chain.IsChain (f.Leads comm) ∧ chain.getLast? = some r ∧
      f.Last comm r ∧ (∀ past, ((t.resolveWrapped pid comm).play env past).1 = r) ∧
      (∀ past steps, f.pids.length ≤ steps →
        ((t.followWrappers comm steps pid).play env past).1 = r) ∧
      chain.Nodup ∧ ∀ q ∈ chain.tail, ∃ e, f.entry? q = some e ∧ e.isLive = true := by
  obtain ⟨chain, follows⟩ := exists_follows acyclic comm pid
  obtain ⟨r, found, last⟩ := follows.exists_last
  have short := length_le_of_isChain acyclic follows.isChain
  have all := f.length_pids_le
  have steps (past : Trace) (steps : Nat) (enough : f.pids.length ≤ steps) :
      ((t.followWrappers comm steps pid).play env past).1 = r :=
    play_followWrappers_follows h follows found past (by omega)
  refine ⟨chain, r, follows, fun other ho => ho.unique follows, follows.head?, follows.isChain, found,
    last, fun past => steps past _ all, steps, nodup_of_isChain acyclic follows.isChain,
    fun q hq => ?_⟩
  obtain ⟨parent, -, e, he, live, -⟩ := liveChild_of_isChain follows.isChain q hq
  exact ⟨e, he, live⟩

theorem nodup_five : [301, 302, 303, 304, 305].Nodup := by decide

theorem five_le : ∀ pid ∈ [301, 302, 303, 304, 305], pid ≤ pidLimit := by decide

def ended (s : Stat) : Stat :=
  { s with
    state := 'Z'
    state_plain := by decide
    state_solid := by decide
    state_open := by decide }

/-- A wrapper of the name has a second one and a dead process as its children. The children of the
second one are the target and a process whose name is no text. -/
def crowded : Snapshot :=
  .ofList [(301, Snapshot.sleeper (Utf8.encode "sudo")),
    (302, Snapshot.childOf 301 Snapshot.first_le (Utf8.encode "sudo")),
    (303, ended (Snapshot.childOf 301 Snapshot.first_le (Utf8.encode "sudo"))),
    (304, Snapshot.childOf 302 Snapshot.second_le (Utf8.encode "test")),
    (305, Snapshot.childOf 302 Snapshot.second_le [0xC3])] nodup_five five_le

theorem crowded_resolved :
    crowded.folder.ShownBy system (crowded.replies system) ∧ crowded.folder.Acyclic ∧
      crowded.folder.Follows "sudo" 301 [301, 302, 304] ∧
      ((system.resolveWrapped 301 "sudo").play (crowded.replies system) []).1 = 304 := by
  have shown := crowded.folder_shownBy system
  have acyclic : crowded.folder.Acyclic := acyclic_of_lt (by decide +kernel)
  have first : crowded.folder.Leads "sudo" 301 302 :=
    leads_of_filter (e := ⟨301, "sudo", 'S', 300, 300⟩) (by decide +kernel) rfl (by decide +kernel)
  have second : crowded.folder.Leads "sudo" 302 304 :=
    leads_of_filter (e := ⟨302, "sudo", 'S', 301, 300⟩) (by decide +kernel) rfl (by decide +kernel)
  have target : crowded.folder.Last "sudo" 304 :=
    .inr (.inl ⟨⟨304, "test", 'S', 302, 300⟩, by decide +kernel, by decide⟩)
  have follows : crowded.folder.Follows "sudo" 301 [301, 302, 304] :=
    .next first (.next second (.last target))
  obtain ⟨chain, r, -, only, -, -, found, -, resolved, -⟩ :=
    resolveWrapped_follows shown acyclic "sudo" 301
  rw [← only _ follows] at found
  obtain rfl := Option.some.inj found
  exact ⟨shown, acyclic, follows, resolved []⟩

end Folder
end PatchTrial.Trial.Roster
