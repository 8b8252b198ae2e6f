import PatchTrial.Proofs.Plan.Runs
import PatchTrial.Proofs.Trial.StatLine

/-!
A roster that stays as it is while it is read. It lists a name for each of its processes, in any order
and among other names, and every process has its line. The scan passes over what it cannot read.

What is proved:
  1. `Snapshot.play_scan`: a scan finds the processes whose names are text, each with what its line
     tells.
  2. `Snapshot.tells_iff_named`: so the live members of a group and the live children of a process are
     told of these processes, and of all processes exactly if every live one has a name that is text.
-/
namespace PatchTrial.Trial.Roster
open Entry

/-! ## Reading a folder that stays as it is -/

/-- Sorting different numbers leaves each smaller than the next. -/
theorem pairwise_mergeSort {pids : List Pid} (h : pids.Nodup) : pids.mergeSort.Pairwise (· < ·) := by
  have sorted := @List.pairwise_mergeSort Pid (fun a b => decide (a ≤ b))
    (fun a b c hab hbc => decide_eq_true (Nat.le_trans (of_decide_eq_true hab) (of_decide_eq_true hbc)))
    (fun a b => by simp [Nat.le_total]) pids
  have apart : pids.mergeSort.Nodup := (List.mergeSort_perm pids _).nodup_iff.2 h
  refine (sorted.and apart).imp fun {a b} hab => ?_
  exact Nat.lt_of_le_of_ne (of_decide_eq_true hab.1) hab.2

/-- Names that write numbers in the one way stand for different numbers. -/
theorem nodup_filterMap_pidOfName? {names : List Bytes} (nodup : names.Nodup)
    (written : ∀ name ∈ names, ∀ pid, pidOfName? name = some pid →
      name = Utf8.encode (toString pid)) : (names.filterMap pidOfName?).Nodup := by
  refine List.pairwise_filterMap.2 (nodup.imp_of_mem fun hn hn' hne pid hp pid' hp' e => ?_)
  -- one number has one name
  subst e
  exact hne ((written _ hn pid hp).trans (written _ hn' pid hp').symm)

section Reading
variable {t : Roster} {env : Environment} {names : List Bytes} {told : Pid → Option Entry}

theorem play_infos_of {pids : List Pid}
    (read : ∀ past, ∀ pid ∈ pids, ((t.info? pid).play env past).1 = told pid) (past : Trace) :
    ((t.infos pids).play env past).1 = pids.filterMap told := by
  induction pids generalizing past with
  | nil => rfl
  | cons pid rest ih =>
    have first := read past pid List.mem_cons_self
    rw [infos, Plan.play_bind, first, Plan.play_bind,
      ih fun past other hm => read past other (List.mem_cons_of_mem pid hm)]
    cases he : told pid with
    | none => rw [List.filterMap_cons_none he]; rfl
    | some e => rw [List.filterMap_cons_some he]; rfl

variable (list : ∀ past, env past (.list t.root) = .ok names)
  (read : ∀ past, ∀ pid ∈ names.filterMap pidOfName?, ((t.info? pid).play env past).1 = told pid)
include list read

/-- A scan finds what is told of the numbers in the folder. -/
theorem play_scan_of (past : Trace) :
    (t.scan.outcome.play env past).1 = .ok ((names.filterMap pidOfName?).filterMap told) := by
  have listing : ((Plan.request (.list t.root)).play env past).1 = .ok names := list past
  rw [scan, Attempt.play_bind (Attempt.play_of listing), Attempt.play_lift]
  exact congrArg Except.ok (play_infos_of read _)

theorem play_liveChildren_of (past : Trace) (parent : Pid) :
    ((t.liveChildren parent).outcome.play env past).1 =
      .ok ((((names.filterMap pidOfName?).filterMap told).filter fun p =>
        p.parent == parent && p.isLive).map Entry.pid).mergeSort := by
  rw [liveChildren, Attempt.play_bind (play_scan_of list read past)]
  rfl

end Reading

/-! ## A roster at one moment -/

/-- A roster at one moment. -/
structure Snapshot where
  /-- The names in its folder, in the order in which they are listed. -/
  names : List Bytes
  /-- The processes, by their numbers. -/
  stat? : Pid → Option Stat
  nodup : names.Nodup
  /-- A name that is a number is that of a process, and written in the one way. -/
  numbered : ∀ name ∈ names, ∀ pid, pidOfName? name = some pid →
    name = Utf8.encode (toString pid) ∧ (stat? pid).isSome
  /-- Every process is listed. -/
  listed : ∀ pid, (stat? pid).isSome → pid ≤ pidLimit ∧ Utf8.encode (toString pid) ∈ names

/-- Whether a process has not ended. -/
def Stat.isLive (s : Stat) : Bool := !(s.state == 'Z' || s.state == 'X' || s.state == 'x')

/-- What is read of a process is as it is. -/
structure Stat.Told (s : Stat) (e : Entry) : Prop where
  parent : e.parent = s.parent
  group : e.group = s.group
  live : e.isLive = s.isLive

namespace Snapshot

/-- An environment replies with the names and the lines, whenever it is asked for them. -/
structure ShownBy (f : Snapshot) (t : Roster) (env : Environment) : Prop where
  list : ∀ past, env past (.list t.root) = .ok f.names
  read : ∀ past pid s, f.stat? pid = some s → env past (.read (t.linePath pid)) = .ok (s.line pid)

/-- Of the processes of some kind the roster tells the truth: whether one is in a group, and which
ones are the children of a process, in order. -/
structure Tells (f : Snapshot) (t : Roster) (env : Environment) (kind : Stat → Prop) : Prop where
  group : ∀ past group, ∃ live, ((t.groupIsLive group).outcome.play env past).1 = .ok live ∧
    (live = true ↔ ∃ pid s, f.stat? pid = some s ∧ kind s ∧ s.group = group)
  children : ∀ past parent, ∃ pids, ((t.liveChildren parent).outcome.play env past).1 = .ok pids ∧
    pids.Pairwise (· < ·) ∧ ∀ pid, pid ∈ pids ↔ ∃ s, f.stat? pid = some s ∧ kind s ∧ s.parent = parent

variable (f : Snapshot)

def pids : List Pid := f.names.filterMap pidOfName?

/-- What is read of a number. -/
def told? (pid : Pid) : Option Entry := (f.stat? pid).bind fun s => s.told? pid

def entries : List Entry := f.pids.filterMap f.told?

/-! ## What is in the folder -/

theorem mem_pids (pid : Pid) : pid ∈ f.pids ↔ (f.stat? pid).isSome := by
  rw [pids, List.mem_filterMap]
  constructor
  · rintro ⟨name, hn, hp⟩
    exact (f.numbered name hn pid hp).2
  · intro h
    obtain ⟨small, listed⟩ := f.listed pid h
    exact ⟨_, listed, pidOfName?_toString small⟩

theorem nodup_pids : f.pids.Nodup :=
  nodup_filterMap_pidOfName? f.nodup fun name hn pid hp => (f.numbered name hn pid hp).1

theorem pid_of_told? {pid : Pid} {e : Entry} (h : f.told? pid = some e) : e.pid = pid := by
  obtain ⟨s, -, he⟩ := Option.bind_eq_some_iff.1 h
  obtain ⟨name, -, rfl⟩ := Option.map_eq_some_iff.1 he
  rfl

/-- What is read is that of a process whose name is text. -/
theorem exists_stat_of_mem {e : Entry} (h : e ∈ f.entries) :
    ∃ s, f.stat? e.pid = some s ∧ s.name?.isSome ∧ s.Told e := by
  obtain ⟨pid, -, he⟩ := List.mem_filterMap.1 h
  obtain ⟨s, hs, he⟩ := Option.bind_eq_some_iff.1 he
  obtain ⟨name, hn, rfl⟩ := Option.map_eq_some_iff.1 he
  exact ⟨s, hs, Option.isSome_iff_exists.2 ⟨name, hn⟩, rfl, rfl, rfl⟩

/-- Every process whose name is text is read. -/
theorem exists_mem_of_stat {pid : Pid} {s : Stat} (hs : f.stat? pid = some s)
    (hn : s.name?.isSome) : ∃ e ∈ f.entries, e.pid = pid ∧ s.Told e := by
  obtain ⟨name, hn⟩ := Option.isSome_iff_exists.1 hn
  have found : pid ∈ f.pids := (f.mem_pids pid).2 (Option.isSome_iff_exists.2 ⟨s, hs⟩)
  have read : f.told? pid = some ⟨pid, name, s.state, s.parent, s.group⟩ := by
    rw [told?, hs, Option.bind_some, Stat.told?, hn, Option.map_some]
  exact ⟨_, List.mem_filterMap.2 ⟨pid, found, read⟩, rfl, rfl, rfl, rfl⟩

theorem nodup_entries : (f.entries.map Entry.pid).Nodup := by
  refine List.pairwise_map.2 (List.pairwise_filterMap.2 (f.nodup_pids.imp ?_))
  intro pid pid' hne e he e' he'
  rw [f.pid_of_told? he, f.pid_of_told? he']
  exact hne

/-! ## Reading it -/

section Reading
variable {f} {t : Roster} {env : Environment} (h : f.ShownBy t env)
include h

theorem play_info? (past : Trace) {pid : Pid} (hp : pid ∈ f.pids) :
    ((t.info? pid).play env past).1 = f.told? pid := by
  obtain ⟨s, hs⟩ := Option.isSome_iff_exists.1 ((f.mem_pids pid).1 hp)
  show infoOf? pid (env past (.read (t.linePath pid))) = _
  rw [h.read past pid s hs, s.infoOf?_line, told?, hs]
  rfl

/-- A scan finds the processes whose names are text. -/
theorem play_scan (past : Trace) : (t.scan.outcome.play env past).1 = .ok f.entries :=
  play_scan_of h.list (fun past _ hp => play_info? h past hp) past

theorem play_groupIsLive (past : Trace) (group : Pid) :
    ((t.groupIsLive group).outcome.play env past).1 =
      .ok (f.entries.any fun p => p.group == group && p.isLive) := by
  rw [groupIsLive, Attempt.play_bind (play_scan h past)]
  rfl

theorem play_liveChildren (past : Trace) (parent : Pid) :
    ((t.liveChildren parent).outcome.play env past).1 =
      .ok ((f.entries.filter fun p => p.parent == parent && p.isLive).map Entry.pid).mergeSort :=
  play_liveChildren_of h.list (fun past _ hp => play_info? h past hp) past parent

end Reading

/-! ## What is told -/

/-- The roster tells the truth of the processes whose names are text. -/
theorem tells_named {t : Roster} {env : Environment} (h : f.ShownBy t env) :
    f.Tells t env fun s => s.isLive = true ∧ s.name?.isSome where
  group past group := by
    refine ⟨_, play_groupIsLive h past group, ?_⟩
    simp only [List.any_eq_true, Bool.and_eq_true, beq_iff_eq]
    constructor
    · rintro ⟨e, he, hg, hl⟩
      obtain ⟨s, hs, hn, told⟩ := f.exists_stat_of_mem he
      exact ⟨e.pid, s, hs, ⟨told.live.symm.trans hl, hn⟩, told.group.symm.trans hg⟩
    · rintro ⟨pid, s, hs, ⟨hl, hn⟩, hg⟩
      obtain ⟨e, he, -, told⟩ := f.exists_mem_of_stat hs hn
      exact ⟨e, he, told.group.trans hg, told.live.trans hl⟩
  children past parent := by
    refine ⟨_, play_liveChildren h past parent, pairwise_mergeSort ?_, fun pid => ?_⟩
    · exact f.nodup_entries.sublist (List.filter_sublist.map Entry.pid)
    · simp only [List.mem_mergeSort, List.mem_map, List.mem_filter, Bool.and_eq_true, beq_iff_eq]
      constructor
      · rintro ⟨e, ⟨he, hp, hl⟩, rfl⟩
        obtain ⟨s, hs, hn, told⟩ := f.exists_stat_of_mem he
        exact ⟨s, hs, ⟨told.live.symm.trans hl, hn⟩, told.parent.symm.trans hp⟩
      · rintro ⟨s, hs, ⟨hl, hn⟩, hp⟩
        obtain ⟨e, he, rfl, told⟩ := f.exists_mem_of_stat hs hn
        exact ⟨e, ⟨he, told.parent.trans hp, told.live.trans hl⟩, rfl⟩

namespace Tells
variable {f} {t : Roster} {env : Environment} {kind kind' : Stat → Prop}

/-- Kinds that the processes of the roster do not tell apart. -/
theorem congr (h : f.Tells t env kind)
    (same : ∀ pid s, f.stat? pid = some s → (kind s ↔ kind' s)) : f.Tells t env kind' where
  group past group := by
    obtain ⟨live, played, truth⟩ := h.group past group
    refine ⟨live, played, truth.trans (exists_congr fun pid => exists_congr fun s => ?_)⟩
    exact and_congr_right fun hs => and_congr_left' (same pid s hs)
  children past parent := by
    obtain ⟨pids, played, sorted, members⟩ := h.children past parent
    refine ⟨pids, played, sorted, fun pid => (members pid).trans (exists_congr fun s => ?_)⟩
    exact and_congr_right fun hs => and_congr_left' (same pid s hs)

/-- The children of one parent tell two kinds apart. -/
theorem same (h : f.Tells t env kind) (h' : f.Tells t env kind') {pid : Pid} {s : Stat}
    (hs : f.stat? pid = some s) : kind s ↔ kind' s := by
  obtain ⟨pids, played, -, members⟩ := h.children [] s.parent
  obtain ⟨pids', played', -, members'⟩ := h'.children [] s.parent
  obtain rfl : pids = pids' := Except.ok.inj (played.symm.trans played')
  have child (k : Stat → Prop) :
      (∃ s', f.stat? pid = some s' ∧ k s' ∧ s'.parent = s.parent) ↔ k s := by
    simp [hs]
  rw [← child kind, ← members pid, members' pid, child kind']

end Tells

/-- Of the processes whose names are text, the roster tells whether a live one is in a group and which
live ones are children of a process. Of all processes it does exactly if each that is live has a name
that is text. -/
theorem tells_iff_named {t : Roster} {env : Environment} (h : f.ShownBy t env) :
    (f.Tells t env fun s => s.isLive = true ∧ s.name?.isSome) ∧
      ((f.Tells t env fun s => s.isLive = true) ↔
        ∀ pid s, f.stat? pid = some s → s.isLive = true → s.name?.isSome) := by
  have named := f.tells_named h
  refine ⟨named, fun all pid s hs live => ?_, fun text => ?_⟩
  · exact ((all.same named hs).1 live).2
  · exact named.congr fun pid s hs => ⟨And.left, fun live => ⟨live, text pid s hs live⟩⟩

/-! ## A roster of one process -/

/-- The replies of a machine that has this roster and nothing else. -/
def replies (t : Roster) : Environment
  | _, .list path => if path = t.root then .ok f.names else .error .notFound
  | _, .read path =>
    match f.pids.find? fun pid => t.linePath pid = path with
    | some pid => ((f.stat? pid).map fun s => s.line pid).elim (.error .notFound) .ok
    | none => .error .notFound
  | _, .kind _ => none
  | _, .isProgram _ => false
  | _, .searchPath => []
  | _, .now => 0
  | _, .sleep _ | _, .publish _ | _, .retract _ | _, .guard => ()
  | _, .canonical _ | _, .create _ | _, .openLog _ _ | _, .write _ _ | _, .report _ | _, .flush
  | _, .run _ _ _ | _, .spawn _ _ _ | _, .poll _ | _, .await _ | _, .kill _
  | _, .signalGroup _ _ => .error .denied

theorem shownBy_replies (t : Roster) : f.ShownBy t (f.replies t) where
  list _ := if_pos rfl
  read past pid s hs := by
    have listed : pid ∈ f.pids := (f.mem_pids pid).2 (Option.isSome_iff_exists.2 ⟨s, hs⟩)
    rw [replies]
    cases found : f.pids.find? fun other => t.linePath other = t.linePath pid with
    | none =>
      have missed := List.find?_eq_none.1 found pid listed
      exact absurd (decide_eq_true rfl) missed
    | some other =>
      have same : decide (t.linePath other = t.linePath pid) = true :=
        List.find?_some (p := fun other => decide (t.linePath other = t.linePath pid)) found
      obtain rfl : other = pid := t.linePath_injective (of_decide_eq_true same)
      dsimp only
      rw [hs]
      rfl

def one (pid : Pid) (s : Stat) (h : pid ≤ pidLimit) : Snapshot where
  names := [Utf8.encode (toString pid)]
  stat? other := if other = pid then some s else none
  nodup := List.pairwise_singleton _ _
  numbered := by
    intro name hn other ho
    obtain rfl := List.mem_singleton.1 hn
    obtain rfl : pid = other := Option.some.inj ((pidOfName?_toString h).symm.trans ho)
    exact ⟨rfl, by rw [if_pos rfl]; rfl⟩
  listed := by
    intro other ho
    by_cases e : other = pid
    · subst e
      exact ⟨h, List.mem_singleton_self _⟩
    · rw [if_neg e] at ho
      cases ho

theorem eq_of_stat?_one {pid other : Pid} {s s' : Stat} {h : pid ≤ pidLimit}
    (hs : (one pid s h).stat? other = some s') : s' = s := by
  change (if other = pid then some s else none) = some s' at hs
  split at hs
  · exact (Option.some.inj hs).symm
  · cases hs

/-- A process of the group 300 that sleeps, by its name. -/
def sleeper (comm : Bytes) : Stat where
  comm
  state := 'S'
  parent := 300
  group := 300
  more := " 300 0 -1 4194560 0\n"
  state_plain := by decide
  state_solid := by decide
  state_open := by decide
  parent_le := by decide
  group_le := by decide
  more_plain := Utf8.plain_of_all rfl
  more_blank := by
    intro c hc
    cases hc
    decide
  more_open := by decide

def ofSleeper (comm : Bytes) : Snapshot := one 301 (sleeper comm) (by decide)

theorem shell_told :
    (ofSleeper (Utf8.encode "sh")).Tells system ((ofSleeper (Utf8.encode "sh")).replies system)
      fun s => s.isLive = true := by
  refine (tells_iff_named _ (shownBy_replies _ system)).2.2 fun pid s hs _ => ?_
  rw [eq_of_stat?_one hs]
  decide +kernel

/-- A live process whose name was cut within a character is overlooked. -/
theorem cut_name_overlooked :
    ∃ comm : Bytes, comm.length ≤ 15 ∧ (sleeper comm).isLive = true ∧
      ∃ env, (ofSleeper comm).ShownBy system env ∧
        ((system.groupIsLive 300).outcome.play env []).1 = .ok false ∧
        ((system.liveChildren 300).outcome.play env []).1 = .ok [] ∧
        ¬ (ofSleeper comm).Tells system env fun s => s.isLive = true := by
  let comm : Bytes := List.replicate 14 97 ++ [0xC3]
  have nameless : (sleeper comm).name? = none := by decide +kernel
  have stat : (ofSleeper comm).stat? 301 = some (sleeper comm) := rfl
  have shown := shownBy_replies (ofSleeper comm) system
  have empty : (ofSleeper comm).entries = [] := by
    refine List.filterMap_eq_nil_iff.2 fun pid _ => Option.bind_eq_none_iff.2 fun s hs => ?_
    rw [eq_of_stat?_one hs, Stat.told?, nameless, Option.map_none]
  have group := play_groupIsLive shown [] 300
  have children := play_liveChildren shown [] 300
  rw [empty] at group children
  rw [List.filter_nil, List.map_nil, List.mergeSort_nil] at children
  refine ⟨comm, by decide, rfl, _, shown, group, children, fun tells => ?_⟩
  obtain ⟨live, played, truth⟩ := tells.group [] 300
  have found := truth.2 ⟨301, sleeper comm, stat, rfl, rfl⟩
  rw [found, group] at played
  cases played

end Snapshot
end PatchTrial.Trial.Roster
