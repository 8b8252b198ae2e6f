import Mathlib.Data.List.Sort
import PatchTrial.Proofs.Trial.Snapshot

/-!
Following wrappers. The kernel cuts the name of a program after 15 bytes, wherever they end; the name
it is looked for under is cut after 15 characters. The two agree exactly if these characters take no
more than 15 bytes.

What is proved:
  1. `commOf_eq`, `encode_commOf_iff`: the name a program is looked for under, and when it is the
     name that the kernel keeps.
  2. `Wraps.le_limit`: a chain of wrappers is no longer than there are numbers of processes, so the
     steps that are allowed are enough.
  3. `Snapshot.resolveWrapped_iff_fits`: the program behind a chain of wrappers is found exactly if
     the two names agree and its own name is text.
-/
namespace PatchTrial.Trial.Roster
open Entry

/-! ## The two names -/

/-- The name the kernel keeps of a program: the first 15 bytes. -/
def keptName (name : String) : Bytes := (Utf8.encode name).take 15

/-- The first 15 characters of a name take no more than 15 bytes. -/
def Fits (name : String) : Prop :=
  (Utf8.encode (String.ofList (name.toList.take 15))).length ≤ 15

instance (name : String) : Decidable (Fits name) := inferInstanceAs (Decidable (_ ≤ _))

/-- A program is looked for under the first 15 characters of its last name. -/
theorem commOf_eq {program name : String}
    (h : (Path.ofString program).fileName? = some (Utf8.encode name)) :
    commOf program = String.ofList (name.toList.take 15) := by
  rw [commOf, Path.label, h]
  dsimp only
  rw [Utf8.decodeLossy_encode]
  rfl

theorem length_le_encode (cs : List Char) :
    cs.length ≤ (Utf8.encode (String.ofList cs)).length := by
  rw [Utf8.encode, String.toList_ofList]
  induction cs with
  | nil => exact Nat.le_refl 0
  | cons c rest ih =>
    have one : 1 ≤ (String.utf8EncodeChar c).length := by
      rw [String.length_utf8EncodeChar]
      exact Char.utf8Size_pos c
    rw [List.flatMap_cons, List.length_append, List.length_cons]
    omega

/-- The kernel keeps the name a program is looked for under exactly if that name fits. -/
theorem keptName_eq_iff (name : String) :
    keptName name = Utf8.encode (String.ofList (name.toList.take 15)) ↔ Fits name := by
  have whole : Utf8.encode name = Utf8.encode (String.ofList (name.toList.take 15)) ++
      Utf8.encode (String.ofList (name.toList.drop 15)) := by
    simp only [Utf8.encode, String.toList_ofList]
    rw [← List.flatMap_append, List.take_append_drop]
  constructor
  · intro e
    rw [Fits, ← e]
    exact List.length_take_le 15 _
  · intro fits
    rw [keptName, whole]
    by_cases short : name.toList.length ≤ 15
    · -- nothing is cut
      have rest : name.toList.drop 15 = [] := List.drop_eq_nil_of_le short
      rw [rest]
      exact (congrArg _ (List.append_nil _)).trans (List.take_of_length_le fits)
    · have least := length_le_encode (name.toList.take 15)
      rw [List.length_take_of_le (by omega)] at least
      exact List.take_left' (Nat.le_antisymm fits least)

namespace Snapshot
variable (f : Snapshot)

/-! ## Chains -/

/-- A process has one live child and no other. -/
def OnlyChild (parent child : Pid) : Prop :=
  ∀ pid, (∃ s, f.stat? pid = some s ∧ s.isLive = true ∧ s.parent = parent) ↔ pid = child

/-- So many processes of one name, each with the next as its only live child, lead to a target of
another name. -/
inductive Wraps (comm : Bytes) (target : Pid) : Nat → Pid → Prop
  | target {s : Stat} : f.stat? target = some s → s.comm ≠ comm → Wraps comm target 0 target
  | wrapper {n : Nat} {pid child : Pid} {s : Stat} : f.stat? pid = some s → s.comm = comm →
      f.OnlyChild pid child → Wraps comm target n child → Wraps comm target (n + 1) pid

variable {f} {comm : Bytes} {target : Pid}

theorem Wraps.exists_stat {n : Nat} {pid : Pid} (h : f.Wraps comm target n pid) :
    ∃ s, f.stat? pid = some s := by
  cases h with
  | target hs _ => exact ⟨_, hs⟩
  | wrapper hs _ _ _ => exact ⟨_, hs⟩

theorem Wraps.ne_target {n : Nat} {pid : Pid} (h : f.Wraps comm target (n + 1) pid)
    (last : f.Wraps comm target 0 target) : pid ≠ target := by
  intro e
  subst e
  cases h with
  | wrapper hs same _ _ =>
    cases last with
    | target hs' other =>
      rw [hs] at hs'
      cases hs'
      exact other same

theorem Wraps.last {n : Nat} {pid : Pid} (h : f.Wraps comm target n pid) :
    f.Wraps comm target 0 target := by
  induction h with
  | target hs other => exact .target hs other
  | wrapper _ _ _ _ ih => exact ih

/-- How far a process is from the target is settled by the roster. -/
theorem Wraps.unique {n m : Nat} {pid : Pid} (h : f.Wraps comm target n pid)
    (h' : f.Wraps comm target m pid) : n = m := by
  induction h generalizing m with
  | target hs other =>
    cases m with
    | zero => rfl
    | succ m => exact absurd rfl (h'.ne_target (.target hs other))
  | wrapper hs same only next ih =>
    cases h' with
    | target hs' other =>
      rw [hs] at hs'
      cases hs'
      exact absurd same other
    | wrapper _ _ only' next' =>
      obtain rfl := (only' _).1 ((only _).2 rfl)
      rw [ih next']

/-- The wrappers of a chain are different processes. -/
theorem Wraps.exists_nodup {n : Nat} {pid : Pid} (h : f.Wraps comm target n pid) :
    ∃ pids : List Pid, pids.length = n ∧ pids.Nodup ∧
      ∀ other ∈ pids, ∃ m, m < n ∧ f.Wraps comm target (m + 1) other := by
  induction h with
  | target _ _ => exact ⟨[], rfl, List.nodup_nil, fun _ hm => nomatch hm⟩
  | @wrapper n pid child s hs same only next ih =>
    obtain ⟨pids, length, nodup, chain⟩ := ih
    have whole : f.Wraps comm target (n + 1) pid := .wrapper hs same only next
    refine ⟨pid :: pids, by rw [List.length_cons, length], List.nodup_cons.2 ⟨?_, nodup⟩, ?_⟩
    · -- met again, the process would be nearer to the target than it is
      intro again
      obtain ⟨m, less, near⟩ := chain pid again
      have same := whole.unique near
      omega
    · intro other hm
      rcases List.mem_cons.1 hm with rfl | hm
      · exact ⟨n, Nat.lt_succ_self n, whole⟩
      · obtain ⟨m, less, near⟩ := chain other hm
        exact ⟨m, Nat.lt_succ_of_lt less, near⟩

theorem Wraps.le_limit {n : Nat} {pid : Pid} (h : f.Wraps comm target n pid) :
    n ≤ pidLimit + 1 := by
  obtain ⟨pids, rfl, nodup, chain⟩ := h.exists_nodup
  have numbers : pids ⊆ List.range (pidLimit + 1) := by
    intro pid hm
    obtain ⟨m, -, near⟩ := chain pid hm
    obtain ⟨s, hs⟩ := near.exists_stat
    have small := (f.listed pid (Option.isSome_iff_exists.2 ⟨s, hs⟩)).1
    exact List.mem_range.2 (Nat.lt_succ_of_le small)
  have counted := (List.subperm_of_subset nodup numbers).length_le
  rwa [List.length_range] at counted

/-! ## A roster of some processes -/

theorem mem_of_lookup {ps : List (Pid × Stat)} {pid : Pid} {s : Stat}
    (h : ps.lookup pid = some s) : (pid, s) ∈ ps := by
  obtain ⟨front, back, rfl, -⟩ := List.lookup_eq_some_iff.1 h
  exact List.mem_append_right front List.mem_cons_self

theorem lookup_of_mem {ps : List (Pid × Stat)} {pid : Pid} (h : pid ∈ ps.map Prod.fst) :
    (ps.lookup pid).isSome := by
  rw [Option.isSome_iff_ne_none]
  intro none
  obtain ⟨p, hp, rfl⟩ := List.mem_map.1 h
  exact bne_iff_ne.1 (List.lookup_eq_none_iff.1 none p hp) rfl

/-- The roster of some processes, by their numbers. -/
def ofList (ps : List (Pid × Stat)) (distinct : (ps.map Prod.fst).Nodup)
    (small : ∀ pid ∈ ps.map Prod.fst, pid ≤ pidLimit) : Snapshot where
  names := (ps.map Prod.fst).map fun pid => Utf8.encode (toString pid)
  stat? pid := ps.lookup pid
  nodup := List.pairwise_map.2 (distinct.imp fun ne e => ne (encode_toString_injective e))
  numbered := by
    intro name hn pid hp
    obtain ⟨other, hm, rfl⟩ := List.mem_map.1 hn
    obtain rfl : other = pid := Option.some.inj ((pidOfName?_toString (small other hm)).symm.trans hp)
    exact ⟨rfl, lookup_of_mem hm⟩
  listed := by
    intro pid h
    obtain ⟨s, hs⟩ := Option.isSome_iff_exists.1 h
    have hm : pid ∈ ps.map Prod.fst := List.mem_map.2 ⟨_, mem_of_lookup hs, rfl⟩
    exact ⟨small pid hm, List.mem_map.2 ⟨pid, hm, rfl⟩⟩

/-- The only child is the only one that the list shows. -/
theorem onlyChild_ofList {ps : List (Pid × Stat)} {distinct : (ps.map Prod.fst).Nodup}
    {small : ∀ pid ∈ ps.map Prod.fst, pid ≤ pidLimit} {parent child : Pid} {s : Stat}
    (one : ps.filter (fun p => p.2.isLive && p.2.parent == parent) = [(child, s)])
    (found : ps.lookup child = some s) : (ofList ps distinct small).OnlyChild parent child := by
  intro pid
  have shown (s' : Stat) : (pid, s') ∈ ps ∧ s'.isLive = true ∧ s'.parent = parent ↔
      (pid, s') = (child, s) := by
    have both := List.mem_singleton (a := (pid, s')) (b := (child, s))
    rwa [← one, List.mem_filter, Bool.and_eq_true, beq_iff_eq] at both
  constructor
  · rintro ⟨s', hs', live⟩
    exact congrArg Prod.fst ((shown s').1 ⟨mem_of_lookup hs', live⟩)
  · rintro rfl
    exact ⟨s, found, ((shown s).2 rfl).2⟩

/-- A process of the group 300 that sleeps, by its parent and its name. -/
def childOf (parent : Pid) (h : parent ≤ pidLimit) (comm : Bytes) : Stat :=
  { sleeper comm with parent, parent_le := h }

theorem nodup_three : [301, 302, 303].Nodup := by decide

theorem three_le : ∀ pid ∈ [301, 302, 303], pid ≤ pidLimit := by decide

theorem first_le : 301 ≤ pidLimit := three_le 301 (by decide)

theorem second_le : 302 ≤ pidLimit := three_le 302 (by decide)

/-- A wrapper, another one that it started, and the target. -/
def nested (comm : Bytes) : Snapshot :=
  ofList [(301, sleeper comm), (302, childOf 301 first_le comm),
    (303, childOf 302 second_le (Utf8.encode "test"))] nodup_three three_le

theorem wraps_nested {comm : Bytes} (other : Utf8.encode "test" ≠ comm) :
    (nested comm).Wraps comm 303 2 301 :=
  .wrapper rfl rfl (onlyChild_ofList rfl rfl)
    (.wrapper rfl rfl (onlyChild_ofList rfl rfl) (.target rfl other))

/-! ## Following a chain -/

section Following
variable {t : Roster} {env : Environment} (h : f.ShownBy t env)
include h

theorem play_info?_of_stat (past : Trace) {pid : Pid} {s : Stat} (hs : f.stat? pid = some s) :
    ((t.info? pid).play env past).1 = s.told? pid := by
  have listed : pid ∈ f.pids := (f.mem_pids pid).2 (Option.isSome_iff_exists.2 ⟨s, hs⟩)
  rw [play_info? h past listed, told?, hs, Option.bind_some]

/-- The only live child is told, if its name is text. -/
theorem play_liveChildren_only (past : Trace) {pid child : Pid} (only : f.OnlyChild pid child)
    {s : Stat} (hs : f.stat? child = some s) :
    ((t.liveChildren pid).outcome.play env past).1 =
      .ok (if s.name?.isSome then [child] else []) := by
  obtain ⟨pids, played, sorted, members⟩ := (f.tells_named h).children past pid
  have told (other : Pid) : other ∈ pids ↔ other = child ∧ s.name?.isSome := by
    rw [members]
    constructor
    · rintro ⟨s', hs', ⟨live, text⟩, parent⟩
      obtain rfl := (only other).1 ⟨s', hs', live, parent⟩
      rw [hs] at hs'
      cases hs'
      exact ⟨rfl, text⟩
    · rintro ⟨rfl, text⟩
      obtain ⟨s', hs', live, parent⟩ := (only other).2 rfl
      rw [hs] at hs'
      cases hs'
      exact ⟨s, hs, ⟨live, text⟩, parent⟩
  rw [played]
  congr 1
  by_cases text : s.name?.isSome = true
  · rw [if_pos text]
    have one : ∀ other, other ∈ pids ↔ other ∈ [child] := by
      intro other
      rw [told, List.mem_singleton, and_iff_left text]
    exact sorted.eq_of_mem_iff (List.pairwise_singleton _ _) one
  · rw [if_neg text]
    exact List.eq_nil_iff_forall_not_mem.2 fun other hm => text ((told other).1 hm).2

variable {name : String}

/-- A process of another name is no wrapper. -/
theorem play_followWrappers_other (past : Trace) (steps : Nat) {pid : Pid} {s : Stat}
    (hs : f.stat? pid = some s) (other : s.comm ≠ Utf8.encode name) :
    ((t.followWrappers name steps pid).play env past).1 = pid := by
  cases steps with
  | zero => rfl
  | succ steps =>
    rw [followWrappers, Plan.play_bind, play_info?_of_stat h past hs, Stat.told?]
    cases text : s.name? with
    | none => rfl
    | some comm =>
      have ne : comm ≠ name := by
        rintro rfl
        exact other (Utf8.decode?_eq_some_iff.1 text)
      dsimp only [Option.map_some]
      rw [if_pos ne]
      rfl

/-- From a wrapper it goes on to its child, if the name of the child is text. -/
theorem play_followWrappers_wrapper (past : Trace) (steps : Nat) {pid child : Pid} {s s' : Stat}
    (hs : f.stat? pid = some s) (same : s.comm = Utf8.encode name) (only : f.OnlyChild pid child)
    (hs' : f.stat? child = some s') :
    ∃ past', ((t.followWrappers name (steps + 1) pid).play env past).1 =
      if s'.name?.isSome then ((t.followWrappers name steps child).play env past').1 else pid := by
  have text : s.name? = some name := Utf8.decode?_eq_some_iff.2 same
  rw [followWrappers, Plan.play_bind, play_info?_of_stat h past hs, Stat.told?, text]
  dsimp only [Option.map_some]
  rw [if_neg (not_not_intro rfl), Plan.play_bind, play_liveChildren_only h _ only hs']
  by_cases named : s'.name?.isSome = true
  · simp only [if_pos named]
    exact ⟨_, rfl⟩
  · simp only [if_neg named]
    exact ⟨[], rfl⟩

/-- A chain of wrappers of the name that is looked for is followed to its end, but not onto a target
whose name is no text. -/
theorem play_followWrappers_wraps (past : Trace) {n steps : Nat} (enough : n ≤ steps) {pid : Pid}
    (chain : f.Wraps (Utf8.encode name) target n pid) {s : Stat} (hs : f.stat? target = some s) :
    ((t.followWrappers name steps pid).play env past).1 = target ↔ n = 0 ∨ s.name?.isSome := by
  induction chain generalizing steps past with
  | target hs' other =>
    exact iff_of_true (play_followWrappers_other h past steps hs' other) (.inl rfl)
  | @wrapper n pid child s' hs' same only next ih =>
    have apart : pid ≠ target := (Wraps.wrapper hs' same only next).ne_target next.last
    obtain ⟨steps, rfl⟩ : ∃ k, steps = k + 1 := ⟨steps - 1, by omega⟩
    obtain ⟨sc, hsc⟩ := next.exists_stat
    obtain ⟨past', step⟩ := play_followWrappers_wrapper h past steps hs' same only hsc
    rw [step]
    -- the child is the target, or a wrapper, whose name is text
    have named : sc.name?.isSome = true ↔ n ≠ 0 ∨ s.name?.isSome = true := by
      cases next with
      | target _ _ =>
        rw [hs] at hsc
        cases hsc
        exact ⟨.inr, fun e => e.resolve_left (not_not_intro rfl)⟩
      | wrapper hs'' same' _ _ =>
        rw [hsc] at hs''
        cases hs''
        have text : sc.name? = some name := Utf8.decode?_eq_some_iff.2 same'
        exact iff_of_true (Option.isSome_iff_exists.2 ⟨name, text⟩) (.inl (Nat.succ_ne_zero _))
    by_cases text : sc.name?.isSome = true
    · rw [if_pos text, ih past' (by omega)]
      have near : n = 0 → s.name?.isSome = true := fun e =>
        (named.1 text).resolve_left (not_not_intro e)
      exact ⟨fun e => .inr (e.elim near id), fun e => .inr (e.resolve_left (Nat.succ_ne_zero n))⟩
    · rw [if_neg text]
      have nameless : ¬ s.name?.isSome = true := fun e => text (named.2 (.inr e))
      exact iff_of_false apart fun e => e.elim (Nat.succ_ne_zero n) nameless

end Following

/-! ## The target behind the wrappers -/

/-- A process that is spawned through a program and the wrappers below it go by the name the kernel
keeps of the program. Looking for the name of the program, the target behind them is found exactly
if that name fits and the name of the target is text. -/
theorem resolveWrapped_iff_fits {t : Roster} {env : Environment} (h : f.ShownBy t env)
    {program name : String} (hp : (Path.ofString program).fileName? = some (Utf8.encode name))
    {n : Nat} {spawned : Pid} (chain : f.Wraps (keptName name) target (n + 1) spawned) (past : Trace) :
    ((t.resolveWrapped spawned (commOf program)).play env past).1 = target ↔
      Fits name ∧ ∃ s, f.stat? target = some s ∧ s.name?.isSome := by
  obtain ⟨s, hs⟩ := chain.last.exists_stat
  have readable : (∃ s, f.stat? target = some s ∧ s.name?.isSome) ↔ s.name?.isSome := by
    simp [hs]
  rw [readable, resolveWrapped, commOf_eq hp]
  by_cases fits : Fits name
  · rw [and_iff_right fits]
    have enough := chain.le_limit
    rw [(keptName_eq_iff name).2 fits] at chain
    rw [play_followWrappers_wraps h past enough chain hs]
    exact or_iff_right (Nat.succ_ne_zero n)
  · -- already the process that was spawned goes by another name
    refine iff_of_false (fun e => ?_) fun e => fits e.1
    have apart := chain.ne_target chain.last
    cases chain with
    | wrapper hs' same _ _ =>
      have other := mt (keptName_eq_iff name).1 fits
      rw [← same] at other
      exact apart ((play_followWrappers_other h past _ hs' other).symm.trans e)

/-- A short name is looked for as it is kept, through two wrappers. -/
theorem nested_resolved :
    ((system.resolveWrapped 301 (commOf "/usr/bin/sudo")).play
      ((nested (keptName "sudo")).replies system) []).1 = 303 := by
  have named : (Path.ofString "/usr/bin/sudo").fileName? = some (Utf8.encode "sudo") := by decide
  have chain : (nested (keptName "sudo")).Wraps (keptName "sudo") 303 2 301 :=
    wraps_nested (by decide)
  have text : Stat.name? (childOf 302 second_le (Utf8.encode "test")) = some "test" :=
    Utf8.decode?_eq_some_iff.2 rfl
  exact (resolveWrapped_iff_fits (shownBy_replies _ system) named chain []).2
    ⟨by decide, _, rfl, Option.isSome_iff_exists.2 ⟨_, text⟩⟩

/-- A name of nine characters and 17 bytes is kept in part and looked for as a whole, so the wrapper
is taken for the target. -/
theorem nested_unresolved :
    ∃ (program name : String) (f : Snapshot) (env : Environment),
      (Path.ofString program).fileName? = some (Utf8.encode name) ∧ f.ShownBy system env ∧
        f.Wraps (keptName name) 303 2 301 ∧
        (∃ s, f.stat? 303 = some s ∧ s.name? = some "test") ∧
        ((system.resolveWrapped 301 (commOf program)).play env []).1 = 301 := by
  let name := "aéééééééé"
  have named : (Path.ofString "/opt/aéééééééé").fileName? = some (Utf8.encode name) := by decide
  have chain : (nested (keptName name)).Wraps (keptName name) 303 2 301 :=
    wraps_nested (by decide)
  have shown := shownBy_replies (nested (keptName name)) system
  have other : keptName name ≠ Utf8.encode (String.ofList (name.toList.take 15)) := by decide
  refine ⟨"/opt/aéééééééé", name, _, _, named, shown, chain,
    ⟨_, rfl, Utf8.decode?_eq_some_iff.2 rfl⟩, ?_⟩
  rw [resolveWrapped, commOf_eq named]
  exact play_followWrappers_other shown [] _ rfl other

end Snapshot
end PatchTrial.Trial.Roster
