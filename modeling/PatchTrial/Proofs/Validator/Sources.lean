import PatchTrial.Proofs.Validator.Language
import PatchTrial.Proofs.Validator.Vocabulary

/-!
Tables in which each line tells one thing at most. The values of a thing stand behind a start of their
own, so they can be read off a log without its other lines, and each thing is judged for itself.

What is proved:
  1. `changeCount_le_one_iff` and `changeCount_eq_one_iff`: the sequences in which a value changes once.
  2. `Table.Tells.valuesOf_eq`: what is read of a thing is what its own lines tell, in their order.
  3. `Table.Tells.consistent_iff`, `changed_iff` and `seen_iff`: whether lines are refused, and whether a
     requirement is met, told from these values.
-/
namespace PatchTrial.Validator

/-- How often neighbours in a list of values differ. -/
def changeCount : List String → Nat
  | a :: b :: rest => (if a = b then 0 else 1) + changeCount (b :: rest)
  | _ => 0

/-- What a line has behind a start, if it starts like that. -/
def textAfter? (start line : String) : Option String :=
  (line.toList.dropPrefix? start.toList).map String.ofList

/-- Something whose values are told by lines of their own: the key of its readings, the start of its
lines, and the rule of its values. -/
structure Source where
  key : String
  start : String
  rule : Rule

/-- What is told of a source in a log. -/
def Source.told (s : Source) (lines : List String) : List String :=
  lines.filterMap (textAfter? s.start)

/-- What is read in a line: nothing if it has one of the quiet starts, or the value it tells. -/
inductive Told (quiet : List String) (sources : List Source) : String → List Reading → Prop
  | quiet {start line : String} (hm : start ∈ quiet) (starts : StartsWith start line) :
    Told quiet sources line []
  | value {s : Source} (hs : s ∈ sources) (text : String) :
    Told quiet sources (s.start ++ text) [⟨s.key, some (s.rule, text)⟩]

/-- A table reads quiet lines and the lines of some sources, and these can be told apart. -/
structure Table.Tells (t : Table) (quiet : List String) (sources : List Source) : Prop where
  told : ∀ line, t.Readable line → Told quiet sources line (t.lineReadings line)
  apart : Regex.PrefixFree ((quiet ++ sources.map Source.start).map String.toList)
  starts : (quiet ++ sources.map Source.start).Nodup
  keys : (sources.map Source.key).Nodup
  moves : ∀ s ∈ sources, s.rule.Moves

/-! ## Changes -/

theorem changeCount_eq_zero_iff {a : String} {vs : List String} :
    changeCount (a :: vs) = 0 ↔ vs = List.replicate vs.length a := by
  induction vs generalizing a with
  | nil => exact ⟨fun _ => rfl, fun _ => rfl⟩
  | cons b rest ih =>
    rw [changeCount, Nat.add_eq_zero_iff, ih, List.length_cons, List.replicate_succ, List.cons.injEq]
    by_cases h : a = b
    · subst h
      simp
    · simp [h, Ne.symm h]

/-- The runs of a list with one change at most, told by the first value. -/
theorem changeCount_cons_le_one_iff {a : String} {vs : List String} :
    changeCount (a :: vs) ≤ 1 ↔
      vs = List.replicate vs.length a ∨
        ∃ b m n, b ≠ a ∧ vs = List.replicate m a ++ List.replicate (n + 1) b := by
  induction vs generalizing a with
  | nil => exact ⟨fun _ => .inl rfl, fun _ => Nat.zero_le 1⟩
  | cons b rest ih =>
    by_cases h : a = b
    · subst h
      rw [changeCount, if_pos rfl, Nat.zero_add, ih, List.length_cons, List.replicate_succ,
        List.cons.injEq, and_iff_right rfl]
      refine or_congr_right ⟨fun h => ?_, fun h => ?_⟩
      · obtain ⟨c, m, n, hc, e⟩ := h
        exact ⟨c, m + 1, n, hc, congrArg (a :: ·) e⟩
      · obtain ⟨c, m, n, hc, e⟩ := h
        rcases cons_two_runs e with ⟨same, -⟩ | ⟨-, m', e'⟩
        · exact absurd same.symm hc
        · exact ⟨c, m', n, hc, e'⟩
    · -- the change is made, so all that is left is of one value
      have settled : changeCount (a :: b :: rest) ≤ 1 ↔ rest = List.replicate rest.length b := by
        rw [changeCount, if_neg h, ← changeCount_eq_zero_iff]
        omega
      rw [settled]
      constructor
      · intro e
        exact .inr ⟨b, 0, rest.length, Ne.symm h, by
          rw [List.replicate_zero, List.nil_append, List.replicate_succ, ← e]⟩
      · intro runs
        rcases runs with e | ⟨c, m, n, -, e⟩
        · rw [List.length_cons, List.replicate_succ, List.cons.injEq] at e
          exact absurd e.1.symm h
        · rcases cons_two_runs e with ⟨rfl, rfl⟩ | ⟨same, -⟩
          · rw [List.length_replicate]
          · exact absurd same.symm h

/-- The rule that allows one change admits lists with one change at most. -/
theorem changeCount_le_one_iff {vs : List String} :
    changeCount vs ≤ 1 ↔ Rule.changeOnce.Admits vs := by
  cases vs with
  | nil => exact ⟨fun _ => Rule.changeOnce.admits_nil, fun _ => Nat.zero_le 1⟩
  | cons a vs =>
    rw [changeCount_cons_le_one_iff, Rule.admits_cons (show Rule.Moves .changeOnce from trivial)]
    simp only [Rule.Opens, Rule.GoesOver, true_and]

theorem changeCount_eq_zero_iff_same {vs : List String} :
    changeCount vs = 0 ↔ ∀ v ∈ vs, ∀ w ∈ vs, v = w := by
  cases vs with
  | nil => exact ⟨fun _ v hv => (by cases hv), fun _ => rfl⟩
  | cons a rest =>
    rw [changeCount_eq_zero_iff, List.eq_replicate_iff, and_iff_right rfl]
    constructor
    · intro h
      have first : ∀ v ∈ a :: rest, v = a := List.forall_mem_cons.2 ⟨rfl, h⟩
      exact fun v hv w hw => (first v hv).trans (first w hw).symm
    · intro h v hv
      exact h v (List.mem_cons_of_mem a hv) a List.mem_cons_self

/-- And there is a change if two of the values differ. -/
theorem changeCount_eq_one_iff {vs : List String} :
    changeCount vs = 1 ↔ Rule.changeOnce.Admits vs ∧ ∃ v ∈ vs, ∃ w ∈ vs, v ≠ w := by
  have differ : (∃ v ∈ vs, ∃ w ∈ vs, v ≠ w) ↔ changeCount vs ≠ 0 := by
    rw [ne_eq, changeCount_eq_zero_iff_same]
    simp only [not_forall, exists_prop, ne_eq]
  rw [← changeCount_le_one_iff, differ]
  omega

/-! ## Texts behind a start -/

theorem textAfter?_eq_some_iff {start line text : String} :
    textAfter? start line = some text ↔ line = start ++ text := by
  rw [textAfter?, Option.map_eq_some_iff, ← String.toList_inj, String.toList_append]
  constructor
  · intro h
    obtain ⟨rest, dropped, rfl⟩ := h
    obtain ⟨begun, e, same⟩ := List.dropPrefix?_eq_some_iff.1 dropped
    rw [e, eq_of_beq same, String.toList_ofList]
  · intro e
    refine ⟨text.toList, List.dropPrefix?_eq_some_iff.2 ⟨start.toList, e, beq_self_eq_true _⟩, ?_⟩
    exact String.ofList_toList

theorem startsWith_append {start line : String} (h : StartsWith start line) (text : String) :
    StartsWith start (line ++ text) := by
  rw [StartsWith, String.toList_append]
  exact List.IsPrefix.trans h (List.prefix_append _ _)

theorem startsWith_of_textAfter? {start line text : String} (h : textAfter? start line = some text) :
    StartsWith start line := by
  rw [textAfter?_eq_some_iff.1 h]
  exact startsWith_append (List.prefix_refl _) text


/-! ## What is told of a source -/

namespace Table.Tells
variable {t : Table} {quiet : List String} {sources : List Source} (h : t.Tells quiet sources)
include h

/-- A line of one start has nothing behind another one. -/
theorem textAfter?_eq_none {start line : String} {s : Source}
    (hm : start ∈ quiet ++ sources.map Source.start) (starts : StartsWith start line)
    (hs : s ∈ sources) (ne : start ≠ s.start) : textAfter? s.start line = none := by
  refine Option.eq_none_iff_forall_ne_some.2 fun text told => ne (String.toList_inj.1 ?_)
  have other : s.start ∈ quiet ++ sources.map Source.start :=
    List.mem_append_right _ (List.mem_map_of_mem hs)
  exact h.apart.eq (List.mem_map_of_mem hm) (List.mem_map_of_mem other) starts
    (startsWith_of_textAfter? told)

/-- The values that are read of a source in a line are those that the line tells of it. -/
theorem valuesOf_line {line : String} (readable : t.Readable line) {s : Source} (hs : s ∈ sources) :
    valuesOf s.key (t.lineReadings line) = (textAfter? s.start line).toList.map (s.rule, ·) := by
  obtain ⟨-, starts, disjoint⟩ := List.nodup_append.1 h.starts
  have told := h.told line readable
  generalize t.lineReadings line = rs at told
  cases told with
  | quiet hm begins =>
    have ne := disjoint _ hm _ (List.mem_map_of_mem hs)
    rw [h.textAfter?_eq_none (List.mem_append_left _ hm) begins hs ne]
    rfl
  | @value s' hs' text =>
    by_cases same : s' = s
    · subst same
      rw [textAfter?_eq_some_iff.2 rfl]
      exact valuesOf_singleton_self _
    · have ne : s'.start ≠ s.start := fun e => same (List.inj_on_of_nodup_map starts hs' hs e)
      have key : s'.key ≠ s.key := fun e => same (List.inj_on_of_nodup_map h.keys hs' hs e)
      rw [valuesOf_singleton_of_ne key, h.textAfter?_eq_none (List.mem_append_right _
        (List.mem_map_of_mem hs')) (startsWith_append (List.prefix_refl _) text) hs ne]
      rfl

section Logs
variable {lines : List String} (readable : ∀ line ∈ lines, t.Readable line)
include readable

/-- The values that are read of a source are those that its own lines tell, in their order. -/
theorem valuesOf_eq {s : Source} (hs : s ∈ sources) :
    valuesOf s.key (t.readings lines) = (s.told lines).map (s.rule, ·) := by
  induction lines with
  | nil => rfl
  | cons line rest ih =>
    obtain ⟨now, later⟩ := List.forall_mem_cons.1 readable
    rw [readings_cons, valuesOf_append, h.valuesOf_line now hs, ih later, ← List.map_append,
      Source.told, Source.told, List.filterMap_cons]
    cases textAfter? s.start line <;> rfl

/-- Nothing else is read. -/
theorem exists_source {r : Reading} (hr : r ∈ t.readings lines) :
    ∃ s ∈ sources, ∃ text, r = ⟨s.key, some (s.rule, text)⟩ := by
  obtain ⟨line, hl, hr⟩ := List.mem_flatMap.1 hr
  have told := h.told line (readable line hl)
  generalize t.lineReadings line = rs at told hr
  cases told with
  | quiet => cases hr
  | value hs text => exact ⟨_, hs, text, List.mem_singleton.1 hr⟩

/-- No line is refused if the rule of each source admits what is told of it. -/
theorem consistent_iff :
    Consistent (t.readings lines) ↔ ∀ s ∈ sources, s.rule.Admits (s.told lines) := by
  have standing {s : Source} (hs : s ∈ sources) :
      (standing? s.key none (valuesOf s.key (t.readings lines))).isSome ↔
        s.rule.Admits (s.told lines) := by
    rw [h.valuesOf_eq readable hs]
    exact standing?_isSome_iff_admits (h.moves s hs) s.key _
  constructor
  · intro consistent s hs
    exact (standing hs).1 (consistent s.key)
  · intro admits key
    by_cases known : ∃ s ∈ sources, s.key = key
    · obtain ⟨s, hs, rfl⟩ := known
      exact (standing hs).2 (admits s hs)
    · have none : valuesOf key (t.readings lines) = [] := by
        refine List.eq_nil_iff_forall_not_mem.2 fun p hp => known ?_
        obtain ⟨r, hr, hk, -⟩ := mem_valuesOf.1 hp
        obtain ⟨s, hs, text, rfl⟩ := h.exists_source readable hr
        exact ⟨s, hs, hk⟩
      rw [none]
      rfl

theorem changed_iff {s : Source} (hs : s ∈ sources) :
    (Requirement.changed s.key).ShownBy (t.readings lines) ↔
      s.rule.Admits (s.told lines) ∧ ∃ v ∈ s.told lines, ∃ w ∈ s.told lines, v ≠ w := by
  rw [Requirement.ShownBy, h.valuesOf_eq readable hs,
    ← standing?_isSome_iff_admits (h.moves s hs) s.key]
  cases hx : standing? s.key none ((s.told lines).map (s.rule, ·)) with
  | none => simp
  | some x =>
    rw [← changed_iff_differ hx]
    simp

theorem seen_iff {s : Source} (hs : s ∈ sources) :
    (Requirement.seen s.key).ShownBy (t.readings lines) ↔ s.told lines ≠ [] := by
  have values := h.valuesOf_eq readable hs
  constructor
  · intro shown none
    obtain ⟨r, hr, hk⟩ := shown
    obtain ⟨s', hs', text, rfl⟩ := h.exists_source readable hr
    have read : (s'.rule, text) ∈ valuesOf s.key (t.readings lines) :=
      mem_valuesOf.2 ⟨_, hr, hk, rfl⟩
    rw [values, none] at read
    cases read
  · intro some_
    obtain ⟨text, ht⟩ := List.exists_mem_of_ne_nil _ some_
    have read : (s.rule, text) ∈ valuesOf s.key (t.readings lines) := by
      rw [values]
      exact List.mem_map_of_mem ht
    obtain ⟨r, hr, hk, -⟩ := mem_valuesOf.1 read
    exact ⟨r, hr, hk⟩

end Logs

end Table.Tells

end PatchTrial.Validator
