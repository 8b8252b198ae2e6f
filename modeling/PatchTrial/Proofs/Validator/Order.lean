import Mathlib.Data.List.Nodup
import Mathlib.Data.List.Perm.Basic
import PatchTrial.Proofs.Validator.Histories

/-!
The order of a description. Shapes stand in the order in which they are described, and so do the
checks of a shape and the requirements; none of it decides what a log is worth.

What is proved:
  1. `dispatch_eq_some_iff`: the shape that judges a line is the one with the longest start that the
     line has. Starts of one line that are equally long are the same start, so there is no tie.
  2. `Table.evaluateFrom_rel`: tables that judge every line alike differ in their verdicts at most
     as they differ when no line is left.
  3. `history_perm` and `passed_iff_shown`: readings of different keys may change places, and
     whether a log passes is a matter of its readings.
  4. `verdict_of_any_order`: what rearranging shapes, requirements and checks does to the verdict.
-/
namespace PatchTrial.Validator

/-- Of some shapes the one with the longest start that a line has; any other start that the line has
is shorter. -/
structure Shape.Longest (line : String) (shapes : List Shape) (shape : Shape) : Prop where
  mem : shape ∈ shapes
  covers : shape.covers line = true
  longest : ∀ s ∈ shapes, s.covers line = true → s ≠ shape → s.start.length < shape.start.length

/-- The same shape with its checks in another order. -/
inductive Shape.Rearranged : Shape → Shape → Prop
  | judged (start : String) {j j' : Judged} (pattern : j.pattern = j'.pattern)
    (checks : j.checks.Perm j'.checks) : Rearranged ⟨start, some j⟩ ⟨start, some j'⟩
  | plain (start : String) : Rearranged ⟨start, none⟩ ⟨start, none⟩

/-- The same verdict, up to the order in which unmet requirements are told. -/
inductive Verdict.Rearranged : Verdict → Verdict → Prop
  | same (v : Verdict) : Rearranged v v
  | unmet {missing missing' : List Requirement} (h : missing.Perm missing') :
    Rearranged (.fail (.unmet missing)) (.fail (.unmet missing'))

/-- The keys that the checks of a line resolve to, in the order of the checks. -/
def Table.lineKeys (t : Table) (line : String) : List String :=
  match Shape.dispatch line t.shapes with
  | none => []
  | some shape =>
    match shape.judged? with
    | none => []
    | some j =>
      match j.pattern.captures? line with
      | none => []
      | some captures => j.checks.filterMap fun c => c.key.resolve captures

/-! ## The shape that judges a line -/

theorem Shape.covers_iff {s : Shape} {line : String} :
    s.covers line = true ↔ s.start.toList <+: line.toList := List.isPrefixOf_iff_prefix

/-- Starts of one line are known by their lengths. -/
theorem start_eq_of_covers {s s' : Shape} {line : String} (h : s.covers line = true)
    (h' : s'.covers line = true) (length : s.start.length = s'.start.length) :
    s.start = s'.start := by
  rw [← String.length_toList, ← String.length_toList] at length
  have shorter : s.start.toList <+: s'.start.toList :=
    List.prefix_of_prefix_length_le (Shape.covers_iff.1 h) (Shape.covers_iff.1 h')
      (Nat.le_of_eq length)
  exact String.toList_inj.1 (shorter.eq_of_length length)

theorem dispatch_eq_none_iff {line : String} {shapes : List Shape} :
    Shape.dispatch line shapes = none ↔ ∀ s ∈ shapes, s.covers line = false := by
  induction shapes with
  | nil => simp [Shape.dispatch]
  | cons s rest ih =>
    rw [Shape.dispatch, List.forall_mem_cons, ← ih]
    cases s.covers line with
    | false => simp
    | true =>
      cases Shape.dispatch line rest with
      | none => simp
      | some t => by_cases le : s.start.length ≤ t.start.length <;> simp [le]

theorem Shape.Longest.unique {line : String} {shapes : List Shape} {a b : Shape}
    (ha : Longest line shapes a) (hb : Longest line shapes b) : a = b := by
  refine Classical.byContradiction fun hne => ?_
  have below := hb.longest a ha.mem ha.covers hne
  have above := ha.longest b hb.mem hb.covers (Ne.symm hne)
  omega

theorem Shape.Longest.perm {line : String} {shapes shapes' : List Shape} {shape : Shape}
    (h : Longest line shapes shape) (hp : shapes.Perm shapes') : Longest line shapes' shape where
  mem := hp.mem_iff.1 h.mem
  covers := h.covers
  longest s hs := h.longest s (hp.mem_iff.2 hs)

/-- What is chosen among the shapes has the longest start. -/
theorem longest_of_dispatch {line : String} {shapes : List Shape} {shape : Shape}
    (nodup : (shapes.map Shape.start).Nodup) (h : Shape.dispatch line shapes = some shape) :
    Shape.Longest line shapes shape := by
  induction shapes generalizing shape with
  | nil => cases h
  | cons s rest ih =>
    rw [List.map_cons, List.nodup_cons] at nodup
    obtain ⟨fresh, nodup⟩ := nodup
    rw [Shape.dispatch] at h
    split at h
    case isFalse not =>
      obtain ⟨mem, covers, longest⟩ := ih nodup h
      refine ⟨List.mem_cons_of_mem s mem, covers, fun u hu cu => ?_⟩
      rcases List.mem_cons.1 hu with rfl | hu
      · exact absurd cu not
      · exact longest u hu cu
    case isTrue hs =>
      split at h
      case h_2 none =>
        cases h
        refine ⟨List.mem_cons_self, hs, fun u hu cu hne => ?_⟩
        rcases List.mem_cons.1 hu with rfl | hu
        · exact absurd rfl hne
        · exact absurd cu (by simp [dispatch_eq_none_iff.1 none u hu])
      case h_1 t ht =>
        obtain ⟨mem, covers, longest⟩ := ih nodup ht
        split at h
        case isTrue le =>
          cases h
          refine ⟨List.mem_cons_of_mem s mem, covers, fun u hu cu hne => ?_⟩
          rcases List.mem_cons.1 hu with rfl | hu
          · -- a start as long as that of `shape` would be the same start
            refine Nat.lt_of_le_of_ne le fun e => fresh ?_
            rw [start_eq_of_covers hs covers e]
            exact List.mem_map_of_mem mem
          · exact longest u hu cu hne
        case isFalse gt =>
          cases h
          refine ⟨List.mem_cons_self, hs, fun u hu cu hne => ?_⟩
          rcases List.mem_cons.1 hu with rfl | hu
          · exact absurd rfl hne
          · by_cases hut : u = t
            · subst hut
              omega
            · have := longest u hu cu hut
              omega

theorem dispatch_eq_some_iff {line : String} {shapes : List Shape} {shape : Shape}
    (nodup : (shapes.map Shape.start).Nodup) :
    Shape.dispatch line shapes = some shape ↔ Shape.Longest line shapes shape := by
  refine ⟨longest_of_dispatch nodup, fun h => ?_⟩
  cases chosen : Shape.dispatch line shapes with
  | none =>
    have not := dispatch_eq_none_iff.1 chosen shape h.mem
    rw [h.covers] at not
    cases not
  | some other => exact congrArg some ((longest_of_dispatch nodup chosen).unique h)

theorem dispatch_perm {shapes shapes' : List Shape} (nodup : (shapes.map Shape.start).Nodup)
    (hp : shapes.Perm shapes') (line : String) :
    Shape.dispatch line shapes = Shape.dispatch line shapes' := by
  have nodup' : (shapes'.map Shape.start).Nodup := (hp.map Shape.start).nodup_iff.1 nodup
  refine Option.ext fun shape => ?_
  rw [dispatch_eq_some_iff nodup, dispatch_eq_some_iff nodup']
  exact ⟨fun h => h.perm hp, fun h => h.perm hp.symm⟩

/-! ## Tables that judge lines alike -/

theorem Table.step_of_dispatch {t t' : Table} {line : String}
    (h : Shape.dispatch line t.shapes = Shape.dispatch line t'.shapes) (s : State) :
    t.step s line = t'.step s line := by
  rw [Table.step, Table.step, h]

theorem Table.evaluateFrom_rel {t t' : Table} {R : Verdict → Verdict → Prop} (same : ∀ v, R v v)
    (step : ∀ s line, t.step s line = t'.step s line) (finish : ∀ s, R (t.finish s) (t'.finish s))
    (s : State) (lines : List String) : R (t.evaluateFrom s lines) (t'.evaluateFrom s lines) := by
  induction lines generalizing s with
  | nil => exact finish s
  | cons line rest ih =>
    rw [Table.evaluateFrom, Table.evaluateFrom, ← step s line]
    split
    · exact ih _
    · exact same _

namespace Verdict.Rearranged
variable {v v' : Verdict}

theorem passed (h : Rearranged v v') : v.passed = v'.passed := by
  cases h <;> rfl

theorem diagnostics (h : Rearranged v v') : v.diagnostics.Perm v'.diagnostics := by
  cases h with
  | same => exact .refl _
  | unmet h => exact h.map Requirement.message

end Verdict.Rearranged

theorem Table.unmet_perm {t t' : Table} (h : t.requirements.Perm t'.requirements) (s : State) :
    (t.unmet s).Perm (t'.unmet s) := h.filter _

theorem Table.finish_rearranged {t t' : Table} (h : t.requirements.Perm t'.requirements)
    (s : State) : Verdict.Rearranged (t.finish s) (t'.finish s) := by
  have missing := Table.unmet_perm h s
  rw [Table.finish, Table.finish]
  cases hu : t.unmet s with
  | nil =>
    rw [hu, List.nil_perm] at missing
    rw [missing]
    exact .same .pass
  | cons r rest =>
    rw [hu] at missing
    cases hu' : t'.unmet s with
    | nil =>
      rw [hu'] at missing
      exact absurd (List.perm_nil.1 missing) (List.cons_ne_nil r rest)
    | cons r' rest' =>
      rw [hu'] at missing
      exact .unmet missing

/-! ## Shapes with rearranged checks -/

namespace Shape.Rearranged
variable {shape shape' : Shape}

theorem start (h : Rearranged shape shape') : shape.start = shape'.start := by
  cases h <;> rfl

theorem covers (h : Rearranged shape shape') (line : String) :
    shape.covers line = shape'.covers line := by
  rw [Shape.covers, Shape.covers, h.start]

theorem starts {shapes shapes' : List Shape} (h : List.Forall₂ Rearranged shapes shapes') :
    shapes.map Shape.start = shapes'.map Shape.start := by
  induction h with
  | nil => rfl
  | cons first _ ih => rw [List.map_cons, List.map_cons, first.start, ih]

/-- The same start is chosen, whatever the order of the checks. -/
theorem dispatch {shapes shapes' : List Shape} (h : List.Forall₂ Rearranged shapes shapes')
    (line : String) :
    Option.Rel Rearranged (Shape.dispatch line shapes) (Shape.dispatch line shapes') := by
  induction h with
  | nil => exact .none
  | @cons s s' rest rest' first _ ih =>
    rw [Shape.dispatch, Shape.dispatch, first.covers line]
    split
    · generalize Shape.dispatch line rest = t at ih
      generalize Shape.dispatch line rest' = t' at ih
      cases ih with
      | none => exact .some first
      | some further =>
        dsimp only
        rw [first.start, further.start]
        split
        · exact .some further
        · exact .some first
    · exact ih

end Shape.Rearranged

/-! ## Readings of different keys -/

theorem Check.resolve_of_reading? {c : Check} {captures : Regex.Captures} {r : Reading}
    (h : c.reading? captures = some r) : c.key.resolve captures = some r.key := by
  obtain ⟨key, test⟩ := c
  rw [reading?] at h
  cases hk : key.resolve captures with
  | none => simp [hk] at h
  | some k =>
    cases test with
    | appears =>
      simp only [hk, Option.some.injEq] at h
      rw [← h]
    | value group rule =>
      simp only [hk, Option.map_eq_some_iff] at h
      obtain ⟨value, -, rfl⟩ := h
      rfl

/-- The keys that are read in a line are among those its checks resolve to; a check whose value is
missing reads none. -/
theorem keys_readings_sublist (checks : List Check) (captures : Regex.Captures) :
    ((checks.filterMap fun c => c.reading? captures).map Reading.key).Sublist
      (checks.filterMap fun c => c.key.resolve captures) := by
  induction checks with
  | nil => exact .refl _
  | cons c rest ih =>
    rw [List.filterMap_cons, List.filterMap_cons]
    cases hr : c.reading? captures with
    | some r =>
      rw [Check.resolve_of_reading? hr]
      exact ih.cons_cons r.key
    | none =>
      cases c.key.resolve captures with
      | none => exact ih
      | some key => exact ih.cons key

/-- Of readings of different keys, at most one is of a given key. -/
theorem history_perm {rs rs' : List Reading} (hp : rs.Perm rs') (apart : (rs.map Reading.key).Nodup)
    (key : String) : history key rs = history key rs' := by
  have same : (rs.filter fun r => r.key = key).Perm (rs'.filter fun r => r.key = key) := hp.filter _
  have one : (rs.filter fun r => r.key = key).length ≤ 1 := by
    have count := List.nodup_iff_count_le_one.1 apart key
    rw [List.count_eq_countP, List.countP_map, List.countP_eq_length_filter] at count
    exact count
  rw [history, history]
  rcases Nat.le_one_iff_eq_zero_or_eq_one.1 one with none | single
  · rw [List.length_eq_zero_iff] at none
    rw [none, List.nil_perm] at same
    rw [none, same]
  · obtain ⟨r, hr⟩ := List.length_eq_one_iff.1 single
    rw [hr, List.singleton_perm] at same
    rw [hr, ← same]

theorem Table.lineReadings_perm {t t' : Table}
    (h : List.Forall₂ Shape.Rearranged t.shapes t'.shapes) (line : String) :
    (t.lineReadings line).Perm (t'.lineReadings line) := by
  have chosen := Shape.Rearranged.dispatch h line
  rw [Table.lineReadings, Table.lineReadings]
  generalize Shape.dispatch line t.shapes = shape at chosen
  generalize Shape.dispatch line t'.shapes = shape' at chosen
  cases chosen with
  | none => exact .refl _
  | some same =>
    cases same with
    | plain => exact .refl _
    | judged start pattern checks =>
      dsimp only
      rw [pattern]
      split
      · exact .refl _
      · exact checks.filterMap _

theorem Table.readable_rearranged {t t' : Table}
    (h : List.Forall₂ Shape.Rearranged t.shapes t'.shapes) (line : String) :
    t.Readable line ↔ t'.Readable line := by
  have chosen := Shape.Rearranged.dispatch h line
  rw [Table.Readable, Table.Readable]
  generalize Shape.dispatch line t.shapes = shape at chosen
  generalize Shape.dispatch line t'.shapes = shape' at chosen
  cases chosen with
  | none => exact .rfl
  | some same =>
    cases same with
    | plain => exact .rfl
    | judged start pattern checks =>
      dsimp only
      rw [pattern]
      split
      · exact .rfl
      · simp only [checks.mem_iff]

theorem Table.keys_lineReadings_sublist (t : Table) (line : String) :
    ((t.lineReadings line).map Reading.key).Sublist (t.lineKeys line) := by
  rw [Table.lineReadings, Table.lineKeys]
  cases Shape.dispatch line t.shapes with
  | none => exact .slnil
  | some shape =>
    dsimp only
    cases shape.judged? with
    | none => exact .slnil
    | some j =>
      dsimp only
      cases j.pattern.captures? line with
      | none => exact .slnil
      | some captures => exact keys_readings_sublist j.checks captures

/-- The checks of each line may be rearranged without any key having another history. -/
theorem sameHistories_rearranged {t t' : Table}
    (h : List.Forall₂ Shape.Rearranged t.shapes t'.shapes) {lines : List String}
    (apart : ∀ line ∈ lines, (t.lineKeys line).Nodup) :
    SameHistories (t.readings lines) (t'.readings lines) := by
  refine ⟨fun key => ?_⟩
  induction lines with
  | nil => rfl
  | cons line rest ih =>
    obtain ⟨now, later⟩ := List.forall_mem_cons.1 apart
    have first : history key (t.lineReadings line) = history key (t'.lineReadings line) :=
      history_perm (Table.lineReadings_perm h line)
        (now.sublist (t.keys_lineReadings_sublist line)) key
    rw [Table.readings_cons, Table.readings_cons, history_append, history_append, first, ih later]

/-- A log passes when it is readable, its readings are consistent, and they show what is
required. -/
theorem Table.passed_iff_shown {t : Table} {lines : List String} :
    (t.evaluate lines).passed = true ↔
      (∀ line ∈ lines, t.Readable line) ∧ Consistent (t.readings lines) ∧
        ∀ r ∈ t.requirements, r.ShownBy (t.readings lines) := by
  constructor
  · intro h
    obtain ⟨readable, -⟩ := accepts_iff_consistent.1 (t.accepts_of_passed h)
    exact ⟨readable, (evaluate_passed_iff_consistent readable).1 h⟩
  · intro h
    exact (evaluate_passed_iff_consistent h.1).2 h.2

theorem Table.passed_rearranged {t t' : Table}
    (shapes : List.Forall₂ Shape.Rearranged t.shapes t'.shapes)
    (requirements : t'.requirements = t.requirements) {lines : List String}
    (apart : ∀ line ∈ lines, (t.lineKeys line).Nodup) :
    (t.evaluate lines).passed = (t'.evaluate lines).passed := by
  have same := sameHistories_rearranged shapes apart
  refine Bool.eq_iff_iff.2 ?_
  rw [t.passed_iff_shown, t'.passed_iff_shown, same.consistent, requirements]
  simp only [t.readable_rearranged shapes, same.shownBy]

/-! ## The verdict -/

/-- The order of a description does not matter. With its shapes in any other order, it still gives a
table, which judges every line in every state and every log alike; the line is judged by the shape
with the longest start that it has, of which there is one, and by none if it has no start. With its
requirements in another order, those that are unmet are told in another order, and nothing else
changes. With the checks of its shapes in another order, the same logs pass among those in each line
of which the checks resolve to different keys. -/
theorem verdict_of_any_order {shapes : List Shape} {requirements : List Requirement} {t : Table}
    (h : Table.ofShapes shapes requirements = .ok t) :
    (∀ shapes', shapes.Perm shapes' → ∃ t', Table.ofShapes shapes' requirements = .ok t' ∧
      (∀ s line, t'.step s line = t.step s line) ∧
        ∀ lines, t'.evaluate lines = t.evaluate lines) ∧
      (∀ line shape, Shape.dispatch line t.shapes = some shape ↔
        Shape.Longest line shapes shape) ∧
      (∀ line a b, Shape.Longest line shapes a → Shape.Longest line shapes b → a = b) ∧
      (∀ line, Shape.dispatch line t.shapes = none ↔ ∀ s ∈ shapes, s.covers line = false) ∧
      (∀ requirements', requirements.Perm requirements' →
        ∃ t', Table.ofShapes shapes requirements' = .ok t' ∧
          (∀ s line, t'.step s line = t.step s line) ∧ (∀ s, (t.unmet s).Perm (t'.unmet s)) ∧
            ∀ lines, Verdict.Rearranged (t.evaluate lines) (t'.evaluate lines) ∧
              (t.evaluate lines).passed = (t'.evaluate lines).passed ∧
                (t.evaluate lines).diagnostics.Perm (t'.evaluate lines).diagnostics) ∧
      ∀ shapes', List.Forall₂ Shape.Rearranged shapes shapes' →
        ∃ t', Table.ofShapes shapes' requirements = .ok t' ∧
          ∀ lines, (∀ line ∈ lines, (t.lineKeys line).Nodup) →
            (t'.evaluate lines).passed = (t.evaluate lines).passed := by
  obtain ⟨rfl, rfl⟩ := ofShapes_ok_iff.1 h
  refine ⟨fun shapes' hp => ?_, fun line shape => dispatch_eq_some_iff t.nodup,
    fun line a b ha hb => ha.unique hb, fun line => dispatch_eq_none_iff,
    fun requirements' hp => ?_, fun shapes' same => ?_⟩
  · let t' : Table := ⟨shapes', t.requirements, (hp.map Shape.start).nodup_iff.1 t.nodup⟩
    have step (s : State) (line : String) : t'.step s line = t.step s line :=
      Table.step_of_dispatch (dispatch_perm t.nodup hp line).symm s
    exact ⟨t', ofShapes_ok_iff.2 ⟨rfl, rfl⟩, step,
      fun lines => Table.evaluateFrom_rel (fun _ => rfl) step (fun _ => rfl) {} lines⟩
  · let t' : Table := ⟨t.shapes, requirements', t.nodup⟩
    have step (s : State) (line : String) : t.step s line = t'.step s line :=
      Table.step_of_dispatch rfl s
    have verdict (lines : List String) :
        Verdict.Rearranged (t.evaluate lines) (t'.evaluate lines) :=
      Table.evaluateFrom_rel .same step (Table.finish_rearranged hp) {} lines
    exact ⟨t', ofShapes_ok_iff.2 ⟨rfl, rfl⟩, fun s line => (step s line).symm, Table.unmet_perm hp,
      fun lines => ⟨verdict lines, (verdict lines).passed, (verdict lines).diagnostics⟩⟩
  · let t' : Table := ⟨shapes', t.requirements, Shape.Rearranged.starts same ▸ t.nodup⟩
    have alike : List.Forall₂ Shape.Rearranged t.shapes t'.shapes := same
    exact ⟨t', ofShapes_ok_iff.2 ⟨rfl, rfl⟩,
      fun lines apart => (Table.passed_rearranged alike rfl apart).symm⟩

/-- Lines that give two letters a value each. `b` has to change, and `c` has to be there. -/
def pairs (checks : List Check) (within : ∀ c ∈ checks, ∀ g ∈ c.groups, 1 ≤ g ∧ g ≤ 4) :
    Table where
  shapes :=
    [{ start := "is ", judged? := some ⟨⟨"^is (.)=(.) (.)=(.)$", _, rfl⟩, checks, within⟩ },
      { start := "is it", judged? := none }]
  requirements := [.changed "b", .seen "c"]
  nodup := by
    show ["is ", "is it"].Nodup
    decide

/-- The value of the first letter stays. -/
def stays : Check := ⟨.group 1, .value 2 .stable⟩

/-- The value of the second letter may change once. -/
def changes : Check := ⟨.group 3, .value 4 .changeOnce⟩

theorem pairs_of_any_order :
    let t := pairs [stays, changes] (by decide)
    let log := ["is a=1 b=2", "is it", "is a=1 b=3", "is c=1 b=3"]
    (t.evaluate log).passed = true ∧ Shape.Longest "is it" t.shapes ⟨"is it", none⟩ ∧
      (∃ t', Table.ofShapes t.shapes.reverse t.requirements = .ok t' ∧
        t'.evaluate log = t.evaluate log) ∧
      (∃ t', Table.ofShapes t.shapes t.requirements.reverse = .ok t' ∧
        (t.evaluate []).diagnostics.Perm (t'.evaluate []).diagnostics) ∧
      ∃ t', Table.ofShapes (pairs [changes, stays] (by decide)).shapes t.requirements = .ok t' ∧
        (t'.evaluate log).passed = true := by
  intro t log
  obtain ⟨shapes, chosen, -, -, requirements, checks⟩ :=
    verdict_of_any_order (t := t) (ofShapes_ok_iff.2 ⟨rfl, rfl⟩)
  have passed : (t.evaluate log).passed = true := by decide +kernel
  obtain ⟨other, hother, -, alike⟩ := shapes t.shapes.reverse (List.reverse_perm _).symm
  obtain ⟨turned, hturned, -, -, told⟩ :=
    requirements t.requirements.reverse (List.reverse_perm _).symm
  obtain ⟨rearranged, hrearranged, passes⟩ := checks (pairs [changes, stays] (by decide)).shapes
    (.cons (.judged "is " rfl (.swap _ _ _)) (.cons (.plain "is it") .nil))
  exact ⟨passed, (chosen "is it" ⟨"is it", none⟩).1 rfl, ⟨other, hother, alike log⟩,
    ⟨turned, hturned, (told []).2.2⟩, rearranged, hrearranged,
    (passes log (by decide +kernel)).trans passed⟩

end PatchTrial.Validator
