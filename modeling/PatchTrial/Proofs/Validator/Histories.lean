import PatchTrial.Proofs.Validator.Compilation
import PatchTrial.Proofs.Validator.FirstRefusal

/-!
Logs that are judged alike. All keys are kept in one state, and the lines of a log are judged one
after another until one is refused. Still the verdict depends on nothing but what was observed of
each key, key by key.

What is proved:
  1. `Records.stateAfter`: the state after a log that is accepted records the readings of the log.
  2. `sameVerdict_of_histories`: logs with the same history of every key are judged alike.
  3. `verdict_of_histories`: so neighbouring lines may change places if no key is read in both, and a
     line that reads no key may stand anywhere or be left out. The first line of every sample program
     reads no key.
-/
namespace PatchTrial.Validator

/-- What was observed of a key, in the order of the observations: of each the rule and the value, or
nothing but that the key appeared. What else there is to the checks that made them, and to their
shapes, is left out. -/
def history (key : String) (rs : List Reading) : List (Option (Rule × String)) :=
  (rs.filter fun r => r.key = key).map Reading.value?

/-- Two logs are judged alike: both pass or both fail, and if no line of the one is refused, then none
of the other is, and the same requirements are left unmet. -/
structure Table.SameVerdict (t : Table) (lines lines' : List String) : Prop where
  passed : (t.evaluate lines).passed = (t.evaluate lines').passed
  accepts : t.Accepts lines ↔ t.Accepts lines'
  unmet : t.Accepts lines → t.unmet (t.stateAfter {} lines) = t.unmet (t.stateAfter {} lines')

/-! ## Histories -/

theorem history_append (key : String) (rs rs' : List Reading) :
    history key (rs ++ rs') = history key rs ++ history key rs' := by
  rw [history, List.filter_append, List.map_append]
  rfl

theorem history_eq_nil {key : String} {rs : List Reading} (h : ∀ r ∈ rs, r.key ≠ key) :
    history key rs = [] := by
  have none : (rs.filter fun r => r.key = key) = [] :=
    List.filter_eq_nil_iff.2 fun r hr => by simpa using h r hr
  rw [history, none]
  rfl

theorem valuesOf_eq_history (key : String) (rs : List Reading) :
    valuesOf key rs = (history key rs).filterMap id := by
  induction rs with
  | nil => rfl
  | cons r rest ih =>
    rw [← List.singleton_append, valuesOf_append, history_append, List.filterMap_append, ih]
    by_cases hk : r.key = key
    · subst hk
      rw [valuesOf_singleton_self]
      cases hv : r.value? <;> simp [history, hv]
    · rw [valuesOf_singleton_of_ne hk]
      simp [history, hk]

theorem exists_reading_iff (key : String) (rs : List Reading) :
    (∃ r ∈ rs, r.key = key) ↔ history key rs ≠ [] := by
  rw [history, ne_eq, List.map_eq_nil_iff, List.filter_eq_nil_iff]
  simp

structure SameHistories (rs rs' : List Reading) : Prop where
  eq : ∀ key, history key rs = history key rs'

namespace SameHistories
variable {rs rs' : List Reading} (h : SameHistories rs rs')
include h

theorem values (key : String) : valuesOf key rs = valuesOf key rs' := by
  rw [valuesOf_eq_history, valuesOf_eq_history, h.eq key]

theorem consistent : Consistent rs ↔ Consistent rs' := by
  unfold Consistent
  simp only [h.values]

theorem shownBy (r : Requirement) : r.ShownBy rs ↔ r.ShownBy rs' := by
  cases r with
  | changed key => simp only [Requirement.ShownBy, h.values]
  | seen key => simp only [Requirement.ShownBy, exists_reading_iff, h.eq]

end SameHistories

/-! ## What an accepted log records -/

theorem Records.stateAfter {t : Table} {s : State} {rs : List Reading} {lines : List String}
    (h : Records s rs) (ha : t.AcceptsFrom s lines) :
    Records (t.stateAfter s lines) (rs ++ t.readings lines) := by
  induction lines generalizing s rs with
  | nil =>
    rw [Table.readings_nil, List.append_nil]
    exact h
  | cons line rest ih =>
    obtain ⟨accepted, hrest⟩ := (t.acceptsFrom_cons s line rest).1 ha
    rw [Table.readings_cons, ← List.append_assoc]
    exact ih ((h.step (readable_of_accepted accepted)).2 accepted) hrest

theorem records_of_accepts {t : Table} {lines : List String} (h : t.Accepts lines) :
    Records (t.stateAfter {} lines) (t.readings lines) := Records.empty.stateAfter h

/-! ## Logs with the same histories -/

/-- Readable logs, or logs that are not readable, are judged alike if the histories of every key are
the same in both. -/
theorem sameVerdict_of_histories {t : Table} {lines lines' : List String}
    (readable : (∀ line ∈ lines, t.Readable line) ↔ ∀ line ∈ lines', t.Readable line)
    (same : SameHistories (t.readings lines) (t.readings lines')) : t.SameVerdict lines lines' := by
  have accepts : t.Accepts lines ↔ t.Accepts lines' := by
    rw [accepts_iff_consistent, accepts_iff_consistent, readable, same.consistent]
  have unmet (h : t.Accepts lines) :
      t.unmet (t.stateAfter {} lines) = t.unmet (t.stateAfter {} lines') := by
    have known := records_of_accepts h
    have known' := records_of_accepts (accepts.1 h)
    refine List.filter_congr fun r _ => congrArg (!·) (Bool.eq_iff_iff.2 ?_)
    rw [known.met_iff, known'.met_iff, same.shownBy]
  refine ⟨Bool.eq_iff_iff.2 ?_, accepts, unmet⟩
  rw [t.passed_iff, t.passed_iff, ← accepts]
  exact and_congr_right fun h => by rw [unmet h]

/-- Neighbouring lines change places. -/
theorem sameHistories_swap {t : Table} {a b : String}
    (apart : ∀ r ∈ t.lineReadings a, ∀ r' ∈ t.lineReadings b, r.key ≠ r'.key)
    (before after : List String) :
    SameHistories (t.readings (before ++ a :: b :: after)) (t.readings (before ++ b :: a :: after)) := by
  refine ⟨fun key => ?_⟩
  -- at most one of the two lines reads the key
  have one : history key (t.lineReadings a) = [] ∨ history key (t.lineReadings b) = [] := by
    by_cases ha : ∃ r ∈ t.lineReadings a, r.key = key
    · obtain ⟨r, hr, hk⟩ := ha
      exact .inr (history_eq_nil fun r' hr' e => apart r hr r' hr' (hk.trans e.symm))
    · exact .inl (history_eq_nil fun r hr e => ha ⟨r, hr, e⟩)
  have swapped : history key (t.lineReadings a) ++ history key (t.lineReadings b) =
      history key (t.lineReadings b) ++ history key (t.lineReadings a) := by
    rcases one with e | e <;> simp [e]
  simp only [Table.readings, List.flatMap_append, List.flatMap_cons, history_append]
  rw [← List.append_assoc (history key (t.lineReadings a)), swapped, List.append_assoc]

/-! ## The first line of the sample programs -/

/-- A shape judges a line if it is the only one whose start the line has. -/
theorem Shape.dispatch_cons_of_not_covers {line : String} {shape : Shape} {rest : List Shape}
    (h : shape.covers line = true) (others : ∀ s ∈ rest, s.covers line = false) :
    Shape.dispatch line (shape :: rest) = some shape := by
  have none : Shape.dispatch line rest = none := by
    induction rest with
    | nil => rfl
    | cons s rest ih =>
      rw [dispatch, if_neg (by simp [others s List.mem_cons_self])]
      exact ih fun s' hs' => others s' (List.mem_cons_of_mem s hs')
  rw [dispatch, if_pos h, none]

/-- The shapes of a preset: that of the first line, and others whose starts begin otherwise. -/
theorem Preset.shapes_eq (p : Preset) :
    ∃ rest, p.shapes = banner :: rest ∧ ∀ s ∈ rest, s.start.toList.head? ≠ some 'h' ∧ s.start ≠ "" := by
  cases p <;> exact ⟨_, rfl, by decide⟩

theorem not_covers_of_head {s : Shape} {line : String} {c : Char} (hl : line.toList.head? = some c)
    (hs : s.start.toList.head? ≠ some c) (hne : s.start ≠ "") : s.covers line = false := by
  rw [Shape.covers, Bool.eq_false_iff]
  intro covers
  obtain ⟨rest, e⟩ := List.isPrefixOf_iff_prefix.1 covers
  cases hc : s.start.toList with
  | nil => exact hne (String.toList_eq_nil_iff.1 hc)
  | cons d more =>
    rw [← e, hc] at hl
    rw [hc] at hs
    exact hs hl

/-- Lines that start like the first one of the sample programs read no key. -/
theorem banner_reads_nothing {p : Preset} {t : Table} (ht : p.table = .ok t) {line : String}
    (hl : Preset.banner.start.toList <+: line.toList) :
    t.Readable line ∧ t.lineReadings line = [] := by
  obtain ⟨specs, hp, others⟩ := p.shapes_eq
  obtain ⟨yields, -⟩ := ofSpecs_ok_iff.1 ht
  rw [hp] at yields
  have dispatched : Shape.dispatch line t.shapes = some ⟨Preset.banner.start, none⟩ := by
    cases hshapes : t.shapes with
    | nil =>
      rw [hshapes] at yields
      cases yields
    | cons shape rest =>
      rw [hshapes] at yields
      obtain ⟨first, tail⟩ := List.forall₂_cons.1 yields
      obtain rfl : shape = ⟨Preset.banner.start, none⟩ := by
        cases first with
        | judged j pattern => cases pattern
        | plain => rfl
      -- all other shapes of a preset begin with another letter
      refine Shape.dispatch_cons_of_not_covers (List.isPrefixOf_iff_prefix.2 hl) fun s hs => ?_
      obtain ⟨spec, hspec, hy⟩ := exists_of_yields tail hs
      obtain ⟨start, nonempty⟩ := others spec hspec
      have head : line.toList.head? = some 'h' := by
        obtain ⟨more, e⟩ := hl
        rw [← e]
        rfl
      exact not_covers_of_head head (hy.start ▸ start) (hy.start ▸ nonempty)
  constructor
  · simp [Table.Readable, dispatched]
  · simp [Table.lineReadings, dispatched]

/-! ## The verdict -/

/-- The verdict depends on the histories of the keys alone. So neighbouring lines that read no key in
common may change places, and readable lines that read no key, such as the first one of the sample
programs, may be put in or left out anywhere. -/
theorem verdict_of_histories (t : Table) :
    (∀ lines lines', (∀ line ∈ lines, t.Readable line) → (∀ line ∈ lines', t.Readable line) →
      (∀ key, history key (t.readings lines) = history key (t.readings lines')) →
        t.SameVerdict lines lines') ∧
      (∀ before a b after,
        (∀ r ∈ t.lineReadings a, ∀ r' ∈ t.lineReadings b, r.key ≠ r'.key) →
          t.SameVerdict (before ++ a :: b :: after) (before ++ b :: a :: after)) ∧
      (∀ before line after, t.Readable line → t.lineReadings line = [] →
        t.SameVerdict (before ++ line :: after) (before ++ after)) ∧
      ∀ p : Preset, p.table = .ok t → ∀ line, Preset.banner.start.toList <+: line.toList →
        t.Readable line ∧ t.lineReadings line = [] := by
  refine ⟨fun lines lines' hl hl' same => ?_, fun before a b after apart => ?_,
    fun before line after hl none => ?_, fun p ht line hl => banner_reads_nothing ht hl⟩
  · exact sameVerdict_of_histories ⟨fun _ => hl', fun _ => hl⟩ ⟨same⟩
  · refine sameVerdict_of_histories ?_ (sameHistories_swap apart before after)
    simp only [List.forall_mem_append, List.forall_mem_cons, and_left_comm]
  · refine sameVerdict_of_histories ?_ ⟨fun key => ?_⟩
    · simp only [List.forall_mem_append, List.forall_mem_cons, hl, true_and]
    · simp only [Table.readings, List.flatMap_append, List.flatMap_cons, none, List.nil_append]

/-- Lines that say who prints them, and lines that give a letter a value. The value of each letter may
change once, and that of `x` has to. -/
def letters : Table where
  shapes :=
    [{ start := "has pid", judged? := none },
      { start := ""
        judged? := some
          { pattern := ⟨"^(.):(.*)$", _, rfl⟩
            checks := [⟨.group 1, .value 2 .changeOnce⟩]
            within := by decide } }]
  requirements := [.changed "x"]
  nodup := by decide

theorem letters_alike :
    (letters.evaluate ["x:1", "y:5", "x:2", "y:6"]).passed = true ∧
      letters.SameVerdict ["x:1", "y:5", "x:2", "y:6"] ["y:5", "y:6", "x:1", "x:2"] ∧
      letters.SameVerdict ["x:1", "x:2", "y:5", "x:3"] ["x:1", "y:5", "x:2", "x:3"] ∧
      letters.SameVerdict ["x:1", "has pid 7", "x:2"] ["x:1", "x:2"] ∧
      ∃ t, Preset.fieldRelocation.table = .ok t ∧ t.Readable "has pid 7" ∧
        t.lineReadings "has pid 7" = [] := by
  obtain ⟨alike, swapped, left, -⟩ := verdict_of_histories letters
  have first : letters.readings ["x:1", "y:5", "x:2", "y:6"] =
      [⟨"x", some (.changeOnce, "1")⟩, ⟨"y", some (.changeOnce, "5")⟩,
        ⟨"x", some (.changeOnce, "2")⟩, ⟨"y", some (.changeOnce, "6")⟩] := by decide +kernel
  have second : letters.readings ["y:5", "y:6", "x:1", "x:2"] =
      [⟨"y", some (.changeOnce, "5")⟩, ⟨"y", some (.changeOnce, "6")⟩,
        ⟨"x", some (.changeOnce, "1")⟩, ⟨"x", some (.changeOnce, "2")⟩] := by decide +kernel
  have same (key : String) : history key (letters.readings ["x:1", "y:5", "x:2", "y:6"]) =
      history key (letters.readings ["y:5", "y:6", "x:1", "x:2"]) := by
    rw [first, second]
    by_cases hx : "x" = key
    · subst hx
      decide
    · by_cases hy : "y" = key <;> simp [history, hx, hy]
  refine ⟨by decide +kernel, alike _ _ (by decide +kernel) (by decide +kernel) same,
    swapped ["x:1"] "x:2" "y:5" ["x:3"] (by decide +kernel),
    left ["x:1"] "has pid 7" ["x:2"] (by decide +kernel) (by decide +kernel), ?_⟩
  obtain ⟨t, ht⟩ := Preset.fieldRelocation.compiles
  obtain ⟨-, -, -, banner⟩ := verdict_of_histories t
  exact ⟨t, ht, banner .fieldRelocation ht "has pid 7" (by decide)⟩

end PatchTrial.Validator
