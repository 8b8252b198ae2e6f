import Mathlib.Data.List.Forall2
import PatchTrial.Validator.Preset

/-!
Tables and their descriptions. A description says all there is to a table: its shapes one by one, and
what a log must show.

What is proved:
  1. `ShapeSpec.compile_ok_iff` and `ofSpecs_ok_iff`: a description gives a shape, or a table, exactly
     if that has the starts, patterns and checks that are described.
  2. `Spec.compile_named` and `Spec.compile_spelled_iff`: a validator has the table of the preset it
     names, or the one of the shapes and requirements it spells out.
  3. `Preset.compiles` and `Preset.table_of_yields`: every preset has a table, and its shapes are known
     from their descriptions.
-/
namespace PatchTrial

theorem Regex.ofText?_self (r : Regex) : Regex.ofText? r.text = some r := by
  obtain ⟨text, node, read⟩ := r
  unfold ofText?
  split
  · next node' read' =>
    obtain rfl : node' = node := Option.some.inj (read'.symm.trans read)
    rfl
  · next none => cases none.symm.trans read

namespace Validator

/-- What a description says of a shape. -/
inductive ShapeSpec.Yields (s : ShapeSpec) : Shape → Prop
  /-- Its pattern, with checks that the pattern has groups for. -/
  | judged (j : Judged) (pattern : s.pattern = some j.pattern.text) (checks : s.checks = j.checks) :
    Yields s ⟨s.start, some j⟩
  /-- That its lines are accepted as they are. -/
  | plain (pattern : s.pattern = none) (checks : s.checks = []) : Yields s ⟨s.start, none⟩

theorem ShapeSpec.Yields.start {s : ShapeSpec} {shape : Shape} (h : s.Yields shape) :
    shape.start = s.start := by
  cases h <;> rfl

/-- The checks of a shape are those of its description. -/
theorem ShapeSpec.Yields.checks_eq {s : ShapeSpec} {shape : Shape} (h : s.Yields shape) {j : Judged}
    (hj : shape.judged? = some j) : j.checks = s.checks := by
  cases h with
  | judged j' pattern checks =>
    cases hj
    exact checks.symm
  | plain => cases hj

theorem foreignGroup?_eq_none {j : Judged} :
    foreignGroup? j.pattern.groupCount (j.checks.flatMap Check.groups) = none := by
  rw [foreignGroup?, List.find?_eq_none]
  intro g hg
  obtain ⟨c, hc, hg⟩ := List.mem_flatMap.1 hg
  have within := j.within c hc g hg
  simp only [Bool.or_eq_true, decide_eq_true_eq]
  omega

theorem ShapeSpec.compile_ok_iff {s : ShapeSpec} {shape : Shape} :
    s.compile = .ok shape ↔ s.Yields shape := by
  obtain ⟨start, pattern, checks⟩ := s
  constructor
  · intro h
    unfold compile at h
    cases pattern with
    | none =>
      cases checks with
      | nil =>
        cases h
        exact .plain rfl rfl
      | cons c rest => cases h
    | some text =>
      dsimp only at h
      cases hr : Regex.ofText? text with
      | none =>
        rw [hr] at h
        cases h
      | some r =>
        rw [hr] at h
        dsimp only at h
        split at h
        · cases h
        · cases h
          exact .judged _ (congrArg some (Regex.ofText?_text hr).symm) rfl
  · intro h
    unfold compile
    cases h with
    | plain hp hc =>
      obtain rfl : pattern = none := hp
      obtain rfl : checks = [] := hc
      rfl
    -- the pattern is read from its own text again
    | judged j hp hc =>
      obtain rfl : pattern = some j.pattern.text := hp
      obtain rfl : checks = j.checks := hc
      dsimp only
      rw [j.pattern.ofText?_self]
      dsimp only
      split
      · next g hg => cases hg.symm.trans foreignGroup?_eq_none
      · rfl

theorem compileShapes_ok_iff {specs : List ShapeSpec} {shapes : List Shape} :
    compileShapes specs = .ok shapes ↔ List.Forall₂ ShapeSpec.Yields specs shapes := by
  induction specs generalizing shapes with
  | nil =>
    constructor
    · intro h
      cases h
      exact .nil
    · intro h
      cases h
      rfl
  | cons s rest ih =>
    rw [compileShapes]
    -- the first description that is refused ends the compilation
    constructor
    · intro h
      cases hs : s.compile with
      | error e =>
        rw [hs] at h
        cases h
      | ok shape =>
        rw [hs] at h
        dsimp only at h
        cases hr : compileShapes rest with
        | error e =>
          rw [hr] at h
          cases h
        | ok more =>
          rw [hr] at h
          cases h
          exact .cons (ShapeSpec.compile_ok_iff.1 hs) (ih.1 hr)
    · intro h
      cases h with
      | cons hs hr =>
        rw [ShapeSpec.compile_ok_iff.2 hs, ih.2 hr]
        rfl

/-- A description gives one list of shapes. -/
theorem shapes_eq_of_yields {specs : List ShapeSpec} {shapes shapes' : List Shape}
    (h : List.Forall₂ ShapeSpec.Yields specs shapes)
    (h' : List.Forall₂ ShapeSpec.Yields specs shapes') : shapes = shapes' :=
  Except.ok.inj ((compileShapes_ok_iff.2 h).symm.trans (compileShapes_ok_iff.2 h'))

theorem firstRepeat?_eq_none {before texts : List String} (nodup : texts.Nodup)
    (apart : ∀ s ∈ texts, s ∉ before) : firstRepeat? before texts = none := by
  induction texts generalizing before with
  | nil => rfl
  | cons s rest ih =>
    rw [List.nodup_cons] at nodup
    rw [firstRepeat?, if_neg (apart s List.mem_cons_self)]
    refine ih nodup.2 fun u hu => ?_
    rw [List.mem_cons, not_or]
    refine ⟨fun e => nodup.1 (e ▸ hu), apart u (List.mem_cons_of_mem s hu)⟩

/-- Shapes whose starts differ give the table that has them, in their order. -/
theorem ofShapes_ok_iff {shapes : List Shape} {requirements : List Requirement} {t : Table} :
    Table.ofShapes shapes requirements = .ok t ↔
      t.shapes = shapes ∧ t.requirements = requirements := by
  constructor
  · intro h
    unfold Table.ofShapes at h
    split at h
    · cases h
    · cases h
      exact ⟨rfl, rfl⟩
  · intro h
    obtain ⟨rfl, rfl⟩ := h
    unfold Table.ofShapes
    split
    · next start hstart =>
      have none := firstRepeat?_eq_none t.nodup fun s _ => List.not_mem_nil (a := s)
      cases hstart.symm.trans none
    · rfl

/-- A description of shapes gives the tables that have those shapes. -/
theorem ofSpecs_ok_iff {specs : List ShapeSpec} {requirements : List Requirement} {t : Table} :
    Table.ofSpecs specs requirements = .ok t ↔
      List.Forall₂ ShapeSpec.Yields specs t.shapes ∧ t.requirements = requirements := by
  have unfolded : Table.ofSpecs specs requirements =
      match compileShapes specs with
      | .error e => .error e
      | .ok shapes => Table.ofShapes shapes requirements := by
    unfold Table.ofSpecs
    cases compileShapes specs <;> rfl
  rw [unfolded, ← compileShapes_ok_iff]
  cases compileShapes specs with
  | error e => exact ⟨nofun, fun h => nomatch h.1⟩
  | ok shapes =>
    dsimp only
    rw [ofShapes_ok_iff, Except.ok.injEq, eq_comm]

/-- Every shape comes from a description. -/
theorem exists_of_yields {specs : List ShapeSpec} {shapes : List Shape}
    (h : List.Forall₂ ShapeSpec.Yields specs shapes) {shape : Shape} (hm : shape ∈ shapes) :
    ∃ s ∈ specs, s.Yields shape := by
  induction h with
  | nil => cases hm
  | cons hs _ ih =>
    rcases List.mem_cons.1 hm with rfl | hm
    · exact ⟨_, List.mem_cons_self, hs⟩
    · obtain ⟨s, hsm, hy⟩ := ih hm
      exact ⟨s, List.mem_cons_of_mem _ hsm, hy⟩

/-! ## Validators -/

theorem Spec.compile_named {s : Spec} {name : String} {t : Table} (hn : s.preset = some name)
    (h : s.compile = .ok t) : ∃ p, Preset.ofName? name = some p ∧ p.table = .ok t := by
  rw [compile, hn] at h
  dsimp only at h
  split at h
  · cases h
  · cases hp : Preset.ofName? name with
    | none =>
      rw [hp] at h
      cases h
    | some p =>
      rw [hp] at h
      exact ⟨p, rfl, h⟩

/-- The shapes of every preset are well formed. -/
theorem Preset.compiles (p : Preset) : ∃ t, p.table = .ok t := by
  have ok : p.table.isOk = true := by cases p <;> decide +kernel
  cases h : p.table with
  | error e =>
    rw [h] at ok
    cases ok
  | ok t => exact ⟨t, rfl⟩

/-- The table of a preset has the shapes that are described, whatever way they are written. -/
theorem Preset.table_of_yields {p : Preset} {shapes : List Shape}
    (h : List.Forall₂ ShapeSpec.Yields p.shapes shapes) :
    ∃ t, p.table = .ok t ∧ t.shapes = shapes ∧ t.requirements = p.requirements := by
  obtain ⟨t, ht⟩ := p.compiles
  obtain ⟨yields, requirements⟩ := ofSpecs_ok_iff.1 ht
  exact ⟨t, ht, shapes_eq_of_yields yields h, requirements⟩

/-- A preset is compiled by its name. -/
theorem Spec.compile_preset (p : Preset) : Spec.compile { preset := some p.name } = p.table := by
  cases p <;> rfl

theorem Spec.compile_spelled_iff {s : Spec} {t : Table} (hn : s.preset = none) :
    s.compile = .ok t ↔ s.shapes ≠ [] ∧ List.Forall₂ ShapeSpec.Yields s.shapes t.shapes ∧
      t.requirements = s.require := by
  rw [compile, hn]
  dsimp only
  cases hs : s.shapes with
  | nil =>
    refine ⟨fun h => (by cases h), fun h => absurd rfl h.1⟩
  | cons first rest =>
    show Table.ofSpecs (first :: rest) s.require = .ok t ↔ _
    rw [ofSpecs_ok_iff]
    exact ⟨fun h => ⟨List.cons_ne_nil first rest, h⟩, And.right⟩

end Validator
end PatchTrial
