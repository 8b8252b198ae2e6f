import PatchTrial.Proofs.Validator.Compilation
import PatchTrial.Proofs.Validator.Moves

/-!
Which descriptions are accepted. A validator either names a preset and nothing else, or spells out
shapes that start differently and whose patterns have all the groups that their checks name.

What is proved:
  1. `Spec.exists_compile_iff`: exactly the well-formed descriptions give a table.
  2. `Spec.describes_of_compile`: the table says what its description says, in the same order.
  3. `Table.lacks_of_step`: when a check finds no text for a group, the group is one that the
     pattern of the line has; the line matches without it.
-/
namespace PatchTrial.Validator

/-- A shape is well formed when its pattern can be read and has the groups of its checks, or when it
has neither. -/
def ShapeSpec.WellFormed (s : ShapeSpec) : Prop :=
  match s.pattern with
  | none => s.checks = []
  | some text =>
    ∃ r, Regex.ofText? text = some r ∧ ∀ c ∈ s.checks, ∀ g ∈ c.groups, 1 ≤ g ∧ g ≤ r.groupCount

/-- What a validator must be for there to be a table. -/
inductive Spec.WellFormed (d : Spec) : Prop
  /-- It names a preset and says no more. -/
  | named (p : Preset) (preset : d.preset = some p.name) (shapes : d.shapes = [])
    (require : d.require = [])
  /-- It spells out well-formed shapes, no two with the same start. -/
  | spelled (preset : d.preset = none) (nonempty : d.shapes ≠ [])
    (apart : (d.shapes.map ShapeSpec.start).Nodup) (each : ∀ s ∈ d.shapes, s.WellFormed)

/-- What a description says of a table: its shapes one by one, and its requirements. -/
inductive Spec.Describes (d : Spec) (t : Table) : Prop
  /-- They are those of a preset. -/
  | named (p : Preset) (preset : d.preset = some p.name)
    (shapes : List.Forall₂ ShapeSpec.Yields p.shapes t.shapes)
    (require : t.requirements = p.requirements)
  /-- They are spelled out. -/
  | spelled (preset : d.preset = none)
    (shapes : List.Forall₂ ShapeSpec.Yields d.shapes t.shapes)
    (require : t.requirements = d.require)

/-- A violation tells that a check found no text for a group: for the one of its key, or for the one
of its value. -/
inductive Violation.Lacks (c : Check) : Violation → Nat → Prop
  | key {g : Nat} (h : c.key = .group g) : Lacks c .keyMissing g
  | value {g : Nat} {rule : Rule} (h : c.test = .value g rule) : Lacks c (.valueMissing g) g

/-- Whether a violation tells that a check found no text for a group. -/
def Violation.isLack : Violation → Bool
  | keyMissing => true
  | valueMissing _ => true
  | _ => false

/-- A line matches the pattern of its shape without a group that the pattern has, and that group is
the one a check of the shape could not read. -/
structure Table.LacksGroup (t : Table) (line : String) (v : Violation) (shape : Shape) (j : Judged)
    (captures : Regex.Captures) (c : Check) (g : Nat) : Prop where
  chosen : Shape.dispatch line t.shapes = some shape
  judged : shape.judged? = some j
  matched : j.pattern.captures? line = some captures
  check : c ∈ j.checks
  told : v.Lacks c g
  exists_group : 1 ≤ g ∧ g ≤ j.pattern.groupCount
  untouched : captures.get? g = none

/-! ## Well-formed descriptions -/

theorem Preset.ofName?_eq_some_iff {name : String} {p : Preset} :
    Preset.ofName? name = some p ↔ name = p.name := by
  constructor
  · intro h
    exact (beq_iff_eq.1 (List.find?_some (p := fun p : Preset => p.name == name) h)).symm
  · rintro rfl
    cases p <;> rfl

theorem ShapeSpec.exists_yields_iff {s : ShapeSpec} : (∃ shape, s.Yields shape) ↔ s.WellFormed := by
  obtain ⟨start, pattern, checks⟩ := s
  constructor
  · rintro ⟨shape, h⟩
    cases h with
    | plain hp hc =>
      obtain rfl : pattern = none := hp
      exact hc
    | judged j hp hc =>
      obtain rfl : pattern = some j.pattern.text := hp
      obtain rfl : checks = j.checks := hc
      exact ⟨j.pattern, j.pattern.ofText?_self, j.within⟩
  · intro h
    cases pattern with
    | none => exact ⟨_, .plain rfl h⟩
    | some text =>
      obtain ⟨r, hr, within⟩ := h
      exact ⟨_, .judged ⟨r, checks, within⟩ (congrArg some (Regex.ofText?_text hr).symm) rfl⟩

theorem exists_forall₂_yields_iff {specs : List ShapeSpec} :
    (∃ shapes, List.Forall₂ ShapeSpec.Yields specs shapes) ↔ ∀ s ∈ specs, s.WellFormed := by
  induction specs with
  | nil => exact ⟨fun _ _ hs => absurd hs List.not_mem_nil, fun _ => ⟨[], .nil⟩⟩
  | cons s rest ih =>
    rw [List.forall_mem_cons, ← ih, ← ShapeSpec.exists_yields_iff]
    constructor
    · rintro ⟨shapes, h⟩
      cases h with
      | cons first further => exact ⟨⟨_, first⟩, _, further⟩
    · rintro ⟨⟨shape, first⟩, shapes, further⟩
      exact ⟨shape :: shapes, .cons first further⟩

theorem starts_of_yields {specs : List ShapeSpec} {shapes : List Shape}
    (h : List.Forall₂ ShapeSpec.Yields specs shapes) :
    shapes.map Shape.start = specs.map ShapeSpec.start := by
  induction h with
  | nil => rfl
  | cons first _ ih => rw [List.map_cons, List.map_cons, first.start, ih]

/-- Shapes and requirements give a table when the shapes are well formed and start differently. -/
theorem exists_ofSpecs_iff {specs : List ShapeSpec} {requirements : List Requirement} :
    (∃ t, Table.ofSpecs specs requirements = .ok t) ↔
      (specs.map ShapeSpec.start).Nodup ∧ ∀ s ∈ specs, s.WellFormed := by
  simp only [ofSpecs_ok_iff, ← exists_forall₂_yields_iff]
  constructor
  · rintro ⟨t, shapes, -⟩
    exact ⟨starts_of_yields shapes ▸ t.nodup, t.shapes, shapes⟩
  · rintro ⟨apart, shapes, yields⟩
    exact ⟨⟨shapes, requirements, (starts_of_yields yields).symm ▸ apart⟩, yields, rfl⟩

theorem Spec.compile_named_iff {d : Spec} {name : String} {t : Table} (hn : d.preset = some name) :
    d.compile = .ok t ↔
      d.shapes = [] ∧ d.require = [] ∧ ∃ p : Preset, name = p.name ∧ p.table = .ok t := by
  simp only [← Preset.ofName?_eq_some_iff]
  rw [compile, hn]
  dsimp only
  split
  · next more =>
    constructor
    · intro refused
      cases refused
    · intro h
      rw [h.1, h.2.1] at more
      cases more
  · next nothing =>
    simp only [Bool.or_eq_true, Bool.not_eq_true', not_or, Bool.not_eq_false,
      List.isEmpty_iff] at nothing
    cases Preset.ofName? name <;> simp [nothing]

theorem Spec.exists_compile_iff {d : Spec} : (∃ t, d.compile = .ok t) ↔ d.WellFormed := by
  cases hp : d.preset with
  | none =>
    simp only [compile_spelled_iff hp, exists_and_left, ← ofSpecs_ok_iff, exists_ofSpecs_iff]
    constructor
    · rintro ⟨nonempty, apart, each⟩
      exact .spelled hp nonempty apart each
    · rintro (⟨p, preset⟩ | ⟨-, nonempty, apart, each⟩)
      · cases hp.symm.trans preset
      · exact ⟨nonempty, apart, each⟩
  | some name =>
    simp only [compile_named_iff hp, exists_and_left]
    constructor
    · rintro ⟨shapes, require, t, p, rfl, -⟩
      exact .named p hp shapes require
    · rintro (⟨p, preset, shapes, require⟩ | preset)
      · obtain ⟨t, ht⟩ := p.compiles
        exact ⟨shapes, require, t, p, Option.some.inj (hp.symm.trans preset), ht⟩
      · cases hp.symm.trans preset

theorem Spec.describes_of_compile {d : Spec} {t : Table} (h : d.compile = .ok t) :
    d.Describes t := by
  cases hp : d.preset with
  | none =>
    obtain ⟨-, shapes, require⟩ := (compile_spelled_iff hp).1 h
    exact .spelled hp shapes require
  | some name =>
    obtain ⟨-, -, p, rfl, ht⟩ := (compile_named_iff hp).1 h
    obtain ⟨shapes, require⟩ := ofSpecs_ok_iff.1 ht
    exact .named p hp shapes require

/-! ## Groups without a text -/

/-- What a rule has against a value is never that it is missing. -/
theorem Rule.isLack_of_observe {rule : Rule} {key value : String} {last : Option Observation}
    {v : Violation} (h : rule.observe key last value = .error v) : v.isLack = false := by
  unfold observe at h
  -- every branch that refuses the value names one of the other violations
  repeat' split at h
  all_goals cases h <;> rfl

theorem Check.lacks_of_apply {c : Check} {captures : Regex.Captures} {s : State} {v : Violation}
    (h : (c.apply captures s).2 = some v) (hv : v.isLack = true) :
    ∃ g ∈ c.groups, v.Lacks c g ∧ captures.get? g = none := by
  rw [apply] at h
  -- the key is looked for first, and the value only if there is a key
  cases hk : c.key.resolve captures with
  | none =>
    rw [hk] at h
    cases h
    cases hc : c.key with
    | named name =>
      rw [hc] at hk
      cases hk
    | group g =>
      rw [hc] at hk
      exact ⟨g, by simp [groups, hc], .key hc, hk⟩
  | some key =>
    rw [hk] at h
    cases ht : c.test with
    | appears =>
      rw [ht] at h
      cases h
    | value g rule =>
      rw [ht] at h
      dsimp only at h
      cases hg : captures.get? g with
      | none =>
        rw [hg] at h
        cases h
        exact ⟨g, by simp [groups, ht], .value ht, hg⟩
      | some value =>
        rw [hg] at h
        dsimp only at h
        split at h
        · cases h
        · next refused =>
          cases h
          rw [Rule.isLack_of_observe refused] at hv
          cases hv

/-- The check that a line broke. -/
theorem Table.exists_broken_of_step {t : Table} {s : State} {line : String} {v : Violation}
    (h : (t.step s line).2 = .violation v) :
    ∃ shape j captures, Shape.dispatch line t.shapes = some shape ∧ shape.judged? = some j ∧
      j.pattern.captures? line = some captures ∧
        ∃ c ∈ j.checks, ∃ s', (c.apply captures s').2 = some v := by
  have moves := t.moves_step s line
  rw [h] at moves
  generalize (t.step s line).1 = s' at moves
  cases moves with
  | violation checked kept broken =>
    obtain ⟨shape, j, chosen, judged, matched, split⟩ := checked
    exact ⟨shape, j, _, chosen, judged, matched, _, by simp [split], _, broken⟩

theorem Table.lacks_of_step {t : Table} {s : State} {line : String} {v : Violation}
    (h : (t.step s line).2 = .violation v) (hv : v.isLack = true) :
    ∃ shape j captures c g, t.LacksGroup line v shape j captures c g := by
  obtain ⟨shape, j, captures, chosen, judged, matched, c, check, s', broken⟩ :=
    exists_broken_of_step h
  obtain ⟨g, hg, told, untouched⟩ := Check.lacks_of_apply broken hv
  exact ⟨shape, j, captures, c, g, chosen, judged, matched, check, told, j.within c check g hg,
    untouched⟩

/-! ## The table of a description -/

/-- A description gives a table exactly if it is well formed, and then the table has its shapes with
their patterns and checks, and its requirements, as they are and in their order. So whatever the
state and the line, a check of the table that finds no text for a group was asked for one that the
pattern has, and that took no part in the match. -/
theorem Spec.compile_iff_wellFormed (d : Spec) :
    ((∃ t, d.compile = .ok t) ↔ d.WellFormed) ∧
      ∀ t, d.compile = .ok t → d.Describes t ∧
        ∀ s line v, (t.step s line).2 = .violation v → v.isLack = true →
          ∃ shape j captures c g, t.LacksGroup line v shape j captures c g :=
  ⟨exists_compile_iff, fun _ h =>
    ⟨describes_of_compile h, fun _ _ _ broken lack => Table.lacks_of_step broken lack⟩⟩

/-- Lines that may begin with an `a`, which is to stay there. -/
def optional : Spec where
  shapes := [{ start := "", pattern := some "^(a)?b$", checks := [⟨.named "a", .value 1 .stable⟩] }]

def optionalTable : Table where
  shapes :=
    [{ start := ""
       judged? := some
        { pattern := ⟨"^(a)?b$", _, rfl⟩
          checks := [⟨.named "a", .value 1 .stable⟩]
          within := by decide } }]
  requirements := []
  nodup := by decide

theorem optional_compiles :
    optional.WellFormed ∧ optional.Describes optionalTable ∧
      ∃ shape j captures c g,
        optionalTable.LacksGroup "b" (.valueMissing 1) shape j captures c g := by
  obtain ⟨accepted, kept⟩ := optional.compile_iff_wellFormed
  have compiled : optional.compile = .ok optionalTable :=
    (Spec.compile_spelled_iff rfl).2 ⟨by decide, .cons (.judged _ rfl rfl) .nil, rfl⟩
  obtain ⟨describes, lacks⟩ := kept optionalTable compiled
  have broken : (optionalTable.step {} "b").2 = .violation (.valueMissing 1) := by decide +kernel
  exact ⟨accepted.1 ⟨_, compiled⟩, describes, lacks {} "b" (.valueMissing 1) broken rfl⟩

end PatchTrial.Validator
