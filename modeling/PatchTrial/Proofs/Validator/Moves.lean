import PatchTrial.Proofs.Validator.Evidence

/-!
What one line does to the state, whatever becomes of it. The checks of a line share one state, and
each may record something in it before a later one is broken; nothing is taken back then.

What is proved:
  1. `Check.meetsOnly_of_broken`: a check that is broken records nothing, whichever way it is broken. It
     only meets its key, if it has one.
  2. `Table.moves_step` and `Table.Moves.step_eq`: a line is counted, and then all checks of its shape
     are applied, or those up to the first that is broken, or none.
  3. `refused_line_leaves`: so a line that breaks a check leaves what the checks before that one leave
     when they are applied alone, and a line that comes to no check is only counted.
-/
namespace PatchTrial.Validator

/-- Checks applied one after another, each to what the one before it left, broken or not. -/
def applyEach (captures : Regex.Captures) : List Check → State → State
  | [], s => s
  | c :: rest, s => applyEach captures rest (c.apply captures s).1

/-- None of some checks is broken when they are applied one after another. -/
def Unbroken (captures : Regex.Captures) : List Check → State → Prop
  | [], _ => True
  | c :: rest, s => (c.apply captures s).2 = none ∧ Unbroken captures rest (c.apply captures s).1

/-- A state is another one, but that a key was met as well, if there is one. -/
structure State.MeetsOnly (s : State) (key? : Option String) (s' : State) : Prop where
  lineNo : s'.lineNo = s.lineNo
  observations : s'.observations = s.observations
  appeared : s'.appeared = s.appeared
  seen : ∀ key, s'.hasSeen key = true ↔ s.hasSeen key = true ∨ key? = some key

/-- A line is checked: it matches the pattern of its shape, which has these checks. -/
def Table.Checks (t : Table) (line : String) (captures : Regex.Captures) (checks : List Check) :
    Prop :=
  ∃ shape j, Shape.dispatch line t.shapes = some shape ∧ shape.judged? = some j ∧
    j.pattern.captures? line = some captures ∧ j.checks = checks

/-- A line has a shape without a pattern. -/
def Table.Skips (t : Table) (line : String) : Prop :=
  ∃ shape, Shape.dispatch line t.shapes = some shape ∧ shape.judged? = none

/-- The ways a line can go from a state, with the state after it and its outcome. -/
inductive Table.Moves (t : Table) (s : State) (line : String) : State → Outcome → Prop
  | unrecognized : Shape.dispatch line t.shapes = none → Moves t s line s.nextLine .unrecognized
  | skipped : t.Skips line → Moves t s line s.nextLine .accepted
  | mismatch {shape : Shape} {j : Judged} :
    Shape.dispatch line t.shapes = some shape → shape.judged? = some j →
      j.pattern.captures? line = none → Moves t s line s.nextLine (.mismatch j.pattern.text)
  | accepted {captures : Regex.Captures} {checks : List Check} :
    t.Checks line captures checks → Unbroken captures checks s.nextLine →
      Moves t s line (applyEach captures checks s.nextLine) .accepted
  | violation {captures : Regex.Captures} {before after : List Check} {c : Check} {v : Violation} :
    t.Checks line captures (before ++ c :: after) → Unbroken captures before s.nextLine →
      (c.apply captures (applyEach captures before s.nextLine)).2 = some v →
        Moves t s line (c.apply captures (applyEach captures before s.nextLine)).1 (.violation v)

/-! ## The check that is broken -/

theorem State.MeetsOnly.refl (s : State) : s.MeetsOnly none s :=
  ⟨rfl, rfl, rfl, fun _ => by simp⟩

theorem State.meetsOnly_meet (s : State) (key : String) : s.MeetsOnly (some key) (s.meet key) :=
  ⟨rfl, rfl, rfl, fun other => by
    rw [hasSeen, meet, List.contains_cons, Bool.or_eq_true, beq_iff_eq, Option.some.injEq, or_comm,
      eq_comm (a := other)]
    rfl⟩

/-- Meeting a key is no sign of the patch. -/
theorem State.MeetsOnly.patched {s s' : State} {key? : Option String} (h : s.MeetsOnly key? s') :
    s'.patched = s.patched := by
  rw [State.patched, State.patched, h.observations, h.appeared]

/-- A check that is broken records nothing. -/
theorem Check.meetsOnly_of_broken {c : Check} {captures : Regex.Captures} {s : State}
    {v : Violation} (h : (c.apply captures s).2 = some v) :
    s.MeetsOnly (c.key.resolve captures) (c.apply captures s).1 := by
  unfold apply at h ⊢
  cases hk : c.key.resolve captures with
  | none => exact .refl s
  | some key =>
    rw [hk] at h
    cases ht : c.test with
    | appears =>
      rw [ht] at h
      cases h
    | value group rule =>
      rw [ht] at h
      dsimp only at h ⊢
      cases hg : captures.get? group with
      | none => exact s.meetsOnly_meet key
      | some value =>
        rw [hg] at h
        dsimp only at h ⊢
        cases ho : rule.observe key ((s.meet key).observation? key) value with
        | error v => exact s.meetsOnly_meet key
        | ok o =>
          rw [ho] at h
          cases h

/-! ## The checks of a line -/

section Checks
variable {captures : Regex.Captures} {before : List Check} {c : Check} {s : State} {v : Violation}

/-- Checks that are not broken only move the state on. -/
theorem applyAll_append (h : Unbroken captures before s) (more : List Check) :
    applyAll captures (before ++ more) s = applyAll captures more (applyEach captures before s) := by
  induction before generalizing s with
  | nil => rfl
  | cons c rest ih =>
    obtain ⟨kept, later⟩ := h
    rw [List.cons_append, applyAll, applyEach]
    rcases e : c.apply captures s with ⟨s', _ | v⟩
    · rw [e] at later
      exact ih later
    · rw [e] at kept
      cases kept

theorem applyAll_of_unbroken (h : Unbroken captures before s) :
    applyAll captures before s = (applyEach captures before s, none) := by
  have all := applyAll_append h []
  rw [List.append_nil] at all
  exact all

/-- Nothing that comes after the first broken check is looked at. -/
theorem applyAll_broken (h : Unbroken captures before s)
    (broken : (c.apply captures (applyEach captures before s)).2 = some v) (after : List Check) :
    applyAll captures (before ++ c :: after) s =
      ((c.apply captures (applyEach captures before s)).1, some v) := by
  rw [applyAll_append h, applyAll]
  rcases e : c.apply captures (applyEach captures before s) with ⟨s', _ | v'⟩
  · rw [e] at broken
    cases broken
  · rw [e] at broken
    cases broken
    rfl

/-- Either no check is broken, or there is a first one that is. -/
theorem unbroken_or_exists_broken (captures : Regex.Captures) (checks : List Check) (s : State) :
    Unbroken captures checks s ∨ ∃ before c after v, checks = before ++ c :: after ∧
      Unbroken captures before s ∧ (c.apply captures (applyEach captures before s)).2 = some v := by
  induction checks generalizing s with
  | nil => exact .inl trivial
  | cons c rest ih =>
    cases hc : (c.apply captures s).2 with
    | some v => exact .inr ⟨[], c, rest, v, rfl, trivial, hc⟩
    | none =>
      rcases ih (c.apply captures s).1 with later | ⟨before, d, after, v, rfl, kept, broken⟩
      · exact .inl ⟨hc, later⟩
      · exact .inr ⟨c :: before, d, after, v, rfl, ⟨hc, kept⟩, broken⟩

end Checks

/-! ## The moves of a line -/

section Moves
variable {t : Table} {s s' : State} {line : String} {captures : Regex.Captures}
  {checks : List Check} {o : Outcome}

/-- A line that is checked goes as its checks do. -/
theorem Table.Checks.step_eq (h : t.Checks line captures checks) (s : State) :
    t.step s line = match applyAll captures checks s.nextLine with
      | (s', none) => (s', .accepted)
      | (s', some v) => (s', .violation v) := by
  obtain ⟨shape, j, chosen, judged, matched, rfl⟩ := h
  rcases ran : applyAll captures j.checks s.nextLine with ⟨s', broken⟩
  cases broken <;> simp only [step, chosen, Shape.judge, judged, matched, ran]

theorem Table.Moves.step_eq (h : t.Moves s line s' o) : t.step s line = (s', o) := by
  cases h with
  | unrecognized none => simp only [step, none]
  | skipped skips =>
    obtain ⟨shape, chosen, plain⟩ := skips
    simp only [step, chosen, Shape.judge, plain]
  | mismatch chosen judged missed => simp only [step, chosen, Shape.judge, judged, missed]
  | accepted checked kept => rw [checked.step_eq, applyAll_of_unbroken kept]
  | violation checked kept broken => rw [checked.step_eq, applyAll_broken kept broken]

/-- No line is both checked and not. -/
theorem Table.Checks.not_skips (h : t.Checks line captures checks) : ¬ t.Skips line := by
  obtain ⟨shape, j, chosen, judged, -, -⟩ := h
  intro skips
  obtain ⟨shape', chosen', plain⟩ := skips
  rw [chosen] at chosen'
  cases chosen'
  rw [judged] at plain
  cases plain

/-- A line that comes to no check is only counted. -/
theorem Table.Moves.counted (h : t.Moves s line s' o)
    (unchecked : o = .unrecognized ∨ (∃ pattern, o = .mismatch pattern) ∨ t.Skips line) :
    s' = s.nextLine := by
  cases h with
  | unrecognized | skipped | mismatch => rfl
  | accepted checked => simp [checked.not_skips] at unchecked
  | violation checked => simp [checked.not_skips] at unchecked

theorem Table.moves_step (t : Table) (s : State) (line : String) :
    t.Moves s line (t.step s line).1 (t.step s line).2 := by
  suffices moves : ∃ s' o, t.Moves s line s' o by
    obtain ⟨s', o, h⟩ := moves
    rw [h.step_eq]
    exact h
  cases chosen : Shape.dispatch line t.shapes with
  | none => exact ⟨_, _, .unrecognized chosen⟩
  | some shape =>
    cases judged : shape.judged? with
    | none => exact ⟨_, _, .skipped ⟨shape, chosen, judged⟩⟩
    | some j =>
      cases matched : j.pattern.captures? line with
      | none => exact ⟨_, _, .mismatch chosen judged matched⟩
      | some captures =>
        have checked : t.Checks line captures j.checks := ⟨shape, j, chosen, judged, matched, rfl⟩
        rcases unbroken_or_exists_broken captures j.checks s.nextLine with
          kept | ⟨before, c, after, v, split, kept, broken⟩
        · exact ⟨_, _, .accepted checked kept⟩
        · rw [split] at checked
          exact ⟨_, _, .violation checked kept broken⟩

end Moves

/-! ## What a refused line leaves -/

/-- A line that breaks a check leaves what the checks before it leave when they are applied alone, but
that the key of the broken check is met as well if it has one; and it would be the same whatever
checks came after. A line that has no shape, does not match the pattern of its shape, or has a shape
without a pattern is counted, and nothing else changes. -/
theorem refused_line_leaves (t : Table) (s : State) (line : String) :
    (∀ v, (t.step s line).2 = .violation v →
      ∃ captures before c after, t.Checks line captures (before ++ c :: after) ∧
        Unbroken captures before s.nextLine ∧
        (c.apply captures (applyEach captures before s.nextLine)).2 = some v ∧
        (applyEach captures before s.nextLine).MeetsOnly (c.key.resolve captures)
          (t.step s line).1 ∧
        (t.step s line).1.patched = (applyEach captures before s.nextLine).patched ∧
        ∀ (t' : Table) after', t'.Checks line captures (before ++ c :: after') →
          t'.step s line = t.step s line) ∧
      ((t.step s line).2 = .unrecognized ∨ (∃ pattern, (t.step s line).2 = .mismatch pattern) ∨
        t.Skips line → (t.step s line).1 = { s with lineNo := s.lineNo + 1 }) := by
  have moves := t.moves_step s line
  constructor
  · intro v refused
    rw [refused] at moves
    generalize reached : (t.step s line).1 = s' at moves
    cases moves with
    | @violation captures before after c v checked kept broken =>
      have only := Check.meetsOnly_of_broken broken
      refine ⟨captures, before, c, after, checked, kept, broken, only, only.patched, ?_⟩
      intro t' after' checked'
      have other : t'.Moves s line _ _ := .violation checked' kept broken
      have this : t.Moves s line _ _ := .violation checked kept broken
      rw [other.step_eq, this.step_eq]
  · exact moves.counted

/-- Lines of three letters, the first and the last of which may change once, and the second never. -/
def threeLetters : Table where
  shapes :=
    [{ start := ""
       judged? := some
        { pattern := ⟨"^(.)(.)(.)$", _, rfl⟩
          checks := [⟨.named "a", .value 1 .changeOnce⟩, ⟨.named "b", .value 2 .stable⟩,
            ⟨.named "c", .value 3 .changeOnce⟩]
          within := by decide } }]
  requirements := []
  nodup := by decide

/-- Of a line whose second letter moves, the first is recorded and the third is not. A line that is too
short is counted, and nothing else. -/
theorem second_letter_moves :
    let s := threeLetters.stateAfter {} ["xxx"]
    let refused := threeLetters.step s "yyy"
    refused.2 = .violation (.moved "b" "x" "y") ∧
      (∃ captures before c after, threeLetters.Checks "yyy" captures (before ++ c :: after) ∧
        (applyEach captures before s.nextLine).MeetsOnly (c.key.resolve captures) refused.1) ∧
      refused.1.observation? "a" = some ⟨"y", true⟩ ∧
      refused.1.observation? "c" = some ⟨"x", false⟩ ∧
      (threeLetters.step refused.1 "yy").1 = { refused.1 with lineNo := 3 } := by
  intro s refused
  have moved : refused.2 = .violation (.moved "b" "x" "y") := by decide +kernel
  have short : (threeLetters.step refused.1 "yy").2 = .mismatch "^(.)(.)(.)$" := by decide +kernel
  obtain ⟨captures, before, c, after, checked, -, -, only, -⟩ :=
    (refused_line_leaves threeLetters s "yyy").1 _ moved
  have counted := (refused_line_leaves threeLetters refused.1 "yy").2 (.inr (.inl ⟨_, short⟩))
  exact ⟨moved, ⟨captures, before, c, after, checked, only⟩, by decide +kernel, by decide +kernel,
    counted⟩

end PatchTrial.Validator
