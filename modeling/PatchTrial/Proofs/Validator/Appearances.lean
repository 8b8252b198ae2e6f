import PatchTrial.Proofs.Validator.Vocabulary

/-!
Presets whose patch shows by what is printed. The programs with new variables and with nested types
have no value that changes: once they are patched they print lines of another kind. With these lines a
key appears, and nothing is kept of what was printed before them.

What is proved:
  1. `shows_inAnyOrder_iff`: lines show a patch in whatever order they stand if the new lines are among
     them and no old line is.
  2. `appearances_iff`: the logs that the two presets pass. Which lines occur decides it: either line of
     the new variables is enough, and old lines may come after new ones.
  3. `unpatched_again`: logs that pass, of programs that have half of the patch or have it no more.
-/
namespace PatchTrial.Validator

/-- Once a line of the patched program is printed, none of the old lines is printed any more. -/
def Settled (old : String → Prop) (lines : List String) : Prop :=
  lines.Pairwise fun earlier later => ¬(StartsWith "v1:" earlier ∧ old later)

instance (old : String → Prop) [DecidablePred old] (lines : List String) :
    Decidable (Settled old lines) :=
  inferInstanceAs (Decidable (lines.Pairwise fun _ _ => ¬_))

/-- A log shows a patch: all new lines are printed, and no old line is printed since. -/
structure Shows (new : List String) (old : String → Prop) (lines : List String) : Prop where
  printed : ∀ line ∈ new, line ∈ lines
  settled : Settled old lines

/-- The lines have a property in whatever order they stand. -/
def InAnyOrder (P : List String → Prop) (lines : List String) : Prop :=
  ∀ lines', lines'.Perm lines → P lines'

/-! ## What the programs print -/

/-- The only line of the program with new variables before its patch. -/
def nothingLine : String := "v0: I do nothing"

def alphaLine : String := "v1: alpha is \x7b42,66\x7d"

def betaLine : String := "v1: beta is 24"

/-- What the program with nested types prints before and after its patch. -/
def typesLine : String := "alpha: 42,(foo: 111,128),69"

def fieldsLine : String := "v1: foo.field2 is 0 and field3 is 0"

-- `id` keeps the statement of `rfl`: the text is parsed once and not again where the list is used
def variablePhrases : List Phrase :=
  [.opening "has pid",
    .sentence "v0" "^v0: I do nothing$" nothingLine [] (id rfl) (by decide),
    .sentence "v1: alpha" "^v1: alpha is \\\x7b42,66\\\x7d$" alphaLine ["new variables"] (id rfl)
      (by decide),
    .sentence "v1: beta" "^v1: beta is 24$" betaLine ["new variables"] (id rfl) (by decide)]

set_option maxRecDepth 1000 in
def fieldPhrases : List Phrase :=
  [.opening "has pid",
    .sentence "alpha" "^alpha: 42,\\(foo: 111,128\\),69$" typesLine [] (id rfl) (by decide),
    .sentence "v1: foo" "^v1: foo\\.field2 is 0 and field3 is 0$" fieldsLine ["new fields"] (id rfl)
      (by decide),
    .opening "v0: field",
    .opening "v1: field"]

/-! ## The order of the lines -/

/-- An old line can be put behind a new one. -/
theorem exists_perm_not_settled {old : String → Prop} {lines : List String} {earlier later : String}
    (he : earlier ∈ lines) (hl : later ∈ lines) (ne : later ≠ earlier)
    (new : StartsWith "v1:" earlier) (isOld : old later) :
    ∃ lines', lines'.Perm lines ∧ ¬Settled old lines' := by
  have behind : later ∈ lines.erase earlier := (List.mem_erase_of_ne ne).2 hl
  refine ⟨earlier :: later :: (lines.erase earlier).erase later, ?_, fun settled => ?_⟩
  · exact ((List.perm_cons_erase behind).symm.cons earlier).trans (List.perm_cons_erase he).symm
  · exact (List.pairwise_cons.1 settled).1 later List.mem_cons_self ⟨new, isOld⟩

theorem shows_inAnyOrder_iff {new : List String} {old : String → Prop} {lines : List String}
    {first : String} (hf : first ∈ new) (starts : StartsWith "v1:" first)
    (apart : ∀ line, old line → line ≠ first) :
    InAnyOrder (Shows new old) lines ↔ (∀ line ∈ new, line ∈ lines) ∧ ∀ line ∈ lines, ¬old line := by
  constructor
  · intro h
    have printed := (h lines (.refl lines)).printed
    refine ⟨printed, fun line hl isOld => ?_⟩
    obtain ⟨lines', hp, not⟩ :=
      exists_perm_not_settled (printed first hf) hl (apart line isOld) starts isOld
    exact not (h lines' hp).settled
  · intro h lines' hp
    obtain ⟨printed, none⟩ := h
    refine ⟨fun line hl => hp.mem_iff.2 (printed line hl), ?_⟩
    exact List.pairwise_of_forall_mem_list fun _ _ later hl both =>
      none later (hp.mem_iff.1 hl) both.2

/-! ## The logs that pass -/

theorem newVariable_passed_iff :
    ∃ t, Preset.newVariable.table = .ok t ∧ ∀ lines, (t.evaluate lines).passed = true ↔
      (∀ line ∈ lines, StartsWith "has pid" line ∨ line = nothingLine ∨ line = alphaLine ∨
        line = betaLine) ∧ (alphaLine ∈ lines ∨ betaLine ∈ lines) := by
  obtain ⟨t, ht, passed⟩ := Preset.newVariable.passed_iff_taken variablePhrases ["new variables"]
    rfl rfl (by decide)
  refine ⟨t, ht, fun lines => ?_⟩
  rw [passed]
  simp [variablePhrases, and_or_left, exists_or]

theorem nestedTypes_passed_iff :
    ∃ t, Preset.nestedTypes.table = .ok t ∧ ∀ lines, (t.evaluate lines).passed = true ↔
      (∀ line ∈ lines, StartsWith "has pid" line ∨ line = typesLine ∨ line = fieldsLine ∨
        StartsWith "v0: field" line ∨ StartsWith "v1: field" line) ∧ fieldsLine ∈ lines := by
  obtain ⟨t, ht, passed⟩ := Preset.nestedTypes.passed_iff_taken fieldPhrases ["new fields"]
    rfl rfl (by decide)
  refine ⟨t, ht, fun lines => ?_⟩
  rw [passed]
  simp [fieldPhrases]

/-- A verdict that no order of the lines changes tells of a patch in all of them only if all new lines
occur and no old one does. -/
theorem passes_inAnyOrder_iff {passes : List String → Prop} {new : List String}
    {old : String → Prop} {lines : List String} {first : String}
    (perm : ∀ log, log.Perm lines → (passes log ↔ passes lines)) (hf : first ∈ new)
    (starts : StartsWith "v1:" first) (apart : ∀ line, old line → line ≠ first) :
    InAnyOrder (fun log => passes log → Shows new old log) lines ↔
      (passes lines → (∀ line ∈ new, line ∈ lines) ∧ ∀ line ∈ lines, ¬old line) := by
  rw [← shows_inAnyOrder_iff hf starts apart]
  constructor
  · intro h pass log hp
    exact h log hp ((perm log hp).2 pass)
  · intro h log hp pass
    exact h ((perm log hp).1 pass) log hp

/-- The logs that pass when the patch is to appear: all their lines are known, and one of the new lines
is among them. So a pass tells of the patch, in whatever order the lines stand, only if all new lines
occur and no old one does. -/
theorem appearances_iff (lines : List String) :
    (∃ t, Spec.compile { preset := some "new_variable" } = .ok t ∧
      ((t.evaluate lines).passed = true ↔
        (∀ line ∈ lines, StartsWith "has pid" line ∨ line = nothingLine ∨ line = alphaLine ∨
          line = betaLine) ∧ (alphaLine ∈ lines ∨ betaLine ∈ lines)) ∧
      (InAnyOrder (fun log => (t.evaluate log).passed = true →
          Shows [alphaLine, betaLine] (· = nothingLine) log) lines ↔
        ((t.evaluate lines).passed = true →
          alphaLine ∈ lines ∧ betaLine ∈ lines ∧ nothingLine ∉ lines))) ∧
    ∃ t, Spec.compile { preset := some "nested_types" } = .ok t ∧
      ((t.evaluate lines).passed = true ↔
        (∀ line ∈ lines, StartsWith "has pid" line ∨ line = typesLine ∨ line = fieldsLine ∨
          StartsWith "v0: field" line ∨ StartsWith "v1: field" line) ∧ fieldsLine ∈ lines) ∧
      (InAnyOrder (fun log => (t.evaluate log).passed = true →
          Shows [fieldsLine] (StartsWith "v0: field") log) lines ↔
        ((t.evaluate lines).passed = true → ∀ line ∈ lines, ¬StartsWith "v0: field" line)) := by
  constructor
  · obtain ⟨t, ht, passed⟩ := newVariable_passed_iff
    refine ⟨t, (Spec.compile_preset .newVariable).trans ht, passed lines, ?_⟩
    have perm (log : List String) (hp : log.Perm lines) :
        (t.evaluate log).passed = true ↔ (t.evaluate lines).passed = true := by
      simp only [passed, hp.mem_iff]
    have apart : ∀ line, line = nothingLine → line ≠ alphaLine := by
      intro line old
      rw [old]
      decide
    -- whether a log passes does not depend on the order of its lines, so one order decides
    rw [passes_inAnyOrder_iff perm List.mem_cons_self (by decide) apart]
    simp only [List.forall_mem_cons, List.not_mem_nil, false_imp_iff, implies_true, true_and,
      and_assoc, List.forall_mem_ne']
  · obtain ⟨t, ht, passed⟩ := nestedTypes_passed_iff
    refine ⟨t, (Spec.compile_preset .nestedTypes).trans ht, passed lines, ?_⟩
    have perm (log : List String) (hp : log.Perm lines) :
        (t.evaluate log).passed = true ↔ (t.evaluate lines).passed = true := by
      simp only [passed, hp.mem_iff]
    have apart : ∀ line, StartsWith "v0: field" line → line ≠ fieldsLine := by
      intro line old same
      rw [same] at old
      exact absurd old (by decide)
    rw [passes_inAnyOrder_iff perm List.mem_cons_self (by decide) apart]
    refine imp_congr_right fun pass => and_iff_right ?_
    exact List.forall_mem_singleton.2 ((passed lines).1 pass).2

/-- The new variables are missing in part, or the program goes back to what it printed before. -/
theorem unpatched_again :
    (∃ t, Spec.compile { preset := some "new_variable" } = .ok t ∧
      (let half := ["has pid 1", nothingLine, alphaLine]
      (t.evaluate half).passed = true ∧ ¬Shows [alphaLine, betaLine] (· = nothingLine) half) ∧
      let back := ["has pid 1", nothingLine, alphaLine, betaLine, nothingLine]
      (t.evaluate back).passed = true ∧ ¬Shows [alphaLine, betaLine] (· = nothingLine) back) ∧
    ∃ t, Spec.compile { preset := some "nested_types" } = .ok t ∧
      let back := ["has pid 1", typesLine, fieldsLine, typesLine, "v0: field1 at 0x10"]
      (t.evaluate back).passed = true ∧ ¬Shows [fieldsLine] (StartsWith "v0: field") back := by
  constructor
  · obtain ⟨t, ht, passed⟩ := newVariable_passed_iff
    refine ⟨t, (Spec.compile_preset .newVariable).trans ht, ⟨?_, fun shows => ?_⟩, ?_, fun shows => ?_⟩
    · rw [passed]
      decide
    · exact absurd (shows.printed betaLine (by simp)) (by decide)
    · rw [passed]
      decide
    · exact absurd shows.settled (by decide)
  · obtain ⟨t, ht, passed⟩ := nestedTypes_passed_iff
    refine ⟨t, (Spec.compile_preset .nestedTypes).trans ht, ?_, fun shows => ?_⟩
    · rw [passed]
      decide
    · exact absurd shows.settled (by decide)

end PatchTrial.Validator
