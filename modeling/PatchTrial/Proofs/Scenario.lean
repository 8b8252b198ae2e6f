import PatchTrial.Proofs.Path
import PatchTrial.Proofs.Trial.Untroubled

/-!
Loading a scenario. The executable is named by the command line, by the settings of the scenario, or
not at all; only the settings are checked for blank names, and no name is checked for where it leads.

What is proved:
  1. `of_load`: what is loaded is the scenario of some settings that have no blank name.
  2. `fromOldTree_of_load`: so a blank name comes from the command line, and the program that is started
     is one of the old tree exactly if its name is not blank and leads down into that tree.
-/
namespace PatchTrial.Scenario

variable {env : Environment} {past : Trace} {root : Path} {o : Overrides} {s : Scenario}

/-! ## Loading -/

theorem asks_loadSettings (root : Path) :
    (Settings.load root).Asks (fun _ _ => True) past (fun settings _ => settings.hasBlankName = false)
      fun _ _ => True := by
  refine Attempt.asks_after fun _ _ => ?_
  split
  · exact Attempt.asks_pure.2 rfl
  refine Attempt.asks_after fun _ _ => ?_
  split
  · exact Attempt.asks_throw.2 trivial
  · split
    · exact Attempt.asks_throw.2 trivial
    · next named => exact Attempt.asks_pure.2 (eq_false_of_ne_true named)

/-- What is loaded from a folder is the scenario of some settings that name no blank executable. -/
theorem of_load (h : ((load root o).outcome.play env past).1 = .ok s) :
    ∃ settings, settings.hasBlankName = false ∧ s = of root o settings := by
  have kept : (load root o).Asks (fun _ _ => True) past
      (fun s _ => ∃ settings, settings.hasBlankName = false ∧ s = of root o settings)
      fun _ _ => True := by
    refine Attempt.asks_after fun _ _ => ?_
    split
    · exact Attempt.asks_throw.2 trivial
    refine Attempt.asks_after fun _ _ => ?_
    split
    · exact Attempt.asks_throw.2 trivial
    refine Attempt.asks_after fun _ _ => ?_
    split
    · exact Attempt.asks_throw.2 trivial
    · refine Attempt.asks_bind.2 ((asks_loadSettings root).mono ?_ fun _ _ => id)
      exact fun settings _ named => Attempt.asks_pure.2 ⟨settings, named, rfl⟩
  have ends := (Attempt.asks_outcome.1 kept).play env
  rw [h] at ends
  exact ends

/-! ## The program that is started -/

/-- The program that is started and patched has a name, and it is one of the old tree. -/
def FromOldTree (s : Scenario) : Prop :=
  Text.isAllBlank s.execName = false ∧ s.oldTree.Below s.targetPath

instance (s : Scenario) : Decidable s.FromOldTree := inferInstanceAs (Decidable (_ ∧ _))

theorem oldTree_ne_nil (root : Path) (o : Overrides) (settings : Settings) :
    (of root o settings).oldTree.bytes ≠ [] := by
  have piece : Path.IsPiece oldName := by decide
  have named : Utf8.encode oldName ≠ [] := by decide
  exact (Path.isNamed_child root piece named).1

/-- A blank name is given by the command line: the settings have none, and neither is the one blank
that holds otherwise. -/
theorem given_of_isAllBlank {settings : Settings} (h : settings.hasBlankName = false)
    (blank : Text.isAllBlank (of root o settings).execName = true) :
    o.execName = some (of root o settings).execName := by
  cases given : o.execName with
  | some name => simp [of, given]
  | none =>
    rw [of, given, Option.none_or] at blank
    cases set : settings.execName with
    | some name =>
      rw [Settings.hasBlankName, set] at h
      rw [set] at blank
      cases blank.symm.trans h
    | none =>
      rw [set] at blank
      exact absurd blank (show ¬ Text.isAllBlank defaultExecName = true by decide)

/-- What is loaded starts a program of the old tree exactly if its name is not blank and, when it is
relative, leads down into the tree and not out of it. The name is blank only if the command line says
so, and any name that is one piece leads into the tree. -/
theorem fromOldTree_of_load (loads : ((load root o).outcome.play env past).1 = .ok s) :
    s.oldTree = root.child oldName ∧
    (s.FromOldTree ↔ Text.isAllBlank s.execName = false ∧
      if (Path.ofString s.execName).isAbsolute then s.oldTree.Below (Path.ofString s.execName)
      else Path.Descends (Path.ofString s.execName).names) ∧
    (Text.isAllBlank s.execName = true → o.execName = some s.execName) ∧
    (Text.isAllBlank s.execName = false → Path.IsName s.execName → s.FromOldTree) := by
  obtain ⟨settings, named, rfl⟩ := of_load loads
  have some := oldTree_ne_nil root o settings
  refine ⟨rfl, and_congr_right fun _ => Path.below_child_iff some _, given_of_isAllBlank named, ?_⟩
  exact fun visible name => ⟨visible, name.below some⟩

/-- A machine on which all scenarios have the same settings. -/
def withSettings (text : String) : Environment :=
  Trial.untroubled (fun _ _ => false) fun _ => Utf8.encode text

/-- What a machine loads from the folder `t`. -/
def loaded (text : String) (o : Overrides) : Except Refusal Scenario :=
  ((load (.ofString "t") o).outcome.play (withSettings text) []).1

/-- A nested name that leads up and down again. -/
theorem nested_name_descends :
    ∃ s, loaded "\x7b\"exec_name\": \"bin/../sub/./test\"\x7d" {} = .ok s ∧
      s.FromOldTree ∧ s.targetPath = .ofString "t/v0/bin/../sub/./test" := by
  have loads : loaded "\x7b\"exec_name\": \"bin/../sub/./test\"\x7d" {} =
      .ok (of (.ofString "t") {} { execName := some "bin/../sub/./test" }) := by
    decide +kernel
  exact ⟨_, loads, (fromOldTree_of_load loads).2.1.2 (by decide), by decide⟩

/-- No source of the name keeps it in the old tree: a blank name of the command line is the tree itself,
an absolute name of the settings stands alone, and either may lead out of the tree. -/
theorem name_leaves_old_tree :
    (∃ s, loaded "\x7b\x7d" { execName := some "" } = .ok s ∧
      ¬ s.FromOldTree ∧ s.targetPath = .ofString "t/v0/") ∧
    (∃ s, loaded "\x7b\"exec_name\": \"/bin/sh\"\x7d" {} = .ok s ∧
      ¬ s.FromOldTree ∧ s.targetPath = .ofString "/bin/sh") ∧
    ∃ s, loaded "\x7b\"exec_name\": \"../v1/test\"\x7d" {} = .ok s ∧
      ¬ s.FromOldTree ∧ s.targetPath = .ofString "t/v0/../v1/test" := by
  refine ⟨⟨of (.ofString "t") { execName := some "" } {}, ?_⟩,
    ⟨of (.ofString "t") {} { execName := some "/bin/sh" }, ?_⟩,
    ⟨of (.ofString "t") {} { execName := some "../v1/test" }, ?_⟩⟩
  all_goals decide +kernel

end PatchTrial.Scenario
