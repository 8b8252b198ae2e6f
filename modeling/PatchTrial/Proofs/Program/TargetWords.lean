import PatchTrial.Proofs.Arguments
import PatchTrial.Proofs.Program.Stages

/-!
The words for the target, from the command line to the target. They are the arguments of the scenario
that is asked for, if there are any, and a target is started with the arguments of its scenario.

What is proved:
  1. `entries_of_choose`: a run of one scenario runs the entry of its folder.
  2. `argv_of_spawn`: every target that it starts is started as that scenario says.
  3. `argv_of_plain`: so it ends with the words for the target, if nothing else is asked for.
  4. `words_for_target`: the words behind the executable are the words for the target exactly if the
     first one is no option of the program; `separated_for_target`: those behind `--` always are.
-/
namespace PatchTrial.Program
open Arguments (IsOption plain ofWords_eq_plain_iff ofWords_separator)
open Suite (Entry)

variable {words : List String} {env : Environment} {a : Arguments} {entries : List Entry}
  {path : Path}

/-! ## The scenario -/

theorem entries_of_choose {harness : Harness} {past : Trace} (one : a.scenario = some path)
    (alone : a.directory = false)
    (h : (choose a).outcome.play env [] = (.ok (entries, harness), past)) :
    entries = [Entry.of path (.ofArguments a)] := by
  have found : (Suite.discover a).Asks (fun _ _ => True) []
      (fun entries _ => entries = [Entry.of path (.ofArguments a)]) fun _ _ => True := by
    rw [Suite.discover, one]
    simp only [alone, Bool.false_eq_true, if_false]
    refine Attempt.asks_after fun _ _ => ?_
    split
    · exact Attempt.asks_throw.2 trivial
    · exact Attempt.asks_pure.2 rfl
  have chosen : (choose a).Asks (fun _ _ => True) []
      (fun r _ => r.1 = [Entry.of path (.ofArguments a)]) fun _ _ => True := by
    refine Attempt.asks_bind.2 (found.mono ?_ fun _ _ => id)
    exact fun entries _ same => Attempt.asks_after fun _ _ => Attempt.asks_pure.2 same
  have ends := (Attempt.asks_outcome.1 chosen).play env
  rw [h] at ends
  exact ends

/-! ## The target -/

/-- A trial starts its target by one command only. -/
theorem argv_of_may {c : Trial.Setting} {s : Scenario} {start past : Trace} {argv : List String}
    {out err : Handle} (h : Trial.May c s start past (.spawn argv out err)) :
    argv = Trial.launchCommand c.harness s := by
  cases h with
  | minor minor => exact minor.elim
  | launch => rfl
  | kill kill =>
    obtain ⟨-, -, pid, signal, run⟩ := kill
    cases run

/-- Every target of a run of one scenario is started as the scenario says. -/
theorem argv_of_spawn (asked : Arguments.ofWords words = .ok a) (one : a.scenario = some path)
    (alone : a.directory = false) {x : Exchange} (hm : x ∈ ((run words).play env []).2)
    {argv : List String} {out err : Handle} (spawned : x.request = .spawn argv out err) :
    ∃ harness settings,
      argv = Trial.launchCommand harness (.of path (.ofArguments a) settings) := by
  rcases play_run words env with ⟨e, refused, -⟩ | ⟨a', r, trace, asked', goes, played⟩
  · cases refused.symm.trans asked
  obtain rfl := Except.ok.inj (asked.symm.trans asked')
  rw [played] at hm
  have inside : ¬ IsOutside a x.request := by
    rw [spawned]
    rintro (inquiry | _ | _ | progress)
    · cases inquiry
    · exact progress
  obtain ⟨entries, c, start, begun, own⟩ := goes.mem_suite hm inside
  obtain ⟨past, chosen, -⟩ := begun.chosen
  obtain rfl := entries_of_choose one alone chosen
  obtain ⟨before, within⟩ := Plan.exists_within own
  have suite : ¬ Suite.IsAround x.request := by
    intro around
    cases around.startOf?.symm.trans (congrArg Trial.startOf? spawned)
  obtain ⟨entry, hm, s, v, begun, ⟨settings, -, rfl⟩, trial⟩ := Suite.within_loaded_trial within suite
  obtain rfl := List.mem_singleton.1 hm
  have may := (Trial.asks_run v begun).of_within trial
  rw [spawned] at may
  exact ⟨c.harness, settings, argv_of_may may⟩

/-! ## The words -/

/-- Every target that is started is the one of the old tree, and its command ends with the words for the
target; if there are any, they are all of its arguments. -/
theorem argv_of_plain {scenario execName : String} {ws : List String}
    (asked : Arguments.ofWords words = .ok (plain scenario execName ws)) {x : Exchange}
    (hm : x ∈ ((run words).play env []).2) {argv : List String} {out err : Handle}
    (spawned : x.request = .spawn argv out err) :
    ∃ front args, argv = front ++
        (((Path.ofString scenario).child Scenario.oldName).child execName).shown :: args ∧
      ws <:+ args ∧ (ws ≠ [] → args = ws) := by
  obtain ⟨harness, settings, rfl⟩ := argv_of_spawn asked rfl rfl hm spawned
  have given (some : ws ≠ []) :
      (Scenario.of (.ofString scenario) (.ofArguments (plain scenario execName ws)) settings).args =
        ws := by
    simp [Scenario.of, Overrides.ofArguments, plain, some]
  refine ⟨_, _, rfl, ?_, given⟩
  by_cases none : ws = []
  · exact none ▸ List.nil_suffix
  · simp only [given none, List.suffix_rfl]

/-- The words behind the executable are the words for the target, and nothing else is asked for, exactly
if the first one is no option of the program. Then every target that is started is the one of the old
tree, and its command ends with these words; if there are any, they are all of its arguments. -/
theorem words_for_target {scenario execName : String} (nonempty : scenario ≠ "")
    (hs : scenario.toList.head? ≠ some '-') (he : execName.toList.head? ≠ some '-')
    {ws : List String} (separator : ws.head? ≠ some "--") :
    (Arguments.ofWords (scenario :: execName :: ws) = .ok (plain scenario execName ws) ↔
      ∀ w ∈ ws.head?, ¬ IsOption w) ∧
    ((∀ w ∈ ws.head?, ¬ IsOption w) → ∀ env,
      ∀ x ∈ ((run (scenario :: execName :: ws)).play env []).2, ∀ argv out err,
        x.request = .spawn argv out err → ∃ front args, argv = front ++
            (((Path.ofString scenario).child Scenario.oldName).child execName).shown :: args ∧
          ws <:+ args ∧ (ws ≠ [] → args = ws)) := by
  have parsed := ofWords_eq_plain_iff nonempty hs he separator
  exact ⟨parsed, fun first env x hm argv out err => argv_of_plain (parsed.2 first) hm⟩

/-- The machine `calm`, with the patch tool that is used when none is named. -/
def furnished : Environment
  | past, .kind path => if path = .ofString "./katana" then some .file else Suite.calm past (.kind path)
  | past, r => Suite.calm past r

def isSpawn : Request → Bool
  | .spawn _ _ _ => true
  | _ => false

/-- A word that only looks like an option, and an option of the program behind it. -/
theorem hyphens_for_target :
    "t" ≠ "" ∧ "t".toList.head? ≠ some '-' ∧ "httpd".toList.head? ≠ some '-' ∧
      ["-X", "--elevated"].head? ≠ some "--" ∧
      Arguments.ofWords ["t", "httpd", "-X", "--elevated"] =
        .ok (plain "t" "httpd" ["-X", "--elevated"]) ∧
      ∃ x ∈ ((run ["t", "httpd", "-X", "--elevated"]).play furnished []).2, ∃ argv out err,
        x.request = .spawn argv out err ∧
          ∃ front, argv = front ++ ["t/v0/httpd", "-X", "--elevated"] := by
  have nonempty : "t" ≠ "" := by decide
  have hs : "t".toList.head? ≠ some '-' := by decide
  have he : "httpd".toList.head? ≠ some '-' := by decide
  have separator : ["-X", "--elevated"].head? ≠ some "--" := by decide
  have parsed : Arguments.ofWords ["t", "httpd", "-X", "--elevated"] =
      .ok (plain "t" "httpd" ["-X", "--elevated"]) := by decide
  obtain ⟨parses, launches⟩ := words_for_target nonempty hs he separator
  refine ⟨nonempty, hs, he, separator, parsed, ?_⟩
  have started : ((run ["t", "httpd", "-X", "--elevated"]).play furnished []).2.any
      (fun x => isSpawn x.request) = true := by decide +kernel
  obtain ⟨x, hm, spawns⟩ := List.any_eq_true.1 started
  cases spawned : x.request with
  | spawn argv out err =>
    have launched := launches (parses.1 parsed) furnished x hm argv out err spawned
    obtain ⟨front, args, same, -, all⟩ := launched
    have shown : (((Path.ofString "t").child Scenario.oldName).child "httpd").shown = "t/v0/httpd" := by
      decide +kernel
    rw [all (List.cons_ne_nil _ _), shown] at same
    exact ⟨x, hm, argv, out, err, spawned, front, same⟩
  | _ =>
    rw [spawned] at spawns
    cases spawns

/-- An option of the program in the first place is not for the target, though it stands behind the
executable. -/
theorem option_not_for_target :
    "t1" ≠ "" ∧ "t1".toList.head? ≠ some '-' ∧ "httpd".toList.head? ≠ some '-' ∧
      ["-d", "/srv"].head? ≠ some "--" ∧
      Arguments.ofWords ["t1", "httpd", "-d", "/srv"] =
        .ok { plain "t1" "httpd" ["/srv"] with directory := true } ∧
      Arguments.ofWords ["t1", "httpd", "-d", "/srv"] ≠ .ok (plain "t1" "httpd" ["-d", "/srv"]) := by
  decide

/-- Behind the separator all words are for the target, also those that are options of the program. -/
theorem separated_for_target {scenario execName : String} (nonempty : scenario ≠ "")
    (hs : scenario.toList.head? ≠ some '-') (he : execName.toList.head? ≠ some '-')
    (ws : List String) :
    Arguments.ofWords (scenario :: execName :: "--" :: ws) = .ok (plain scenario execName ws) ∧
    ∀ env, ∀ x ∈ ((run (scenario :: execName :: "--" :: ws)).play env []).2, ∀ argv out err,
      x.request = .spawn argv out err → ∃ front args, argv = front ++
          (((Path.ofString scenario).child Scenario.oldName).child execName).shown :: args ∧
        ws <:+ args ∧ (ws ≠ [] → args = ws) := by
  have parsed := ofWords_separator nonempty hs he ws
  exact ⟨parsed, fun env x hm argv out err => argv_of_plain parsed hm⟩

end PatchTrial.Program
