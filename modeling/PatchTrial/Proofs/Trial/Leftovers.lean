import PatchTrial.Proofs.Trial.Untroubled

/-!
What an earlier trial left in the folder of a scenario, and whether it makes a difference. A machine
is given by what it replies for each possible content of the files that were left; and its replies
may depend on the content of a file only once something looked at the file before it was new.

What is proved:
  1. `not_seesOld_of_may`: a trial asks nothing that looks at an old file, if its programs do not.
  2. `leaksNothing_iff_shields`: so its verdict and the progress it shows are the same whatever was
     left; and they are not if a program looks at an old file.
  3. `old_patch_decides`: where an earlier trial left a patch, a trial fails that passes without it if
     the tool does not overwrite a patch, and passes that fails without it if the tool makes none.
-/
namespace PatchTrial.Trial

/-- Which of the files that an earlier trial left the programs of a trial look at: those that are
named in their arguments, and those in the folders that are. -/
structure Habits where
  /-- The files that the tool looks at when it makes the patch. -/
  generate : List Leftover
  /-- The files that the target looks at, or a wrapper it is started through. -/
  launch : List Leftover
  /-- The files that the tool looks at when it applies the patch. -/
  apply : List Leftover
  /-- Whether the tool has made the patch anew whenever it says that the patch is made. -/
  remakes : Bool
  deriving DecidableEq, Repr

namespace Habits
variable (h : Habits) (c : Setting) (s : Scenario)

/-- Whether a request looks at a file, be it through a program that is started. -/
def looks (file : Leftover) : Request → Bool
  | .kind path | .read path | .canonical path | .isProgram path | .openLog path _ =>
    path = file.path s
  | .run argv (some _) (some _) =>
    if argv = generateArgv c s then file ∈ h.generate else file ∈ h.apply
  | .spawn _ _ _ => file ∈ h.launch
  | _ => false

/-- Nothing is left of what was in a file before the trial. -/
def Fresh (past : Trace) (file : Leftover) : Prop :=
  Renewed c s past file ∧ (file = .patch → h.remakes = true)

/-- A request looks at a file that may still be as it was left. -/
def SeesOld (past : Trace) (r : Request) (file : Leftover) : Prop :=
  h.looks c s file r = true ∧ ¬ h.Fresh c s past file

instance (past : Trace) (file : Leftover) : Decidable (Renewed c s past file) :=
  inferInstanceAs (Decidable (∃ e ∈ past, _))

instance (past : Trace) (file : Leftover) : Decidable (h.Fresh c s past file) :=
  inferInstanceAs (Decidable (_ ∧ _))

instance (past : Trace) (r : Request) (file : Leftover) : Decidable (h.SeesOld c s past r file) :=
  inferInstanceAs (Decidable (_ ∧ _))

/-- Something in a trace, or the request after it, looked at a file as it was left. -/
def Known (past : Trace) (r : Request) (file : Leftover) : Prop :=
  h.SeesOld c s past r file ∨
    ∃ before e, before ++ [e] <+: past ∧ h.SeesOld c s before e.request file

end Habits

/-- A machine, for all that may have been left in the folder of a scenario. What it replies depends
only on the files that were looked at. -/
structure Machine (h : Habits) (c : Setting) (s : Scenario) where
  reply : (Leftover → Option Bytes) → Environment
  lawful : ∀ a b past r, (∀ file, h.Known c s past r file → a file = b file) →
    reply a past r = reply b past r

variable (h : Habits) (c : Setting) (s : Scenario)

/-- Whatever is left in some files, a trial comes to the same result and shows the same progress. -/
def LeaksNothing (v : Validator) (varying : List Leftover) : Prop :=
  ∀ (m : Machine h c s) (a b : Leftover → Option Bytes), (∀ file ∉ varying, a file = b file) →
    ((run c s v).play (m.reply a) []).1 = ((run c s v).play (m.reply b) []).1 ∧
      marks ((run c s v).play (m.reply a) []).2 = marks ((run c s v).play (m.reply b) []).2

/-- When some files were made anew, a file is one of them; the patch only if the tool remakes it. -/
def Habits.Settled (files : List Leftover) (file : Leftover) : Prop :=
  file ∈ files ∧ (file = .patch → h.remakes = true)

instance (files : List Leftover) (file : Leftover) : Decidable (h.Settled files file) :=
  inferInstanceAs (Decidable (_ ∧ _))

/-- No program looks at a file as it was left. -/
structure Habits.Shields (file : Leftover) : Prop where
  generate : file ∈ h.generate → h.Settled generateFiles file
  launch : file ∈ h.launch → h.Settled launchFiles file
  apply : file ∈ h.apply → h.Settled applyFiles file

variable {h c s}

/-! ## Files that are not looked at -/

theorem Habits.Settled.fresh {files : List Leftover} {file : Leftover} {past : Trace}
    (settled : h.Settled files file) (new : ∀ file ∈ files, Renewed c s past file) :
    h.Fresh c s past file := ⟨new file settled.1, settled.2⟩

variable {file : Leftover}

theorem looks_generate (out err : Handle) :
    h.looks c s file (.run (generateArgv c s) (some out) (some err)) = true ↔ file ∈ h.generate := by
  simp [Habits.looks]

theorem looks_apply (pid : Pid) (out err : Handle) :
    h.looks c s file (.run (applyArgv c s pid) (some out) (some err)) = true ↔ file ∈ h.apply := by
  rw [Habits.looks, if_neg (applyArgv_ne_generateArgv pid), decide_eq_true_iff]

theorem looks_launch (argv : List String) (out err : Handle) :
    h.looks c s file (.spawn argv out err) = true ↔ file ∈ h.launch := decide_eq_true_iff

/-- Of what a trial asks, nothing looks at a file that is shielded before it is new. -/
theorem not_seesOld_of_may {start past : Trace} {r : Request} (shielded : h.Shields file)
    (may : May c s start past r) : ¬ h.SeesOld c s past r file := by
  rintro ⟨looks, old⟩
  cases may with
  | minor minor =>
    cases r with
    | read path =>
      obtain ⟨pid, rfl⟩ := minor
      exact linePath_ne_path _ pid s file (of_decide_eq_true looks)
    | _ => first | exact minor.elim | cases looks
  | report | flush | create => cases looks
  | again captured new =>
    obtain rfl := Leftover.path_injective s (of_decide_eq_true looks)
    exact old ⟨new, fun e => absurd e captured⟩
  | generate _ new => exact old ((shielded.generate ((looks_generate _ _).1 looks)).fresh new)
  | launch _ new => exact old ((shielded.launch ((looks_launch _ _ _).1 looks)).fresh new)
  | apply _ new => exact old ((shielded.apply ((looks_apply _ _ _).1 looks)).fresh new)
  | kill kill =>
    obtain ⟨-, -, pid, signal, rfl⟩ := kill
    cases looks

/-- A trial under a machine is the same for two states that differ in shielded files only. -/
theorem play_same (v : Validator) {varying : List Leftover}
    (shielded : ∀ file ∈ varying, h.Shields file) (m : Machine h c s)
    {a b : Leftover → Option Bytes} (same : ∀ file ∉ varying, a file = b file) :
    (run c s v).play (m.reply a) [] = (run c s v).play (m.reply b) [] := by
  let unseen : Permits := fun past r => ∀ file ∈ varying, ¬ h.SeesOld c s past r file
  have asked : (run c s v).Asks unseen [] fun _ _ => True :=
    (asks_run v []).weaken fun past r may file hm => not_seesOld_of_may (shielded file hm) may
  have start : Plan.Kept unseen [] := fun before e within => by
    cases List.append_ne_nil_of_right_ne_nil before (List.cons_ne_nil e []) (List.prefix_nil.1 within)
  refine (asked.kept start).play_congr fun past r ok => m.lawful a b past r fun file known => ?_
  refine same file fun hm => ?_
  rcases known with now | ⟨before, e, within, earlier⟩
  · exact ok.2 file hm now
  · exact ok.1 before e within file hm earlier

/-! ## Files that are looked at -/

theorem untroubled_congr {fails fails' : Trace → Request → Bool} {past : Trace} {r : Request}
    (e : fails past r = fails' past r) (contents : Path → Bytes) :
    untroubled fails contents past r = untroubled fails' contents past r := by
  cases r <;> simp only [untroubled, e]

variable (h c s) in
/-- Which programs fail if those do that look at one file as it was left. -/
def deterred (file : Leftover) (fail : Bool) (past : Trace) (r : Request) : Bool :=
  fail && decide (h.SeesOld c s past r file)

variable (h c s) in
/-- A machine on which nothing goes wrong but that the programs that look at one file as it was left
fail for some of the contents that it may have. -/
def swayed (file : Leftover) (fails : Option Bytes → Bool) : Machine h c s where
  reply left := untroubled (deterred h c s file (fails (left file))) fun _ => []
  lawful a b past r same := by
    refine untroubled_congr ?_ _
    rw [deterred, deterred]
    by_cases sees : h.SeesOld c s past r file
    · rw [same file (.inl sees)]
    · rw [decide_eq_false sees, Bool.and_false, Bool.and_false]

theorem deterred_of_standing {files looked : List Leftover} {shown : List String} {past : Trace}
    {r : Request} (fail : Bool) (looks : h.looks c s file r = true ↔ file ∈ looked)
    (st : Standing c s files shown past) :
    deterred h c s file fail past r =
      (fail && decide (file ∈ looked ∧ ¬ h.Settled files file)) := by
  refine congrArg (fail && ·) (decide_eq_decide.2 ?_)
  rw [Habits.SeesOld, Habits.Fresh, st.renewed, looks, Habits.Settled]

/-- On such a machine the progress tells whether the file makes a program fail. -/
theorem mem_marks_deterred_iff (v : Validator) (fail : Bool) :
    "patch|" ∈ marks
        ((run c s v).play (untroubled (deterred h c s file fail) fun _ => []) []).2 ↔
      (fail = true → h.Shields file) := by
  have making (past : Trace) (o e : Handle) (st : Standing c s generateFiles [] past) :
      deterred h c s file fail past _ = _ := deterred_of_standing fail (looks_generate o e) st
  have launching (past : Trace) (o e : Handle) (st : Standing c s launchFiles ["gen|"] past) :
      deterred h c s file fail past _ = _ :=
    deterred_of_standing fail (looks_launch (launchCommand c.harness s) o e) st
  have applying (past : Trace) (pid : Pid) (o e : Handle)
      (st : Standing c s applyFiles ["gen|"] past) : deterred h c s file fail past _ = _ :=
    deterred_of_standing fail (looks_apply pid o e) st
  refine (mem_marks_run_iff making launching applying (fun _ => []) v).trans ?_
  cases fail with
  | false => simp
  | true =>
    simp only [Bool.true_and, decide_eq_false_iff_not, not_and, Decidable.not_not, true_implies]
    exact ⟨fun ⟨g, l, a⟩ => ⟨g, l, a⟩, fun ⟨g, l, a⟩ => ⟨g, l, a⟩⟩

/-- What an earlier trial left in some files makes no difference to the verdict and to the progress
that is shown, on any machine, exactly if no program looks at one of them before it is new. -/
theorem leaksNothing_iff_shields (h : Habits) (c : Setting) (s : Scenario) (v : Validator)
    (varying : List Leftover) :
    LeaksNothing h c s v varying ↔ ∀ file ∈ varying, h.Shields file := by
  constructor
  · intro leaksNothing file hm
    -- the file is there or it is not, and where it is not, a program that looks at it fails
    let there : Leftover → Option Bytes := fun _ => some []
    let gone : Leftover → Option Bytes := fun other => if other = file then none else some []
    have same : ∀ other ∉ varying, there other = gone other := by
      intro other off
      refine (if_neg ?_).symm
      rintro rfl
      exact off hm
    obtain ⟨-, progress⟩ := leaksNothing (swayed h c s file Option.isNone) there gone same
    have passed : "patch|" ∈ marks ((run c s v).play
        ((swayed h c s file Option.isNone).reply there) []).2 :=
      (mem_marks_deterred_iff v _).2 fun e => nomatch e
    rw [progress] at passed
    refine (mem_marks_deterred_iff v _).1 passed ?_
    rw [Option.isNone_iff_eq_none]
    exact if_pos rfl
  · intro shielded m a b same
    have equal := play_same v shielded m same
    exact ⟨congrArg Prod.fst equal, congrArg (fun p => marks p.2) equal⟩

/-! ## A patch that was left -/

def plain : Setting := ⟨⟨.ofString "k", [], 0⟩, ⟨.ofString "d.log", 9⟩⟩

def small : Scenario := .of (.ofString "t") {} {}

def lenient : Validator := ⟨"validate.json", ⟨[⟨"", none⟩], [], List.pairwise_singleton _ _⟩⟩

/-- What is left if an earlier trial left a patch or nothing. -/
def onlyPatch (patch : Option Bytes) (file : Leftover) : Option Bytes :=
  if file = .patch then patch else none

/-- A patch that an earlier trial left decides whether a trial passes: it fails if the tool does not
overwrite a patch, although the tool makes it anew whenever it says so; and it passes if the tool says
that the patch is made and makes none. -/
theorem old_patch_decides :
    (∃ m : Machine ⟨[.patch], [], [.patch], true⟩ plain small,
      ((run plain small lenient).play (m.reply (onlyPatch none)) []).1.isOk = true ∧
        ((run plain small lenient).play (m.reply (onlyPatch (some []))) []).1.isOk = false) ∧
    ∃ m : Machine ⟨[], [], [.patch], false⟩ plain small,
      ((run plain small lenient).play (m.reply (onlyPatch none)) []).1.isOk = false ∧
        ((run plain small lenient).play (m.reply (onlyPatch (some []))) []).1.isOk = true := by
  constructor
  · refine ⟨swayed _ _ _ .patch Option.isSome, ?_, ?_⟩ <;> decide +kernel
  · refine ⟨swayed _ _ _ .patch Option.isNone, ?_, ?_⟩ <;> decide +kernel

end PatchTrial.Trial
