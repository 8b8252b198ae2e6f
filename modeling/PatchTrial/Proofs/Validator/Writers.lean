import PatchTrial.Proofs.DiagnosticLog
import PatchTrial.Validator.Judgment

/-!
Writers of diagnostics. A validator writes what it finds wrong to a writer of which it knows only that
it takes bytes or fails; a writer that fails may have taken a first part of them.

What is proved:
  1. `play_putAll`: pieces are put up to the first that fails.
  2. `play_writeAll`: so messages are written in full up to one that is cut (`Told`).
  3. `play_validate`: the verdict is that on what was read, and it is told in this way.
-/
namespace PatchTrial.Validator
open Trial (taken taken_append written)

/-- A writer in an environment: how bytes are put to it, and what has reached it by some moment. -/
structure Writer (env : Environment) where
  put : Bytes → Attempt IoError Unit
  reached : Trace → Bytes
  /-- Reading a file brings nothing to the writer. -/
  read : ∀ past path reply, reached (past ++ [⟨.read path, reply⟩]) = reached past
  /-- What is put reaches the writer, or a first part of it does and the writer fails. -/
  takes : ∀ past bytes, (put bytes).Always (replying env) past
    (fun _ past' => reached past' = reached past ++ bytes)
    fun _ past' => ∃ part, part <+: bytes ∧ reached past' = reached past ++ part

/-- The diagnostic log is a writer; what it refuses does not reach it. -/
def Writer.ofLog (log : DiagnosticLog) (env : Environment) : Writer env where
  put := log.put
  reached := taken log
  read past path reply := by
    rw [taken_append]
    exact List.append_nil _
  takes past bytes := by
    refine (DiagnosticLog.always_put bytes).mono (fun u past' took => ?_) fun e past' took => ?_
    · obtain ⟨more, rfl, took⟩ := took
      rw [taken_append, took]
    · obtain ⟨more, rfl, took⟩ := took
      exact ⟨[], List.nil_prefix, by rw [taken_append, took]⟩

/-- The pieces of a message: its text, unless it has none, and the end of its line. -/
def pieces (text : String) : List Bytes :=
  (if text.isEmpty then [] else [Utf8.encode text]) ++ [Utf8.encode "\n"]

theorem flatten_pieces (text : String) : (pieces text).flatten = Utf8.encode (text ++ "\n") := by
  rw [DiagnosticLog.encode_line, pieces]
  split
  · rename_i empty
    have none : text = "" := by simpa using empty
    rw [none]
    rfl
  · rfl

def putAll (put : Bytes → Attempt IoError Unit) : List Bytes → Attempt IoError Unit
  | [] => return ()
  | piece :: rest => do
    put piece
    putAll put rest

theorem writeAll_cons (put : Bytes → Attempt IoError Unit) (text : String) (rest : List String) :
    writeAll put (text :: rest) = putAll put (pieces text) >>= fun _ => writeAll put rest := by
  rw [writeAll, pieces]
  by_cases empty : text.isEmpty = true
  · rw [if_pos empty]
    simp [empty, putAll]
  · rw [if_neg empty]
    simp [empty, putAll]

namespace Writer
variable {env : Environment} (w : Writer env)

/-- Pieces are put one after another, and none of them fails. -/
inductive Puts : Trace → List Bytes → Trace → Prop
  | nil (past : Trace) : Puts past [] past
  | cons {past past' past'' : Trace} {piece : Bytes} {rest : List Bytes} :
    (w.put piece).outcome.play env past = (.ok (), past') → Puts past' rest past'' →
      Puts past (piece :: rest) past''

/-- Messages are written, each with the end of its line. Either none of their pieces fails and all of
them reach the writer; or one fails, nothing is asked after that, and what reaches the writer are the
messages before the one that is cut and a part of that one. -/
inductive Told (past : Trace) (texts : List String) (past' : Trace) : Prop
  | whole : w.Puts past (texts.flatMap pieces) past' →
    w.reached past' = w.reached past ++ written texts → Told past texts past'
  | cut {before after : List String} {text : String} {done rest : List Bytes} {piece part : Bytes}
      {mid : Trace} {e : IoError} :
    texts = before ++ text :: after → pieces text = done ++ piece :: rest →
      w.Puts past (before.flatMap pieces ++ done) mid →
      (w.put piece).outcome.play env mid = (.error e, past') →
      part <+: Utf8.encode (text ++ "\n") →
      w.reached past' = w.reached past ++ written before ++ part → Told past texts past'

variable {w} {past past' past'' : Trace}

theorem Puts.append {xs ys : List Bytes} (h : w.Puts past xs past') (h' : w.Puts past' ys past'') :
    w.Puts past (xs ++ ys) past'' := by
  induction h with
  | nil => exact h'
  | cons first _ ih => exact .cons first (ih h')

theorem reached_of_ok {piece : Bytes} (h : (w.put piece).outcome.play env past = (.ok (), past')) :
    w.reached past' = w.reached past ++ piece := by
  have took := Plan.always_replying.1 (w.takes past piece)
  rw [h] at took
  exact took

theorem reached_of_error {piece : Bytes} {e : IoError}
    (h : (w.put piece).outcome.play env past = (.error e, past')) :
    ∃ part, part <+: piece ∧ w.reached past' = w.reached past ++ part := by
  have took := Plan.always_replying.1 (w.takes past piece)
  rw [h] at took
  exact took

theorem Puts.reached {xs : List Bytes} (h : w.Puts past xs past') :
    w.reached past' = w.reached past ++ xs.flatten := by
  induction h with
  | nil => exact (List.append_nil _).symm
  | cons first _ ih => rw [ih, reached_of_ok first, List.flatten_cons, List.append_assoc]

variable (w)

/-- Pieces are put up to the first that fails, and nothing is asked after that. -/
theorem play_putAll (past : Trace) (xs : List Bytes) :
    (∃ past', (putAll w.put xs).outcome.play env past = (.ok (), past') ∧ w.Puts past xs past') ∨
      ∃ done piece rest mid e past', xs = done ++ piece :: rest ∧ w.Puts past done mid ∧
        (w.put piece).outcome.play env mid = (.error e, past') ∧
        (putAll w.put xs).outcome.play env past = (.error e, past') := by
  induction xs generalizing past with
  | nil => exact .inl ⟨past, rfl, .nil past⟩
  | cons piece xs ih =>
    rcases first : (w.put piece).outcome.play env past with ⟨r, past₁⟩
    cases r with
    | error e =>
      refine .inr ⟨[], piece, xs, past, e, past₁, rfl, .nil past, first, ?_⟩
      rw [putAll, Attempt.outcome_bind, Plan.play_bind, first]
      rfl
    | ok u =>
      have goes : (putAll w.put (piece :: xs)).outcome.play env past =
          (putAll w.put xs).outcome.play env past₁ := by
        rw [putAll, Attempt.outcome_bind, Plan.play_bind, first]
      rw [goes]
      rcases ih past₁ with
        ⟨past', ends, puts⟩ | ⟨done, failed, rest, mid, e, past', rfl, puts, fails, ends⟩
      · exact .inl ⟨past', ends, .cons first puts⟩
      · exact .inr ⟨piece :: done, failed, rest, mid, e, past', rfl, .cons first puts, fails, ends⟩

/-- Messages are written up to the first piece that fails. -/
theorem play_writeAll (past : Trace) (texts : List String) :
    w.Told past texts ((writeAll w.put texts).outcome.play env past).2 := by
  induction texts generalizing past with
  | nil => exact .whole (.nil past) (List.append_nil _).symm
  | cons text texts ih =>
    rw [writeAll_cons, Attempt.outcome_bind, Plan.play_bind]
    rcases w.play_putAll past (pieces text) with
      ⟨past₁, ends, puts⟩ | ⟨done, piece, rest, mid, e, past', split, puts, fails, ends⟩
    · rw [ends]
      have reached := puts.reached
      cases ih past₁ with
      | whole others all =>
        refine .whole (puts.append others) ?_
        rw [all, reached, flatten_pieces, DiagnosticLog.written_cons, List.append_assoc]
      | @cut before after text' done rest piece part mid e split' split others fails within some =>
        have whole : text :: texts = (text :: before) ++ text' :: after :=
          congrArg (text :: ·) split'
        refine .cut whole split ?_ fails within ?_
        · rw [List.flatMap_cons, List.append_assoc]
          exact puts.append others
        · rw [some, reached, flatten_pieces, DiagnosticLog.written_cons]
          simp only [List.append_assoc]
    -- a piece of this text was refused, so no later text is written
    · rw [ends]
      obtain ⟨part, within, some⟩ := reached_of_error fails
      have whole : text :: texts = [] ++ text :: texts := rfl
      have first : done.flatten ++ part <+: Utf8.encode (text ++ "\n") := by
        rw [← flatten_pieces, split, List.flatten_append, List.flatten_cons]
        exact (List.prefix_append_right_inj _).2 (within.trans (List.prefix_append _ _))
      refine .cut whole split puts fails first ?_
      show w.reached past' = _
      rw [some, puts.reached]
      simp [written]

/-- What is told begins what there is to tell. -/
theorem Told.exists_prefix {w : Writer env} {texts : List String} (h : w.Told past texts past') :
    ∃ told, told <+: written texts ∧ w.reached past' = w.reached past ++ told := by
  cases h with
  | whole _ all => exact ⟨written texts, List.prefix_rfl, all⟩
  | @cut before after text done rest piece part mid e split _ _ _ within some =>
    refine ⟨written before ++ part, ?_, by rw [some, List.append_assoc]⟩
    have whole : written texts = written before ++ (Utf8.encode (text ++ "\n") ++ written after) := by
      rw [split, written, List.flatMap_append, List.flatMap_cons]
      rfl
    rw [whole]
    exact (List.prefix_append_right_inj _).2 (within.trans (List.prefix_append _ _))

theorem Told.eq_of_nil {w : Writer env} (h : w.Told past [] past') : past' = past := by
  cases h with
  | whole puts _ =>
    cases puts
    rfl
  | cut split => exact absurd split.symm (List.append_ne_nil_of_right_ne_nil _ (List.cons_ne_nil _ _))

/-- A validator comes to the verdict on what it reads, and tells it. -/
theorem play_validate (v : Validator) (log : Path) (past : Trace) :
    ((v.validate log w.put).play env past).1 = v.judge log (env past (.read log)) ∧
      w.Told (past ++ [⟨.read log, env past (.read log)⟩])
        (v.judge log (env past (.read log))).diagnostics ((v.validate log w.put).play env past).2 := by
  have told := w.play_writeAll (past ++ [⟨.read log, env past (.read log)⟩])
    (v.judge log (env past (.read log))).diagnostics
  rw [validate, Plan.play_bind]
  show (Plan.play env _ (_ >>= _)).1 = _ ∧ w.Told _ _ (Plan.play env _ (_ >>= _)).2
  rw [Plan.play_bind]
  exact ⟨rfl, told⟩

end Writer
end PatchTrial.Validator
