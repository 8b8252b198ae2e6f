import Mathlib.Data.List.Basic
import Mathlib.Data.List.Induction
import PatchTrial.Proofs.Trial.Untroubled

/-!
Where the lines of a log begin. An operation on an open log enters lines, up to the first that is
refused; one kind enters a heading and then copies all of a file, whatever that ends in. A log goes on
after an operation that fails.

What is proved:
  1. `always_perform`: an operation enters its first lines, or its lines and what was read of a file.
  2. `atLineStart_or_open`: after any operations the log stands at the start of a line, or it ends in
     a copy whose last line is not ended.
  3. `headed_iff`: so every mark and every heading begins a line exactly if none comes right after
     such a copy.
-/
namespace PatchTrial.DiagnosticLog
open Trial (taken taken_append written)

/-! ## Operations -/

/-- What is done with an open log. -/
inductive Operation
  | banner (title : String)
  | heading (text : String)
  | line (text : String)
  | command (argv : List String)
  | copy (text : String) (path : Path)
  deriving DecidableEq, Repr

namespace Operation

/-- The lines of an operation; what it copies is none of them. -/
def lines : Operation → List String
  | banner title => bannerLines title
  | heading text => [sectionLine text]
  | line text => [text]
  | command argv => commandLines argv
  | copy text path => [sectionLine (text ++ ": " ++ path.shown)]

/-- Whether an operation marks a place in the log by its first line. -/
def marks : Operation → Bool
  | banner _ | heading _ | copy _ _ => true
  | line _ | command _ => false

end Operation

def perform (log : DiagnosticLog) : Operation → Attempt IoError Unit
  | .banner title => log.banner title
  | .heading text => log.section_ text
  | .line text => log.line text
  | .command argv => log.command argv
  | .copy text path => log.appendFile text path

/-- Performs operations; the log goes on after one that fails. -/
def performAll (log : DiagnosticLog) : List Operation → Plan Unit
  | [] => .done ()
  | op :: rest => (log.perform op).outcome >>= fun _ => performAll log rest

/-! ## What the log holds -/

/-- Bytes after which a line begins: none, or bytes that end in a line feed. -/
def AtLineStart (bytes : Bytes) : Prop := bytes = [] ∨ bytes.getLast? = some 10

instance (bytes : Bytes) : Decidable (AtLineStart bytes) := inferInstanceAs (Decidable (_ ∨ _))

def traceOf (log : DiagnosticLog) (env : Environment) (ops : List Operation) : Trace :=
  ((log.performAll ops).play env []).2

/-- What the log holds after operations, if it held something before. -/
def content (log : DiagnosticLog) (env : Environment) (held : Bytes) (ops : List Operation) : Bytes :=
  held ++ taken log (traceOf log env ops)

/-- After some operations, others leave the log as it is. -/
def Silent (log : DiagnosticLog) (env : Environment) (before ops : List Operation) : Prop :=
  taken log (traceOf log env (before ++ ops)) = taken log (traceOf log env before)

instance (log : DiagnosticLog) (env : Environment) (before ops : List Operation) :
    Decidable (Silent log env before ops) := inferInstanceAs (Decidable (_ = _))

/-- After some operations, a further one copies some bytes: they are read from its file, and they
enter the log below its heading. -/
def Copies (log : DiagnosticLog) (env : Environment) (before : List Operation) (op : Operation)
    (bytes : Bytes) : Prop :=
  ∃ text path more, op = .copy text path ∧
    traceOf log env (before ++ [op]) = traceOf log env before ++ more ∧
    ⟨.read path, .ok bytes⟩ ∈ more ∧ taken log more = written op.lines ++ bytes

/-- After some operations the log ends in a copy whose last line is not ended. -/
def LeftOpen (log : DiagnosticLog) (env : Environment) (ops : List Operation) : Prop :=
  ∃ before op quiet bytes, ops = before ++ op :: quiet ∧ Copies log env before op bytes ∧
    Silent log env (before ++ [op]) quiet ∧ ¬ AtLineStart bytes

/-- Of whatever marks a place in the log, the first line begins at the start of a line there, unless
all of it is refused. -/
def Headed (log : DiagnosticLog) (env : Environment) (held : Bytes) (ops : List Operation) : Prop :=
  ∀ before op after, ops = before ++ op :: after → op.marks = true → ¬ Silent log env before [op] →
    AtLineStart (content log env held before) ∧
      ∃ first more, op.lines.head? = some first ∧
        content log env held ops = content log env held before ++ Utf8.encode (first ++ "\n") ++ more

/-! ## Starts of lines -/

theorem atLineStart_of_append {xs bytes : Bytes} (h : AtLineStart (xs ++ bytes)) :
    AtLineStart bytes := by
  by_cases empty : bytes = []
  · exact .inl empty
  · rcases h with none | last
    · exact absurd (List.append_eq_nil_iff.1 none).2 empty
    · rw [List.getLast?_append_of_ne_nil xs empty] at last
      exact .inr last

/-- What stands before bytes does not matter to what they end in. -/
theorem AtLineStart.after {bytes : Bytes} (h : AtLineStart bytes) (ne : bytes ≠ []) (xs : Bytes) :
    AtLineStart (xs ++ bytes) := by
  right
  rw [List.getLast?_append_of_ne_nil xs ne]
  exact h.resolve_left ne

theorem AtLineStart.append {xs bytes : Bytes} (h : AtLineStart xs) (h' : AtLineStart bytes) :
    AtLineStart (xs ++ bytes) := by
  by_cases empty : bytes = []
  · rw [empty, List.append_nil]
    exact h
  · exact h'.after empty xs

theorem written_cons (text : String) (rest : List String) :
    written (text :: rest) = Utf8.encode (text ++ "\n") ++ written rest := rfl

theorem encode_line (text : String) : Utf8.encode (text ++ "\n") = Utf8.encode text ++ [10] := by
  rw [Utf8.encode, String.toList_append, List.flatMap_append]
  rfl

/-- Lines end in a line feed. -/
theorem atLineStart_written (texts : List String) : AtLineStart (written texts) := by
  induction texts with
  | nil => exact .inl rfl
  | cons text rest ih =>
    have first : AtLineStart (Utf8.encode (text ++ "\n")) := by
      right
      rw [encode_line, List.getLast?_concat]
    rw [written_cons]
    exact first.append ih

/-! ## One operation -/

section Step
variable (log : DiagnosticLog) (env : Environment)

/-- A trace goes on with exchanges in which the log takes some bytes. -/
def Took (past : Trace) (bytes : Bytes) (past' : Trace) : Prop :=
  ∃ more, past' = past ++ more ∧ taken log more = bytes

variable {log env} {past : Trace}

theorem Took.refl : Took log past [] past := ⟨[], (List.append_nil past).symm, rfl⟩

theorem Took.trans {past' past'' : Trace} {xs ys : Bytes} (h : Took log past xs past')
    (h' : Took log past' ys past'') : Took log past (xs ++ ys) past'' := by
  obtain ⟨more, rfl, first⟩ := h
  obtain ⟨more', rfl, rest⟩ := h'
  exact ⟨more ++ more', List.append_assoc past more more', by rw [taken_append, first, rest]⟩

/-- What takes nothing makes no difference. -/
theorem Took.quiet {past' past'' : Trace} {xs : Bytes} (h : Took log past xs past')
    (h' : Took log past' [] past'') : Took log past xs past'' := by
  have both := h.trans h'
  rwa [List.append_nil] at both

/-- What is written is taken, or nothing is. -/
theorem always_put (bytes : Bytes) :
    (log.put bytes).Always (replying env) past (fun _ past' => Took log past bytes past')
      fun _ past' => Took log past [] past' := by
  rw [put]
  split
  · rename_i empty
    rw [List.isEmpty_iff.1 empty]
    exact Attempt.always_pure.2 .refl
  · refine Attempt.always_of.2 (Plan.always_request.2 fun reply past' replied => ?_)
    obtain ⟨-, rfl⟩ := replied
    cases reply with
    | ok u =>
      refine ⟨_, rfl, ?_⟩
      rw [taken, List.flatMap_singleton, Trial.took, if_pos rfl]
    | error e => exact ⟨_, rfl, rfl⟩

/-- Of lines that are written, all are taken or the first ones are. -/
theorem always_lines (texts : List String) :
    (log.lines texts).Always (replying env) past
      (fun _ past' => Took log past (written texts) past')
      fun _ past' => ∃ front, front <+: texts ∧ Took log past (written front) past' := by
  induction texts generalizing past with
  | nil => exact Attempt.always_pure.2 .refl
  | cons text rest ih =>
    refine Attempt.always_bind.2 ((always_put (Utf8.encode (text ++ "\n"))).mono ?_ ?_)
    · intro u past₁ first
      refine ih.mono (fun u past₂ others => first.trans others) fun e past₂ others => ?_
      obtain ⟨front, within, some⟩ := others
      exact ⟨text :: front, List.cons_prefix_cons.2 ⟨rfl, within⟩, first.trans some⟩
    · intro e past₁ none
      exact ⟨[], List.nil_prefix, none⟩

/-- What an operation enters: its first lines, or all of them and then what is read of a file. -/
inductive Entry (log : DiagnosticLog) (op : Operation) (past past' : Trace) : Prop
  | lines {texts : List String} : texts <+: op.lines → Took log past (written texts) past' →
    Entry log op past past'
  | copied {text : String} {path : Path} {more : Trace} {bytes : Bytes} :
    op = .copy text path → past' = past ++ more → ⟨.read path, .ok bytes⟩ ∈ more →
    taken log more = written op.lines ++ bytes → Entry log op past past'

theorem always_entry (op : Operation) {x : Attempt IoError Unit} (h : x = log.lines op.lines) :
    x.Always (replying env) past (fun _ past' => Entry log op past past')
      fun _ past' => Entry log op past past' := by
  subst h
  refine (always_lines op.lines).mono (fun u past' took => ?_) fun e past' took => ?_
  · exact .lines List.prefix_rfl took
  · obtain ⟨front, within, took⟩ := took
    exact .lines within took

theorem line_eq (text : String) : log.line text = log.lines [text] := by
  rw [lines, lines]
  exact (bind_pure_unit (m := ExceptT IoError Plan)).symm

/-- Below its heading all of a file is copied, unless it cannot be read or the log refuses it. -/
theorem always_copy {text : String} {path : Path} {past₁ : Trace}
    (headed : Took log past (written (Operation.copy text path).lines) past₁) :
    (do log.put (← Attempt.of id (Plan.request (.read path))) : Attempt IoError Unit).Always
      (replying env) past₁ (fun _ past' => Entry log (.copy text path) past past')
      fun _ past' => Entry log (.copy text path) past past' := by
  refine Attempt.always_bind.2 (Attempt.always_of.2 (Plan.always_request.2 ?_))
  intro reply past₂ replied
  obtain ⟨-, rfl⟩ := replied
  have read (reply : Except IoError Bytes) : Took log past₁ [] (past₁ ++ [⟨.read path, reply⟩]) :=
    ⟨_, rfl, rfl⟩
  cases reply with
  | error e => exact .lines List.prefix_rfl (headed.quiet (read _))
  | ok bytes =>
    refine (always_put bytes).mono (fun u past₃ copied => ?_) fun e past₃ none => ?_
    · obtain ⟨begun, rfl, lines⟩ := headed
      obtain ⟨more, rfl, copied⟩ := copied
      let exchange : Exchange := ⟨.read path, .ok bytes⟩
      have all : past ++ begun ++ [exchange] ++ more = past ++ (begun ++ ([exchange] ++ more)) := by
        simp only [List.append_assoc]
      have within : exchange ∈ begun ++ ([exchange] ++ more) :=
        List.mem_append_right begun List.mem_cons_self
      refine .copied rfl all within ?_
      rw [taken_append, taken_append, lines, copied]
      rfl
    · exact .lines List.prefix_rfl ((headed.quiet (read _)).quiet none)

theorem always_perform (op : Operation) :
    (log.perform op).Always (replying env) past (fun _ past' => Entry log op past past')
      fun _ past' => Entry log op past past' := by
  cases op with
  | banner title => exact always_entry (.banner title) rfl
  | heading text => exact always_entry (.heading text) (line_eq _)
  | line text => exact always_entry (.line text) (line_eq text)
  | command argv => exact always_entry (.command argv) rfl
  | copy text path =>
    have heading := @always_lines log env past (Operation.copy text path).lines
    rw [Operation.lines, ← line_eq] at heading
    refine Attempt.always_bind.2 (heading.mono (fun u past₁ => always_copy) fun e past₁ some => ?_)
    obtain ⟨front, within, took⟩ := some
    exact .lines within took

end Step

/-! ## Many operations -/

section Run
variable (log : DiagnosticLog) (env : Environment)

theorem performAll_append (xs ys : List Operation) :
    log.performAll (xs ++ ys) = log.performAll xs >>= fun _ => log.performAll ys := by
  induction xs with
  | nil => rfl
  | cons op rest ih =>
    rw [List.cons_append, performAll, performAll, ih]
    exact (Plan.bind_assoc _ _ _).symm

theorem traceOf_append (before ops : List Operation) :
    traceOf log env (before ++ ops) = ((log.performAll ops).play env (traceOf log env before)).2 := by
  rw [traceOf, performAll_append, Plan.play_bind]
  rfl

theorem traceOf_concat (before : List Operation) (op : Operation) :
    traceOf log env (before ++ [op]) =
      ((log.perform op).outcome.play env (traceOf log env before)).2 := by
  rw [traceOf_append, performAll, Plan.play_bind]
  rfl

/-- What the log holds stays, whatever is done with it. -/
theorem content_append (held : Bytes) (before ops : List Operation) :
    ∃ more, content log env held (before ++ ops) = content log env held before ++ more := by
  obtain ⟨more, same⟩ := (log.performAll ops).prefix_play env (traceOf log env before)
  refine ⟨taken log more, ?_⟩
  rw [content, content, traceOf_append, ← same, taken_append, List.append_assoc]

theorem content_of_silent {before ops : List Operation} (h : Silent log env before ops)
    (held : Bytes) : content log env held (before ++ ops) = content log env held before :=
  congrArg (held ++ ·) h

/-- What an operation adds to a log: its first lines, or its lines and a copy. -/
theorem exists_added (before : List Operation) (op : Operation) :
    ∃ added, (∀ held, content log env held (before ++ [op]) = content log env held before ++ added) ∧
      ((∃ texts, texts <+: op.lines ∧ added = written texts) ∨
        ∃ bytes, Copies log env before op bytes ∧ added = written op.lines ++ bytes) := by
  have entry : Entry log op (traceOf log env before) (traceOf log env (before ++ [op])) := by
    have played := Plan.always_replying.1 (@always_perform log env (traceOf log env before) op)
    rw [traceOf_concat]
    revert played
    cases ((log.perform op).outcome.play env (traceOf log env before)).1 <;> exact id
  cases entry with
  | @lines texts within took =>
    obtain ⟨more, same, took⟩ := took
    refine ⟨written texts, fun held => ?_, .inl ⟨texts, within, rfl⟩⟩
    rw [content, content, same, taken_append, took, List.append_assoc]
  | @copied text path more bytes copy same read took =>
    refine ⟨written op.lines ++ bytes, fun held => ?_, .inr ⟨bytes, ?_, rfl⟩⟩
    · rw [content, content, same, taken_append, took, List.append_assoc]
    · exact ⟨text, path, more, copy, same, read, took⟩

theorem silent_of_content {before : List Operation} {op : Operation} {held : Bytes}
    (same : content log env held (before ++ [op]) = content log env held before) :
    Silent log env before [op] := List.append_cancel_left same

theorem content_of_copies {before : List Operation} {op : Operation} {bytes : Bytes}
    (h : Copies log env before op bytes) (held : Bytes) :
    content log env held (before ++ [op]) =
      content log env held before ++ written op.lines ++ bytes := by
  obtain ⟨text, path, more, -, same, -, took⟩ := h
  rw [content, content, same, taken_append, took]
  simp only [List.append_assoc]

/-- After a copy whose last line is not ended no line begins. -/
theorem LeftOpen.not_atLineStart {ops : List Operation} (h : LeftOpen log env ops) (held : Bytes) :
    ¬ AtLineStart (content log env held ops) := by
  obtain ⟨before, op, quiet, bytes, rfl, copies, silent, unended⟩ := h
  have last : content log env held (before ++ op :: quiet) =
      content log env held before ++ written op.lines ++ bytes := by
    rw [List.append_cons, content_of_silent log env silent, content_of_copies log env copies]
  rw [last]
  exact fun start => unended (atLineStart_of_append start)

theorem Copies.leftOpen {before : List Operation} {op : Operation} {bytes : Bytes}
    (h : Copies log env before op bytes) (unended : ¬ AtLineStart bytes) :
    LeftOpen log env (before ++ [op]) := by
  refine ⟨before, op, [], bytes, rfl, h, ?_, unended⟩
  rw [Silent, List.append_nil]

theorem LeftOpen.concat {before : List Operation} {op : Operation} (h : LeftOpen log env before)
    (silent : Silent log env before [op]) : LeftOpen log env (before ++ [op]) := by
  obtain ⟨before', op', quiet, bytes, rfl, copies, silent', unended⟩ := h
  refine ⟨before', op', quiet ++ [op], bytes, ?_, copies, ?_, unended⟩
  · rw [List.append_assoc]
    rfl
  · rw [List.append_cons] at silent
    rw [Silent, ← List.append_assoc]
    exact silent.trans silent'

/-- Operations leave a log that stands at the start of a line there, or they end in a copy. -/
theorem atLineStart_or_open {held : Bytes} (h : AtLineStart held) (ops : List Operation) :
    AtLineStart (content log env held ops) ∨ LeftOpen log env ops := by
  -- the last operation that enters anything decides, so the induction is from the end
  induction ops using List.reverseRecOn with
  | nil =>
    left
    have nothing : content log env held [] = held := List.append_nil held
    rw [nothing]
    exact h
  | append_singleton before op ih =>
    obtain ⟨added, adds, kinds⟩ := exists_added log env before op
    by_cases empty : added = []
    · have same : content log env held (before ++ [op]) = content log env held before := by
        rw [adds, empty, List.append_nil]
      rw [same]
      exact ih.imp_right fun opened => opened.concat log env (silent_of_content log env same)
    · rcases kinds with ⟨texts, -, rfl⟩ | ⟨bytes, copies, rfl⟩
      · left
        rw [adds]
        exact (atLineStart_written texts).after empty _
      · by_cases ended : AtLineStart bytes
        · left
          rw [adds]
          exact ((atLineStart_written op.lines).append ended).after empty _
        · exact .inr (copies.leftOpen log env ended)

/-- What an operation enters begins with its first line. -/
theorem exists_first {before : List Operation} {op : Operation} (h : ¬ Silent log env before [op])
    (held : Bytes) : ∃ first more, op.lines.head? = some first ∧
      content log env held (before ++ [op]) =
        content log env held before ++ Utf8.encode (first ++ "\n") ++ more := by
  obtain ⟨added, adds, kinds⟩ := exists_added log env before op
  rcases kinds with ⟨texts, within, rfl⟩ | ⟨bytes, ⟨text, path, -, rfl, -⟩, rfl⟩
  · cases texts with
    | nil =>
      have same := adds held
      rw [written, List.flatMap_nil, List.append_nil] at same
      exact absurd (silent_of_content log env same) h
    | cons first rest =>
      obtain ⟨others, lines⟩ := within
      refine ⟨first, written rest, ?_, ?_⟩
      · rw [← lines]
        rfl
      · rw [adds, written_cons, List.append_assoc]
  · refine ⟨_, bytes, rfl, ?_⟩
    rw [adds, Operation.lines, written_cons, written, List.flatMap_nil, List.append_nil,
      List.append_assoc]

/-- A log that stands at the start of a line has every mark and every heading at the start of a line,
exactly if none of them comes right after a copy whose last line is not ended. -/
theorem headed_iff {held : Bytes} (h : AtLineStart held) (ops : List Operation) :
    Headed log env held ops ↔
      ∀ before op after, ops = before ++ op :: after → op.marks = true →
        ¬ Silent log env before [op] → ¬ LeftOpen log env before := by
  constructor
  · intro headed before op after split marks enters opened
    exact opened.not_atLineStart log env held (headed before op after split marks enters).1
  · intro closed before op after split marks enters
    have start := (atLineStart_or_open log env h before).resolve_right
      (closed before op after split marks enters)
    obtain ⟨first, more, lines, entered⟩ := exists_first log env enters held
    obtain ⟨later, kept⟩ := content_append log env held (before ++ [op]) after
    refine ⟨start, first, more ++ later, lines, ?_⟩
    rw [split, List.append_cons, kept, entered, List.append_assoc]

end Run

/-! ## A capture that ends within a line -/

/-- A log on its own. -/
def alone : DiagnosticLog := ⟨.ofString "log", 1⟩

def holding (text : String) : Environment :=
  Trial.untroubled (fun _ _ => false) fun _ => Utf8.encode text

def copyThenHeading : List Operation := [.copy "out" (.ofString "c"), .heading "x"]

/-- What is read on such a machine is that text. -/
theorem bytes_of_copies {log : DiagnosticLog} {text : String} {before : List Operation}
    {op : Operation} {bytes : Bytes} (h : Copies log (holding text) before op bytes) :
    bytes = Utf8.encode text := by
  obtain ⟨heading, path, more, -, same, read, -⟩ := h
  rw [traceOf_concat] at same
  obtain ⟨more', same', -, replied⟩ := (log.perform op).outcome.exists_makes (holding text)
    (traceOf log (holding text) before)
  obtain rfl := List.append_cancel_left (same.symm.trans same')
  obtain ⟨past, reply⟩ := replied _ read
  exact Except.ok.inj reply

/-- A file whose last line is ended leaves the next heading at the start of a line. -/
theorem ended_copy_headed : AtLineStart (Utf8.encode "old\n") ∧
    Headed alone (holding "abc\n") (Utf8.encode "old\n") copyThenHeading := by
  have start : AtLineStart (Utf8.encode "old\n") := .inr (by decide)
  refine ⟨start, (headed_iff alone (holding "abc\n") start copyThenHeading).2 ?_⟩
  intro before op after split marks enters opened
  obtain ⟨before', op', quiet, bytes, -, copies, -, unended⟩ := opened
  rw [bytes_of_copies copies] at unended
  exact unended (by decide)

/-- One whose last line is not ended hides it. -/
theorem unended_copy_hides_heading :
    content alone (holding "abc") [] copyThenHeading =
        Utf8.encode "---- out: c ----\nabc---- x ----\n" ∧
      ¬ Headed alone (holding "abc") [] copyThenHeading := by
  constructor
  · decide +kernel
  · intro headed
    have entered : ¬ Silent alone (holding "abc") [.copy "out" (.ofString "c")] [.heading "x"] := by
      decide +kernel
    have start := (headed [.copy "out" (.ofString "c")] (.heading "x") [] rfl rfl entered).1
    revert start
    decide +kernel

end PatchTrial.DiagnosticLog
