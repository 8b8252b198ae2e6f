import PatchTrial.Proofs.Regex.Sentences
import PatchTrial.Proofs.Validator.Order

/-!
Tables in which no start is the start of another one. A line has one such start at most, so which
shape judges it is no question of lengths, and the shapes can be looked at one by one. Most shapes of
the presets are phrases: they take the lines of one text, or all lines of one start.

What is proved:
  1. `Table.reads_iff`: a line is readable if it reads as one of the shapes wants, and its readings are
     those of that shape.
  2. `Phrase.reads_iff`: the lines of a phrase, and the keys that appear with it.
  3. `Table.passed_iff_taken` and `Preset.passed_iff_taken`: a log of phrases passes if the keys that are
     to be seen appear in it, wherever that is.
-/
namespace PatchTrial.Validator

def StartsWith (start line : String) : Prop := start.toList <+: line.toList

instance (start line : String) : Decidable (StartsWith start line) :=
  inferInstanceAs (Decidable (start.toList <+: line.toList))

/-- A line has the start of a shape and matches its pattern with all groups that the checks name, and
this is what the checks read in it. -/
inductive Shape.Reads (line : String) : Shape → List Reading → Prop
  | plain {start : String} (begins : StartsWith start line) : Reads line ⟨start, none⟩ []
  | judged {start : String} {j : Judged} {captures : Regex.Captures} (begins : StartsWith start line)
    (found : j.pattern.captures? line = some captures)
    (whole : ∀ c ∈ j.checks, ∀ g ∈ c.groups, (captures.get? g).isSome) :
    Reads line ⟨start, some j⟩ (j.checks.filterMap fun c => c.reading? captures)

def starts (shapes : List Shape) : List (List Char) := shapes.map fun s => s.start.toList

/-- The one shape whose start a line has judges it. -/
theorem dispatch_of_covers {shapes : List Shape} (nodup : (shapes.map Shape.start).Nodup)
    (apart : Regex.PrefixFree (starts shapes)) {shape : Shape} {line : String} (hs : shape ∈ shapes)
    (covers : StartsWith shape.start line) : Shape.dispatch line shapes = some shape := by
  refine (dispatch_eq_some_iff nodup).2 ⟨hs, Shape.covers_iff.2 covers, fun other ho hc hne => ?_⟩
  have same : other.start.toList = shape.start.toList :=
    apart.eq (List.mem_map.2 ⟨other, ho, rfl⟩) (List.mem_map.2 ⟨shape, hs, rfl⟩)
      (Shape.covers_iff.1 hc) covers
  exact absurd (List.inj_on_of_nodup_map nodup ho hs (String.toList_inj.1 same)) hne

theorem Table.reads_iff {t : Table} (apart : Regex.PrefixFree (starts t.shapes)) {line : String}
    {rs : List Reading} :
    t.Readable line ∧ t.lineReadings line = rs ↔ ∃ shape ∈ t.shapes, shape.Reads line rs := by
  constructor
  · intro h
    obtain ⟨readable, rfl⟩ := h
    simp only [Readable, lineReadings] at readable ⊢
    cases hd : Shape.dispatch line t.shapes with
    | none => simp only [hd] at readable
    | some shape =>
      have longest := (dispatch_eq_some_iff t.nodup).1 hd
      have begins := Shape.covers_iff.1 longest.covers
      refine ⟨shape, longest.mem, ?_⟩
      obtain ⟨start, judged⟩ := shape
      simp only [hd] at readable ⊢
      cases judged with
      | none => exact .plain begins
      | some j =>
        dsimp only at readable ⊢
        cases hc : j.pattern.captures? line with
        | none => simp only [hc] at readable
        | some captures =>
          simp only [hc] at readable
          exact .judged begins hc readable
  · intro h
    obtain ⟨shape, hs, reads⟩ := h
    cases reads with
    | plain begins =>
      -- no start is the start of another one, so the shape that begins the line judges it
      have hd := dispatch_of_covers t.nodup apart hs begins
      simp only [Readable, lineReadings, hd, and_self]
    | judged begins found whole =>
      have hd := dispatch_of_covers t.nodup apart hs begins
      simp only [Readable, lineReadings, hd, found, and_true]
      exact whole

/-- What a shape of one check reads. -/
theorem Shape.reads_single_iff {start : String} {j : Judged} {check : Check}
    (h : j.checks = [check]) {line : String} {rs : List Reading} :
    Reads line ⟨start, some j⟩ rs ↔
      StartsWith start line ∧ ∃ captures r, j.pattern.captures? line = some captures ∧
        check.reading? captures = some r ∧ rs = [r] := by
  have single {captures : Regex.Captures} {r : Reading} (hr : check.reading? captures = some r) :
      (j.checks.filterMap fun c => c.reading? captures) = [r] := by
    simp only [h, List.filterMap_cons, hr, List.filterMap_nil]
  constructor
  · intro reads
    cases reads with
    | @judged _ _ captures begins found whole =>
      have mem : check ∈ j.checks := by rw [h]; exact List.mem_singleton_self check
      obtain ⟨r, hr⟩ := Option.isSome_iff_exists.1
        ((check.reading?_isSome captures).2 (whole check mem))
      exact ⟨begins, captures, r, found, hr, single hr⟩
  · intro reads
    obtain ⟨begins, captures, r, found, hr, rfl⟩ := reads
    rw [← single hr]
    refine .judged begins found fun c hc => ?_
    rw [h, List.mem_singleton] at hc
    rw [hc, ← Check.reading?_isSome, hr]
    rfl

/-! ## Phrases -/

/-- Lines that are known by their texts. -/
inductive Phrase
  /-- The lines of a start, whatever comes after it. -/
  | opening (start : String)
  /-- The lines of one text, with which some keys appear. -/
  | sentence (start pattern text : String) (keys : List String)
    (read : Regex.Node.ofText? pattern = some (.line (Regex.letters text.toList)))
    (begins : StartsWith start text)

namespace Phrase

def spec : Phrase → ShapeSpec
  | opening start => Preset.skip start
  | sentence start pattern _ keys _ _ => Preset.checked start pattern (keys.map Preset.appears)

def shape : Phrase → Shape
  | opening start => ⟨start, none⟩
  | sentence start pattern _ keys read _ =>
    { start
      judged? := some
        { pattern := ⟨pattern, _, read⟩
          checks := keys.map Preset.appears
          within := by
            intro c hc g hg
            obtain ⟨key, -, rfl⟩ := List.mem_map.1 hc
            cases hg } }

/-- A phrase takes the lines that are of it. -/
def Takes (line : String) : Phrase → Prop
  | opening start => StartsWith start line
  | sentence _ _ text _ _ _ => line = text

/-- The keys that appear with the lines of a phrase. -/
def keys : Phrase → List String
  | opening _ => []
  | sentence _ _ _ keys _ _ => keys

section Parts
variable {start pattern text : String} {names : List String}
  {read : Regex.Node.ofText? pattern = some (.line (Regex.letters text.toList))}
  {begins : StartsWith start text} {line : String}

@[simp] theorem takes_opening : (opening start).Takes line ↔ StartsWith start line := .rfl

@[simp] theorem takes_sentence :
    (sentence start pattern text names read begins).Takes line ↔ line = text := .rfl

@[simp] theorem keys_opening : (opening start).keys = [] := rfl

@[simp] theorem keys_sentence : (sentence start pattern text names read begins).keys = names := rfl

end Parts

theorem yields (p : Phrase) : p.spec.Yields p.shape := by
  cases p with
  | opening => exact .plain rfl rfl
  | sentence => exact .judged _ rfl rfl

theorem yields_map (phrases : List Phrase) :
    List.Forall₂ ShapeSpec.Yields (phrases.map spec) (phrases.map shape) := by
  rw [List.forall₂_map_left_iff, List.forall₂_map_right_iff, List.forall₂_same]
  exact fun p _ => p.yields

/-- No value is read in a line of a phrase: its keys appear. -/
theorem reads_iff {p : Phrase} {line : String} {rs : List Reading} :
    p.shape.Reads line rs ↔ p.Takes line ∧ rs = p.keys.map fun key => ⟨key, none⟩ := by
  cases p with
  | opening start =>
    constructor
    · intro h
      cases h with
      | plain begins => exact ⟨begins, rfl⟩
    · intro h
      obtain ⟨begins, rfl⟩ := h
      exact .plain begins
  | sentence start pattern text keys read begins =>
    have readings (captures : Regex.Captures) :
        (keys.map Preset.appears).filterMap (fun c => c.reading? captures) =
          keys.map fun key => ⟨key, none⟩ := by
      rw [List.filterMap_map, ← List.filterMap_eq_map]
      rfl
    constructor
    · intro h
      cases h with
      | judged _ found _ =>
        obtain ⟨same, -⟩ := (Regex.captures?_sentence_iff rfl).1 found
        exact ⟨String.toList_inj.1 same, readings _⟩
    · intro h
      obtain ⟨taken, rfl⟩ := h
      have same : line = text := taken
      rw [Phrase.keys, ← readings ⟨[]⟩]
      refine .judged (same ▸ begins) ((Regex.captures?_sentence_iff rfl).2
        ⟨congrArg String.toList same, rfl⟩) fun c hc g hg => ?_
      obtain ⟨key, -, rfl⟩ := List.mem_map.1 hc
      cases hg

end Phrase

/-! ## Tables of phrases -/

theorem valuesOf_eq_nil {rs : List Reading} (h : ∀ r ∈ rs, r.value? = none) (key : String) :
    valuesOf key rs = [] := by
  refine List.filterMap_eq_nil_iff.2 fun r hr => ?_
  rw [h r hr, ite_self]

/-- Readings that have no values are consistent. -/
theorem consistent_of_no_values {rs : List Reading} (h : ∀ r ∈ rs, r.value? = none) :
    Consistent rs := by
  intro key
  rw [valuesOf_eq_nil h]
  rfl

section Phrases
variable {t : Table} {phrases : List Phrase} (shapes : t.shapes = phrases.map Phrase.shape)
  (apart : Regex.PrefixFree (starts t.shapes))
include shapes apart

theorem Table.reads_phrase_iff {line : String} {rs : List Reading} :
    t.Readable line ∧ t.lineReadings line = rs ↔
      ∃ p ∈ phrases, p.Takes line ∧ rs = p.keys.map fun key => ⟨key, none⟩ := by
  rw [t.reads_iff apart, shapes]
  simp only [List.mem_map, exists_exists_and_eq_and, Phrase.reads_iff]

theorem Table.readable_phrase_iff {line : String} :
    t.Readable line ↔ ∃ p ∈ phrases, p.Takes line := by
  constructor
  · intro h
    obtain ⟨p, hp, taken, -⟩ := (t.reads_phrase_iff shapes apart).1 ⟨h, rfl⟩
    exact ⟨p, hp, taken⟩
  · intro h
    obtain ⟨p, hp, taken⟩ := h
    exact ((t.reads_phrase_iff shapes apart).2 ⟨p, hp, taken, rfl⟩).1

/-- What is read in a log of phrases: the keys of those that take its lines. -/
theorem Table.mem_phrase_readings_iff {lines : List String}
    (readable : ∀ line ∈ lines, t.Readable line) {r : Reading} :
    r ∈ t.readings lines ↔
      ∃ line ∈ lines, ∃ p ∈ phrases, p.Takes line ∧ ∃ key ∈ p.keys, r = ⟨key, none⟩ := by
  rw [readings, List.mem_flatMap]
  refine exists_congr fun line => and_congr_right fun hl => ?_
  constructor
  · intro h
    obtain ⟨p, hp, taken, rs⟩ := (t.reads_phrase_iff shapes apart).1 ⟨readable line hl, rfl⟩
    rw [rs] at h
    obtain ⟨key, hk, rfl⟩ := List.mem_map.1 h
    exact ⟨p, hp, taken, key, hk, rfl⟩
  · intro h
    obtain ⟨p, hp, taken, key, hk, rfl⟩ := h
    rw [((t.reads_phrase_iff shapes apart).2 ⟨p, hp, taken, rfl⟩).2]
    exact List.mem_map_of_mem hk

/-- A log passes if all its lines are of the phrases and the keys that are to be seen appear. -/
theorem Table.passed_iff_taken {keys : List String} (requirements : t.requirements = keys.map .seen)
    {lines : List String} :
    (t.evaluate lines).passed = true ↔
      (∀ line ∈ lines, ∃ p ∈ phrases, p.Takes line) ∧
        ∀ key ∈ keys, ∃ line ∈ lines, ∃ p ∈ phrases, p.Takes line ∧ key ∈ p.keys := by
  simp only [← t.readable_phrase_iff shapes apart]
  rw [t.passed_iff_shown, requirements, List.forall_mem_map]
  refine and_congr_right fun readable => ?_
  have read {r : Reading} := t.mem_phrase_readings_iff shapes apart readable (r := r)
  have consistent : Consistent (t.readings lines) := by
    refine consistent_of_no_values fun r hr => ?_
    obtain ⟨-, -, -, -, -, key, -, rfl⟩ := read.1 hr
    rfl
  have shown (key : String) : (Requirement.seen key).ShownBy (t.readings lines) ↔
      ∃ line ∈ lines, ∃ p ∈ phrases, p.Takes line ∧ key ∈ p.keys := by
    constructor
    · intro h
      obtain ⟨r, hr, rfl⟩ := h
      obtain ⟨line, hl, p, hp, taken, key, hk, rfl⟩ := read.1 hr
      exact ⟨line, hl, p, hp, taken, hk⟩
    · intro h
      obtain ⟨line, hl, p, hp, taken, hk⟩ := h
      exact ⟨⟨key, none⟩, read.2 ⟨line, hl, p, hp, taken, key, hk, rfl⟩, rfl⟩
  simp only [consistent, shown, true_and]

end Phrases

/-- The logs that a preset of phrases passes. -/
theorem Preset.passed_iff_taken (p : Preset) (phrases : List Phrase) (keys : List String)
    (shapes : p.shapes = phrases.map Phrase.spec) (requirements : p.requirements = keys.map .seen)
    (apart : Regex.PrefixFree (starts (phrases.map Phrase.shape))) :
    ∃ t, p.table = .ok t ∧ ∀ lines, (t.evaluate lines).passed = true ↔
      (∀ line ∈ lines, ∃ phrase ∈ phrases, phrase.Takes line) ∧
        ∀ key ∈ keys, ∃ line ∈ lines, ∃ phrase ∈ phrases, phrase.Takes line ∧ key ∈ phrase.keys := by
  obtain ⟨t, ht, hs, hr⟩ := p.table_of_yields (shapes ▸ Phrase.yields_map phrases)
  exact ⟨t, ht, fun lines => t.passed_iff_taken hs (hs ▸ apart) (hr.trans requirements)⟩

end PatchTrial.Validator
