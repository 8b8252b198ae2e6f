import PatchTrial.Proofs.Regex.AnyText
import PatchTrial.Proofs.Validator.Language

/-!
Keys that are read under several rules. A key has one observation, whatever rules its values are
under, so a rule may find there what another one left: a change that it never allowed, or a first
value that is not the one it goes over from.

What is proved:
  1. `keepsMeaning_iff_harmless`: the rules of a key keep their meaning in every accepted log if and
     only if they are all stable, all allow one change, or all go over from one text.
  2. `shared_key_loses_meaning`: a log of three lines whose key is both stable and may change once.
     It is accepted, although a stable value moves in it.
-/
namespace PatchTrial.Validator

/-- The values that were read under one rule. -/
def under (rule : Rule) (vs : List (Rule × String)) : List String :=
  vs.filterMap fun p => if p.1 = rule then some p.2 else none

/-- What the rules promise of the values of one key, each of the values that are under it: stable
ones are all the same, those that may change once do so at most once, and a text that is gone over
to comes after the text that is gone over from. -/
structure KeepsMeaning (vs : List (Rule × String)) : Prop where
  stable : Rule.stable.Admits (under .stable vs)
  once : Rule.changeOnce.Admits (under .changeOnce vs)
  baseline : ∀ pre post before after, vs = pre ++ (.transition before after, after) :: post →
    ∃ p ∈ pre, p.2 = before

/-- Rules that do not disturb each other on one key. The last alternative is for rules that go over
from a text to itself: they refuse every first value. -/
def Harmless (K : Rule → Prop) : Prop :=
  (∀ rule, K rule → rule = .stable) ∨
    (∀ rule, K rule → rule = .changeOnce) ∨
    (∃ before, ∀ rule, K rule → ∃ after, rule = .transition before after) ∨
    ∀ rule, K rule → ∃ text, rule = .transition text text

/-! ## Rules that do not disturb each other -/

theorem eq_map_of_forall {rule : Rule} {vs : List (Rule × String)} (h : ∀ p ∈ vs, p.1 = rule) :
    vs = (vs.map Prod.snd).map (rule, ·) := by
  rw [List.map_map]
  refine (List.map_id _).symm.trans (List.map_congr_left fun p hp => ?_)
  show p = (rule, p.2)
  rw [← h p hp]

theorem under_map (rule : Rule) (vs : List String) : under rule (vs.map (rule, ·)) = vs := by
  rw [under, List.filterMap_map]
  simp only [Function.comp_def, if_true, List.filterMap_some]

/-- A rule promises nothing where no value is under it. -/
theorem admits_under_of_ne {rule : Rule} {vs : List (Rule × String)} (h : ∀ p ∈ vs, p.1 ≠ rule) :
    rule.Admits (under rule vs) := by
  have none : under rule vs = [] := by
    rw [under, List.filterMap_eq_nil_iff]
    exact fun p hp => if_neg (h p hp)
  rw [none]
  exact rule.admits_nil

/-- Values that are all under one rule are in the language of that rule. -/
theorem admits_under_of_eq {rule : Rule} (moves : rule.Moves) {key : String}
    {vs : List (Rule × String)} (h : (standing? key none vs).isSome) (all : ∀ p ∈ vs, p.1 = rule) :
    rule.Admits (under rule vs) := by
  rw [eq_map_of_forall all] at h ⊢
  rw [under_map]
  exact (standing?_isSome_iff_admits moves key _).1 h

/-- A rule takes the first value only if it is one that the rule starts with. -/
theorem opens_of_standing? {key : String} {p : Rule × String} {vs : List (Rule × String)}
    (h : (standing? key none (p :: vs)).isSome) : p.1.Opens p.2 := by
  simp only [standing?] at h
  cases ho : p.1.observe key none p.2 with
  | ok o => exact ((observe_none_iff p.1 key p.2 o).1 ho).1
  | error e =>
    rw [ho] at h
    cases h

/-- Rules that go over from one text, or from a text to itself. -/
theorem keepsMeaning_of_transitions {key : String} {vs : List (Rule × String)}
    (h : (standing? key none vs).isSome)
    (all : ∀ p ∈ vs, ∃ before after, p.1 = .transition before after)
    (same : ∀ p ∈ vs, ∀ q ∈ vs, ∀ b a b' a', p.1 = .transition b a → q.1 = .transition b' a' →
      b ≠ a → b = b') : KeepsMeaning vs where
  stable := admits_under_of_ne fun p hp e => by
    obtain ⟨before, after, e'⟩ := all p hp
    cases e.symm.trans e'
  once := admits_under_of_ne fun p hp e => by
    obtain ⟨before, after, e'⟩ := all p hp
    cases e.symm.trans e'
  baseline := by
    intro pre post before after e
    obtain rfl := e
    cases pre with
    | nil =>
      obtain ⟨e, hne⟩ := opens_of_standing? h
      exact absurd e.symm hne
    | cons p pre =>
      refine ⟨p, List.mem_cons_self, ?_⟩
      -- the first value of all is the text that its own rule goes over from
      obtain ⟨b, a, hp⟩ := all p List.mem_cons_self
      have opens := opens_of_standing? h
      rw [hp] at opens
      rw [opens.1]
      exact same p List.mem_cons_self (.transition before after, after) (by simp) b a before after
        hp rfl opens.2

theorem Harmless.keepsMeaning {K : Rule → Prop} (harmless : Harmless K) {key : String}
    {vs : List (Rule × String)} (h : (standing? key none vs).isSome) (hK : ∀ p ∈ vs, K p.1) :
    KeepsMeaning vs := by
  rcases harmless with all | all | ⟨before, all⟩ | all
  · have one : ∀ p ∈ vs, p.1 = .stable := fun p hp => all p.1 (hK p hp)
    refine ⟨admits_under_of_eq (show Rule.Moves .stable from trivial) h one, ?_, ?_⟩
    · exact admits_under_of_ne fun p hp e => by cases (one p hp).symm.trans e
    · intro pre post before after e
      obtain rfl := e
      cases one (.transition before after, after) (by simp)
  · have one : ∀ p ∈ vs, p.1 = .changeOnce := fun p hp => all p.1 (hK p hp)
    refine ⟨?_, admits_under_of_eq (show Rule.Moves .changeOnce from trivial) h one, ?_⟩
    · exact admits_under_of_ne fun p hp e => by cases (one p hp).symm.trans e
    · intro pre post before after e
      obtain rfl := e
      cases one (.transition before after, after) (by simp)
  -- all transitions begin at the same text
  · refine keepsMeaning_of_transitions h (fun p hp => ⟨before, all p.1 (hK p hp)⟩) ?_
    intro p hp q hq b a b' a' hb hb' _
    obtain ⟨_, e⟩ := all p.1 (hK p hp)
    obtain ⟨_, e'⟩ := all q.1 (hK q hq)
    cases hb.symm.trans e
    cases hb'.symm.trans e'
    rfl
  · refine keepsMeaning_of_transitions h ?_ ?_
    · intro p hp
      obtain ⟨text, e⟩ := all p.1 (hK p hp)
      exact ⟨text, text, e⟩
    · intro p hp q hq b a b' a' hb hb' hne
      obtain ⟨text, e⟩ := all p.1 (hK p hp)
      cases hb.symm.trans e
      exact absurd rfl hne

/-! ## Rules that do -/

/-- A shape whose lines are a character and then a value of the key `k`. -/
def Shape.reader (start : String) (rule : Rule) : Shape where
  start
  judged? := some
    { pattern := .afterFirst
      checks := [⟨.named "k", .value 1 rule⟩]
      within := by
        intro c hc g hg
        rw [List.mem_singleton.1 hc] at hg
        rw [List.mem_singleton.1 hg]
        decide }

/-- Which of two rules a value is read under. -/
inductive Side
  | one
  | two

namespace Side

def rule (one two : Rule) : Side → Rule
  | .one => one
  | .two => two

/-- The character that the lines of a side start with. -/
def mark : Side → Char
  | .one => '1'
  | .two => '2'

def line (side : Side) (value : String) : String := String.ofList (side.mark :: value.toList)

end Side

/-- A table that reads one key under two rules. -/
def Table.reader (one two : Rule) : Table where
  shapes := [.reader "1" one, .reader "2" two]
  requirements := []
  nodup := by
    show ["1", "2"].Nodup
    decide

variable (one two : Rule)

theorem dispatch_reader (side : Side) (value : String) :
    ∃ start, Shape.dispatch (side.line value) (Table.reader one two).shapes =
      some (.reader start (side.rule one two)) := by
  cases side with
  | one => exact ⟨"1", by simp [Side.line, Side.mark, Side.rule, Table.reader, Shape.dispatch,
      Shape.covers, Shape.reader]⟩
  | two => exact ⟨"2", by simp [Side.line, Side.mark, Side.rule, Table.reader, Shape.dispatch,
      Shape.covers, Shape.reader]⟩

theorem captures?_line (side : Side) (value : String) :
    ∃ captures, Regex.afterFirst.captures? (side.line value) = some captures ∧
      captures.get? 1 = some value := by
  refine ⟨_, Regex.captures?_afterFirst side.mark value.toList, ?_⟩
  simp [Regex.Captures.get?, Regex.Span.text]

theorem readable_reader (side : Side) (value : String) :
    (Table.reader one two).Readable (side.line value) := by
  obtain ⟨start, hd⟩ := dispatch_reader one two side value
  obtain ⟨captures, hc, hv⟩ := captures?_line side value
  simp only [Table.Readable, hd, Shape.reader, hc, List.mem_singleton, forall_eq]
  intro g hg
  rw [List.mem_singleton.1 hg, hv]
  rfl

theorem lineReadings_reader (side : Side) (value : String) :
    (Table.reader one two).lineReadings (side.line value) =
      [⟨"k", some (side.rule one two, value)⟩] := by
  obtain ⟨start, hd⟩ := dispatch_reader one two side value
  obtain ⟨captures, hc, hv⟩ := captures?_line side value
  simp [Table.lineReadings, hd, Shape.reader, hc, Check.reading?, KeyRef.resolve, hv]

/-- Whatever values two rules take in turn, there is a log that has them read. -/
theorem exists_log (sides : List (Side × String))
    (h : (standing? "k" none (sides.map fun p => (p.1.rule one two, p.2))).isSome) :
    ∃ t : Table, ∃ lines, t.Accepts lines ∧
      valuesOf "k" (t.readings lines) = sides.map fun p => (p.1.rule one two, p.2) := by
  let t := Table.reader one two
  let lines := sides.map fun p => p.1.line p.2
  have readings : t.readings lines =
      sides.map fun p => ⟨"k", some (p.1.rule one two, p.2)⟩ := by
    rw [Table.readings, List.flatMap_map]
    simp only [t, lineReadings_reader]
    exact List.map_eq_flatMap.symm
  have values : valuesOf "k" (t.readings lines) = sides.map fun p => (p.1.rule one two, p.2) := by
    rw [readings, valuesOf, List.filterMap_map]
    simp only [Function.comp_def, if_true, List.filterMap_eq_map']
  refine ⟨t, lines, accepts_iff_consistent.2 ⟨?_, ?_⟩, values⟩
  · intro line hl
    obtain ⟨p, -, rfl⟩ := List.mem_map.1 hl
    exact readable_reader one two p.1 p.2
  · intro key
    by_cases hk : "k" = key
    · subst hk
      rw [values]
      exact h
    · have none : valuesOf key (t.readings lines) = [] := by
        rw [readings, valuesOf, List.filterMap_map]
        exact List.filterMap_eq_nil_iff.2 fun _ _ => if_neg hk
      rw [none]
      rfl

/-- A stable value that moves between two readings, the move being made under another rule. -/
theorem not_keepsMeaning_moved {a b : String} (h : a ≠ b) :
    ¬ KeepsMeaning [(.stable, a), (.changeOnce, b), (.stable, b)] := by
  intro meaning
  obtain ⟨v, n, e⟩ : Rule.stable.Admits [a, b] := meaning.stable
  have ha : a ∈ List.replicate n v := e ▸ List.mem_cons_self
  have hb : b ∈ List.replicate n v := e ▸ List.mem_cons_of_mem a List.mem_cons_self
  exact h ((List.eq_of_mem_replicate ha).trans (List.eq_of_mem_replicate hb).symm)

/-- A text that is gone over to from a first value that is not the one to go over from. -/
theorem not_keepsMeaning_baseless {rule : Rule} {value before after : String}
    (h : value ≠ before) :
    ¬ KeepsMeaning [(rule, value), (.transition before after, after)] := by
  intro meaning
  obtain ⟨p, hp, e⟩ := meaning.baseline [(rule, value)] [] before after rfl
  rw [List.mem_singleton.1 hp] at e
  exact h e

theorem exists_ne_text (text : String) : ∃ other : String, other ≠ text := by
  by_cases h : text = ""
  · exact ⟨"0", by rw [h]; decide⟩
  · exact ⟨"", Ne.symm h⟩

/-- Whatever value a key has at first, a rule that goes over takes the text it goes over to. -/
theorem standing?_then_transition {rule : Rule} {value : String} (opens : rule.Opens value)
    (before after : String) :
    (standing? "k" none [(rule, value), (.transition before after, after)]).isSome = true := by
  have first : rule.observe "k" none value = .ok ⟨value, false⟩ :=
    (observe_none_iff rule "k" value _).2 ⟨opens, rfl⟩
  have second : (Rule.transition before after).observe "k" (some ⟨value, false⟩) after =
      .ok ⟨after, true⟩ := by
    simp [Rule.observe]
  simp only [standing?, first, second]
  rfl

/-- Among some rules, no two disturb each other, in whatever turn they take values. -/
def KeptInTurn (K : Rule → Prop) : Prop :=
  ∀ one two, K one → K two → ∀ sides : List (Side × String),
    (standing? "k" none (sides.map fun p => (p.1.rule one two, p.2))).isSome →
      KeepsMeaning (sides.map fun p => (p.1.rule one two, p.2))

namespace KeptInTurn
variable {K : Rule → Prop}

theorem of_accepted
    (h : ∀ t : Table, ∀ lines key, t.Accepts lines →
      (∀ p ∈ valuesOf key (t.readings lines), K p.1) →
        KeepsMeaning (valuesOf key (t.readings lines))) : KeptInTurn K := by
  intro one two hone htwo sides hs
  obtain ⟨t, lines, accepted, values⟩ := exists_log one two sides hs
  rw [← values]
  refine h t lines "k" accepted fun p hp => ?_
  rw [values] at hp
  obtain ⟨⟨side, value⟩, -, rfl⟩ := List.mem_map.1 hp
  cases side with
  | one => exact hone
  | two => exact htwo

variable (kept : KeptInTurn K)
include kept

theorem not_changeOnce (hs : K .stable) : ¬ K .changeOnce := by
  intro hc
  have hne : ("0" : String) ≠ "1" := by decide
  exact not_keepsMeaning_moved hne
    (kept .stable .changeOnce hs hc [(.one, "0"), (.two, "1"), (.one, "1")] rfl)

/-- A rule that starts with any value gives every other rule a first value to go over from. -/
theorem not_transition {rule : Rule} (hr : K rule) (opens : ∀ value, rule.Opens value)
    (before after : String) : ¬ K (.transition before after) := by
  intro ht
  obtain ⟨value, hne⟩ := exists_ne_text before
  exact not_keepsMeaning_baseless hne
    (kept rule (.transition before after) hr ht [(.one, value), (.two, after)]
      (standing?_then_transition (opens value) before after))

/-- So does the first value of a rule that goes over from another text. -/
theorem before_unique {before after before' after' : String} (ht : K (.transition before after))
    (hne : before ≠ after) (ht' : K (.transition before' after')) : before = before' := by
  refine Decidable.byContradiction fun hb => ?_
  have opens : (Rule.transition before after).Opens before := ⟨rfl, hne⟩
  exact not_keepsMeaning_baseless hb
    (kept (.transition before after) (.transition before' after') ht ht'
      [(.one, before), (.two, after')] (standing?_then_transition opens before' after'))

theorem harmless : Harmless K := by
  -- the first kind of rule there is rules the later kinds out
  by_cases hs : K .stable
  · refine .inl fun rule hr => ?_
    cases rule with
    | stable => rfl
    | changeOnce => exact absurd hr (kept.not_changeOnce hs)
    | transition before after =>
      exact absurd hr (kept.not_transition hs (fun _ => trivial) before after)
  by_cases hc : K .changeOnce
  · refine .inr (.inl fun rule hr => ?_)
    cases rule with
    | stable => exact absurd hr hs
    | changeOnce => rfl
    | transition before after =>
      exact absurd hr (kept.not_transition hc (fun _ => trivial) before after)
  by_cases hm : ∃ before after, K (.transition before after) ∧ before ≠ after
  · obtain ⟨before, after, ht, hne⟩ := hm
    refine .inr (.inr (.inl ⟨before, fun rule hr => ?_⟩))
    cases rule with
    | stable => exact absurd hr hs
    | changeOnce => exact absurd hr hc
    | transition before' after' => exact ⟨after', by rw [kept.before_unique ht hne hr]⟩
  · refine .inr (.inr (.inr fun rule hr => ?_))
    cases rule with
    | stable => exact absurd hr hs
    | changeOnce => exact absurd hr hc
    | transition before after =>
      by_cases hb : before = after
      · exact ⟨before, by rw [hb]⟩
      · exact absurd ⟨before, after, hr, hb⟩ hm

end KeptInTurn

/-- The rules of a key keep their meaning in every accepted log if and only if they do not disturb
each other. -/
theorem keepsMeaning_iff_harmless (K : Rule → Prop) :
    (∀ t : Table, ∀ lines key, t.Accepts lines → (∀ p ∈ valuesOf key (t.readings lines), K p.1) →
        KeepsMeaning (valuesOf key (t.readings lines))) ↔
      Harmless K := by
  constructor
  · intro h
    exact (KeptInTurn.of_accepted h).harmless
  · intro harmless t lines key accepted hK
    exact harmless.keepsMeaning ((accepts_iff_consistent.1 accepted).2 key) hK

/-- Lines that start with `s` have a stable value, those that start with `c` one that may change
once, and both have the same key. -/
def mixed : Table where
  shapes :=
    [{ start := "s "
       judged? := some
        { pattern := ⟨"^s (.*)$", _, rfl⟩
          checks := [⟨.named "k", .value 1 .stable⟩]
          within := by decide } },
      { start := "c "
        judged? := some
          { pattern := ⟨"^c (.*)$", _, rfl⟩
            checks := [⟨.named "k", .value 1 .changeOnce⟩]
            within := by decide } }]
  requirements := []
  nodup := by decide

theorem shared_key_loses_meaning :
    mixed.Accepts ["s a", "c b", "s b"] ∧
      ¬ KeepsMeaning (valuesOf "k" (mixed.readings ["s a", "c b", "s b"])) := by
  have values : valuesOf "k" (mixed.readings ["s a", "c b", "s b"]) =
      [(.stable, "a"), (.changeOnce, "b"), (.stable, "b")] := by decide +kernel
  refine ⟨by decide +kernel, ?_⟩
  rw [values]
  exact not_keepsMeaning_moved (by decide)

end PatchTrial.Validator
