import PatchTrial.Validator.Table

/-!
What the checks of a log read, and how that decides its verdict.

A check that is applied to a line either misses a group or makes a reading: a key and, unless the
key was only to appear, a value under a rule. A log whose lines miss nothing (`Table.Readable`) is
known by its readings in order (`Table.readings`).

What is proved:
  1. `Records.step`: a state that records some readings accepts a readable line if and only if
     every key can still be accounted for, and then records the readings of the line as well.
     Accounting for a key (`standing?`) looks at the values of that key and at nothing else,
     although all keys share one state.
  2. `evaluate_passed_iff_consistent`: a readable log passes if and only if every key can be
     accounted for to its end and the readings show what the table requires.
  3. `accepts_iff_consistent`: the logs all of whose lines are accepted are the readable ones in
     which every key can be accounted for.
-/
namespace PatchTrial.Validator

/-- What a check read in a line: its key and, unless the key was only to appear, the value with the
rule it is under. -/
structure Reading where
  key : String
  value? : Option (Rule × String)
  deriving DecidableEq, Repr

/-- What a check reads in the captures of a line, if all its groups took part in the match. -/
def Check.reading? (c : Check) (captures : Regex.Captures) : Option Reading :=
  match c.key.resolve captures, c.test with
  | none, _ => none
  | some key, .appears => some ⟨key, none⟩
  | some key, .value group rule => (captures.get? group).map fun value => ⟨key, some (rule, value)⟩

/-- What a reading does to a state: the state after it, and how the check was broken if it was. -/
def Reading.apply (r : Reading) (s : State) : State × Option Violation :=
  match r.value? with
  | none => ((s.meet r.key).appear r.key, none)
  | some (rule, value) =>
    match rule.observe r.key (s.observation? r.key) value with
    | .ok o => ((s.meet r.key).record r.key o, none)
    | .error v => (s.meet r.key, some v)

/-- A line is readable when a shape judges it and, if the shape has a pattern, the line matches it
with every group that the checks name. -/
def Table.Readable (t : Table) (line : String) : Prop :=
  match Shape.dispatch line t.shapes with
  | none => False
  | some shape =>
    match shape.judged? with
    | none => True
    | some j =>
      match j.pattern.captures? line with
      | none => False
      | some captures => ∀ c ∈ j.checks, ∀ g ∈ c.groups, (captures.get? g).isSome

/-- What the checks of a line read, in their order. -/
def Table.lineReadings (t : Table) (line : String) : List Reading :=
  match Shape.dispatch line t.shapes with
  | none => []
  | some shape =>
    match shape.judged? with
    | none => []
    | some j =>
      match j.pattern.captures? line with
      | none => []
      | some captures => j.checks.filterMap fun c => c.reading? captures

/-- What the checks of a log read, in the order of the lines. -/
def Table.readings (t : Table) (lines : List String) : List Reading :=
  lines.flatMap t.lineReadings

/-- The values a key was read with, each with its rule, in the order of the readings. -/
def valuesOf (key : String) (rs : List Reading) : List (Rule × String) :=
  rs.filterMap fun r => if r.key = key then r.value? else none

/-- What stands of a key after more values were read, or `none` once a rule refuses one. -/
def standing? (key : String) : Option Observation → List (Rule × String) →
    Option (Option Observation)
  | last, [] => some last
  | last, (rule, value) :: rest =>
    match rule.observe key last value with
    | .ok o => standing? key (some o) rest
    | .error _ => none

/-- Readings are consistent when no value of any key is refused. -/
def Consistent (rs : List Reading) : Prop :=
  ∀ key, (standing? key none (valuesOf key rs)).isSome

/-- Whether a line is readable can be computed. -/
instance (t : Table) (line : String) : Decidable (t.Readable line) :=
  match hd : Shape.dispatch line t.shapes with
  | none => .isFalse (by simp [Table.Readable, hd])
  | some shape =>
    match hj : shape.judged? with
    | none => .isTrue (by simp [Table.Readable, hd, hj])
    | some j =>
      match hc : j.pattern.captures? line with
      | none => .isFalse (by simp [Table.Readable, hd, hj, hc])
      | some captures =>
        decidable_of_iff (∀ c ∈ j.checks, ∀ g ∈ c.groups, (captures.get? g).isSome)
          (by simp [Table.Readable, hd, hj, hc])

/-! ## Readings of one key -/

@[simp] theorem valuesOf_append (key : String) (rs rs' : List Reading) :
    valuesOf key (rs ++ rs') = valuesOf key rs ++ valuesOf key rs' := by
  simp [valuesOf]

theorem mem_valuesOf {key : String} {rs : List Reading} {p : Rule × String} :
    p ∈ valuesOf key rs ↔ ∃ r ∈ rs, r.key = key ∧ r.value? = some p := by
  simp only [valuesOf, List.mem_filterMap]
  constructor
  · intro h
    obtain ⟨r, hr, hp⟩ := h
    by_cases hk : r.key = key
    · rw [if_pos hk] at hp
      exact ⟨r, hr, hk, hp⟩
    · rw [if_neg hk] at hp
      cases hp
  · intro h
    obtain ⟨r, hr, hk, hp⟩ := h
    exact ⟨r, hr, by rw [if_pos hk, hp]⟩

theorem valuesOf_singleton_self (r : Reading) : valuesOf r.key [r] = r.value?.toList := by
  cases h : r.value? <;> simp [valuesOf, h]

theorem valuesOf_singleton_of_ne {key : String} {r : Reading} (h : r.key ≠ key) :
    valuesOf key [r] = [] := by
  simp [valuesOf, h]

theorem standing?_append (key : String) (last : Option Observation) (vs ws : List (Rule × String)) :
    standing? key last (vs ++ ws) =
      (standing? key last vs).bind fun o => standing? key o ws := by
  induction vs generalizing last with
  | nil => rfl
  | cons v vs ih =>
    obtain ⟨rule, value⟩ := v
    simp only [List.cons_append, standing?]
    cases rule.observe key last value with
    | ok o => exact ih (some o)
    | error e => rfl

/-- What is refused at some point stays refused. -/
theorem Consistent.of_append {rs rs' : List Reading} (h : Consistent (rs ++ rs')) :
    Consistent rs := by
  intro key
  have hk := h key
  rw [valuesOf_append, standing?_append] at hk
  cases hs : standing? key none (valuesOf key rs) with
  | none => rw [hs] at hk; exact hk
  | some o => rfl

/-! ## What a state knows of a key -/

@[simp] theorem State.observation?_meet (s : State) (k key : String) :
    (s.meet k).observation? key = s.observation? key := rfl

theorem Observations.lookup_cons (key k : String) (o : Observation) (l : Observations) :
    List.lookup key ((k, o) :: l) = if key = k then some o else List.lookup key l := by
  by_cases h : key = k
  · subst h
    rw [List.lookup_cons_self, if_pos rfl]
  · rw [List.lookup_cons, beq_eq_false_iff_ne.2 h, if_neg h]

theorem Observations.lookup_put (key k : String) (o : Observation) (l : Observations) :
    (l.put k o).lookup key = if key = k then some o else l.lookup key := by
  induction l with
  | nil => exact lookup_cons key k o []
  | cons e rest ih =>
    obtain ⟨k', last⟩ := e
    by_cases hk : k' = k
    · subst hk
      rw [put, if_pos rfl, lookup_cons, lookup_cons]
      by_cases h : key = k' <;> simp [h]
    · rw [put, if_neg hk, lookup_cons, lookup_cons, ih]
      by_cases h : key = k' <;> simp [h, hk]

theorem State.observation?_record (s : State) (k key : String) (o : Observation) :
    (s.record k o).observation? key = if key = k then some o else s.observation? key :=
  Observations.lookup_put key k o s.observations

/-! ## The state records the readings -/

/-- A state records readings when it holds of every key what the key's own values leave standing,
and knows which keys were met and which appeared. -/
structure Records (s : State) (rs : List Reading) : Prop where
  standing : ∀ key, standing? key none (valuesOf key rs) = some (s.observation? key)
  seen : ∀ key, s.hasSeen key = true ↔ ∃ r ∈ rs, r.key = key
  appeared : ∀ key, key ∈ s.appeared ↔ ⟨key, none⟩ ∈ rs

namespace Records
variable {s : State} {rs : List Reading}

theorem empty : Records {} [] where
  standing _ := rfl
  seen _ := by simp [State.hasSeen]
  appeared _ := by simp

theorem consistent (h : Records s rs) : Consistent rs :=
  fun key => by rw [h.standing key]; rfl

theorem nextLine (h : Records s rs) : Records s.nextLine rs := ⟨h.standing, h.seen, h.appeared⟩

theorem seen_snoc (h : Records s rs) (r : Reading) (key : String) :
    (s.meet r.key).hasSeen key = true ↔ ∃ r' ∈ rs ++ [r], r'.key = key := by
  have hs := h.seen key
  simp only [State.hasSeen, State.meet, List.contains_iff_mem, List.mem_cons] at hs ⊢
  rw [hs]
  constructor
  · intro h
    rcases h with rfl | ⟨r', hr', rfl⟩
    · exact ⟨r, by simp, rfl⟩
    · exact ⟨r', by simp [hr'], rfl⟩
  · intro h
    obtain ⟨r', hr', rfl⟩ := h
    rcases List.mem_append.1 hr' with hr' | hr'
    · exact .inr ⟨r', hr', rfl⟩
    · rw [List.mem_singleton.1 hr']
      exact .inl rfl

/-- A reading changes nothing about the keys of others. -/
theorem standing_snoc_of_ne (h : Records s rs) {r : Reading} {key : String} (hk : r.key ≠ key) :
    standing? key none (valuesOf key (rs ++ [r])) = some (s.observation? key) := by
  rw [valuesOf_append, valuesOf_singleton_of_ne hk, List.append_nil, h.standing]

/-- Of its own key, a value leaves standing what its rule makes of it. -/
theorem standing_snoc_self (h : Records s rs) {r : Reading} {rule : Rule} {value : String}
    (hv : r.value? = some (rule, value)) :
    standing? r.key none (valuesOf r.key (rs ++ [r])) =
      match rule.observe r.key (s.observation? r.key) value with
      | .ok o => some (some o)
      | .error _ => none := by
  rw [valuesOf_append, standing?_append, h.standing, valuesOf_singleton_self, hv]
  simp only [Option.bind_some, Option.toList, standing?]

/-- A key that was only to appear. -/
theorem appear (h : Records s rs) {r : Reading} (hv : r.value? = none) :
    Records ((s.meet r.key).appear r.key) (rs ++ [r]) where
  standing key := by
    by_cases hk : r.key = key
    · subst hk
      rw [valuesOf_append, valuesOf_singleton_self, hv, Option.toList, List.append_nil, h.standing]
      rfl
    · exact h.standing_snoc_of_ne hk
  seen := h.seen_snoc r
  appeared key := by
    have e : r = ⟨r.key, none⟩ := by rw [← hv]
    have ha := h.appeared key
    simp only [State.appear, State.meet, List.mem_cons] at ha ⊢
    rw [ha, List.mem_append, List.mem_singleton, e, Reading.mk.injEq, or_comm]
    simp only [and_true]

/-- A value that its rule takes. -/
theorem record (h : Records s rs) {r : Reading} {rule : Rule} {value : String} {o : Observation}
    (hv : r.value? = some (rule, value))
    (ho : rule.observe r.key (s.observation? r.key) value = .ok o) :
    Records ((s.meet r.key).record r.key o) (rs ++ [r]) where
  standing key := by
    rw [State.observation?_record]
    by_cases hk : key = r.key
    · subst hk
      rw [h.standing_snoc_self hv, ho, if_pos rfl]
    · rw [if_neg hk, h.standing_snoc_of_ne (Ne.symm hk)]
      rfl
  seen := h.seen_snoc r
  appeared key := by
    have ne : (⟨key, none⟩ : Reading) ≠ r := fun e => by rw [← e] at hv; cases hv
    have ha := h.appeared key
    simp only [State.record, State.meet] at ha ⊢
    rw [ha, List.mem_append, List.mem_singleton]
    simp only [ne, or_false]

/-- One reading: it is taken if and only if the readings stay consistent with it, and a state that
took it records it. -/
theorem apply (h : Records s rs) (r : Reading) :
    ((r.apply s).2 = none ↔ Consistent (rs ++ [r])) ∧
      ((r.apply s).2 = none → Records (r.apply s).1 (rs ++ [r])) := by
  cases hv : r.value? with
  | none =>
    have e : r.apply s = ((s.meet r.key).appear r.key, none) := by simp [Reading.apply, hv]
    have after := h.appear hv
    rw [e]
    exact ⟨⟨fun _ => after.consistent, fun _ => rfl⟩, fun _ => after⟩
  | some p =>
    obtain ⟨rule, value⟩ := p
    cases ho : rule.observe r.key (s.observation? r.key) value with
    | error v =>
      have e : r.apply s = (s.meet r.key, some v) := by simp [Reading.apply, hv, ho]
      rw [e]
      refine ⟨⟨fun hn => (by cases hn), fun hc => ?_⟩, fun hn => (by cases hn)⟩
      have hk := hc r.key
      rw [h.standing_snoc_self hv, ho] at hk
      cases hk
    | ok o =>
      have e : r.apply s = ((s.meet r.key).record r.key o, none) := by
        simp [Reading.apply, hv, ho]
      have after := h.record hv ho
      rw [e]
      exact ⟨⟨fun _ => after.consistent, fun _ => rfl⟩, fun _ => after⟩

end Records

/-! ## Checks, lines and logs -/

/-- A check reads something exactly when all its groups took part in the match. -/
theorem Check.reading?_isSome (c : Check) (captures : Regex.Captures) :
    (c.reading? captures).isSome ↔ ∀ g ∈ c.groups, (captures.get? g).isSome := by
  obtain ⟨key, test⟩ := c
  cases key with
  | named name => cases test <;> simp [reading?, groups, KeyRef.resolve]
  | group index =>
    cases hk : captures.get? index <;> cases test <;>
      simp [reading?, groups, KeyRef.resolve, hk]

theorem Check.apply_of_reading? {c : Check} {captures : Regex.Captures} {r : Reading}
    (h : c.reading? captures = some r) (s : State) : c.apply captures s = r.apply s := by
  obtain ⟨key, test⟩ := c
  simp only [reading?] at h
  cases hk : key.resolve captures with
  | none => simp [hk] at h
  | some k =>
    cases test with
    | appears =>
      simp only [hk, Option.some.injEq] at h
      subst h
      simp [apply, Reading.apply, hk]
    | value group rule =>
      simp only [hk, Option.map_eq_some_iff] at h
      obtain ⟨value, hg, rfl⟩ := h
      cases ho : rule.observe k (s.observation? k) value with
      | ok o => simp only [apply, Reading.apply, hk, hg, State.observation?_meet, ho]
      | error v => simp only [apply, Reading.apply, hk, hg, State.observation?_meet, ho]

/-- A check that misses a group is broken. -/
theorem Check.apply_of_reading?_none {c : Check} {captures : Regex.Captures}
    (h : c.reading? captures = none) (s : State) : (c.apply captures s).2 ≠ none := by
  obtain ⟨key, test⟩ := c
  simp only [reading?] at h
  cases hk : key.resolve captures with
  | none => simp [apply, hk]
  | some k =>
    cases test with
    | appears => simp [hk] at h
    | value group rule =>
      simp only [hk, Option.map_eq_none_iff] at h
      simp [apply, hk, h]

/-- The checks of a line, all of which read something. -/
theorem Records.applyAll {captures : Regex.Captures} {checks : List Check} {s : State}
    {rs : List Reading} (h : Records s rs)
    (hall : ∀ c ∈ checks, ∀ g ∈ c.groups, (captures.get? g).isSome) :
    ((applyAll captures checks s).2 = none ↔
        Consistent (rs ++ checks.filterMap fun c => c.reading? captures)) ∧
      ((applyAll captures checks s).2 = none →
        Records (applyAll captures checks s).1
          (rs ++ checks.filterMap fun c => c.reading? captures)) := by
  induction checks generalizing s rs with
  | nil =>
    rw [List.filterMap_nil, List.append_nil]
    exact ⟨⟨fun _ => h.consistent, fun _ => rfl⟩, fun _ => h⟩
  | cons c rest ih =>
    have hc := (c.reading?_isSome captures).2 (hall c List.mem_cons_self)
    obtain ⟨r, hr⟩ := Option.isSome_iff_exists.1 hc
    obtain ⟨taken, after⟩ := h.apply r
    have split : (c :: rest).filterMap (fun c => c.reading? captures) =
        r :: rest.filterMap fun c => c.reading? captures := List.filterMap_cons_some hr
    rw [split, List.append_cons, Validator.applyAll, Check.apply_of_reading? hr]
    rcases e : r.apply s with ⟨s', _ | v⟩
    · rw [e] at after
      exact ih (after rfl) fun c' hc' => hall c' (List.mem_cons_of_mem c hc')
    · -- a reading that is not taken stays inconsistent with whatever comes after it
      rw [e] at taken
      refine ⟨⟨fun hn => (by cases hn), fun hcons => ?_⟩, fun hn => (by cases hn)⟩
      have hn := taken.2 hcons.of_append
      cases hn

/-- Checks that are all unbroken all read something. -/
theorem participate_of_applyAll {captures : Regex.Captures} {checks : List Check} {s : State}
    (h : (applyAll captures checks s).2 = none) :
    ∀ c ∈ checks, ∀ g ∈ c.groups, (captures.get? g).isSome := by
  induction checks generalizing s with
  | nil => simp
  | cons c rest ih =>
    rw [applyAll] at h
    rcases e : c.apply captures s with ⟨s', _ | v⟩
    · rw [e] at h
      intro c' hc'
      rcases List.mem_cons.1 hc' with rfl | hc'
      · refine (Check.reading?_isSome c' captures).1 ?_
        cases hr : c'.reading? captures with
        | some r => rfl
        | none => exact absurd (by rw [e]) (Check.apply_of_reading?_none hr s)
      · exact ih h c' hc'
    · rw [e] at h
      cases h

/-- One line: it is accepted if and only if the readings stay consistent with its own, and a state
that accepted it records them. -/
theorem Records.step {t : Table} {s : State} {rs : List Reading} {line : String} (h : Records s rs)
    (hl : t.Readable line) :
    ((t.step s line).2 = .accepted ↔ Consistent (rs ++ t.lineReadings line)) ∧
      ((t.step s line).2 = .accepted →
        Records (t.step s line).1 (rs ++ t.lineReadings line)) := by
  simp only [Table.Readable] at hl
  simp only [Table.step, Table.lineReadings]
  cases hd : Shape.dispatch line t.shapes with
  | none => simp only [hd] at hl
  | some shape =>
    simp only [hd] at hl
    simp only [Shape.judge]
    cases hj : shape.judged? with
    | none =>
      rw [List.append_nil]
      exact ⟨⟨fun _ => h.consistent, fun _ => rfl⟩, fun _ => h.nextLine⟩
    | some j =>
      simp only [hj] at hl
      dsimp only
      cases hc : j.pattern.captures? line with
      | none => simp only [hc] at hl
      | some captures =>
        simp only [hc] at hl
        dsimp only
        -- the checks of a line are applied in order, up to the first that is broken
        obtain ⟨taken, after⟩ := h.nextLine.applyAll hl
        rcases e : Validator.applyAll captures j.checks s.nextLine with ⟨s', _ | v⟩
        · rw [e] at taken after
          exact ⟨⟨fun _ => taken.1 rfl, fun _ => rfl⟩, fun _ => after rfl⟩
        · rw [e] at taken
          exact ⟨⟨fun hn => (by cases hn), fun hcons => (by cases taken.2 hcons)⟩,
            fun hn => (by cases hn)⟩

theorem readable_of_accepted {t : Table} {s : State} {line : String}
    (h : (t.step s line).2 = .accepted) : t.Readable line := by
  simp only [Table.step] at h
  simp only [Table.Readable]
  cases hd : Shape.dispatch line t.shapes with
  | none => simp [hd] at h
  | some shape =>
    simp only [hd, Shape.judge] at h ⊢
    cases hj : shape.judged? with
    | none => trivial
    | some j =>
      simp only [hj] at h ⊢
      cases hc : j.pattern.captures? line with
      | none => simp [hc] at h
      | some captures =>
        simp only [hc] at h ⊢
        rcases e : applyAll captures j.checks s.nextLine with ⟨s', _ | v⟩
        · exact participate_of_applyAll (by rw [e])
        · rw [e] at h
          cases h

@[simp] theorem Table.readings_nil (t : Table) : t.readings [] = [] := rfl

theorem Table.readings_cons (t : Table) (line : String) (rest : List String) :
    t.readings (line :: rest) = t.lineReadings line ++ t.readings rest := List.flatMap_cons

/-- Every line of a log is accepted. -/
def Table.Accepts (t : Table) (lines : List String) : Prop :=
  ∀ p ∈ t.stepsFrom {} lines, p.2 = .accepted

instance (t : Table) (lines : List String) : Decidable (t.Accepts lines) :=
  inferInstanceAs (Decidable (∀ p ∈ t.stepsFrom {} lines, p.2 = .accepted))

/-- What a requirement asks of the readings of a log. -/
def Requirement.ShownBy (rs : List Reading) : Requirement → Prop
  | changed key => ∃ value, standing? key none (valuesOf key rs) = some (some ⟨value, true⟩)
  | seen key => ∃ r ∈ rs, r.key = key

theorem Records.met_iff {s : State} {rs : List Reading} (h : Records s rs) (r : Requirement) :
    r.met s = true ↔ r.ShownBy rs := by
  cases r with
  | seen key => exact h.seen key
  | changed key =>
    simp only [Requirement.met, Requirement.ShownBy, State.changed, h.standing, Option.some.injEq]
    cases s.observation? key with
    | none => simp
    | some o =>
      obtain ⟨value, changed⟩ := o
      simp

theorem Records.finish_passed {t : Table} {s : State} {rs : List Reading} (h : Records s rs) :
    (t.finish s).passed = true ↔ ∀ r ∈ t.requirements, r.ShownBy rs := by
  have e : (t.finish s).passed = true ↔ t.unmet s = [] := by
    simp only [Table.finish]
    cases t.unmet s <;> simp [Verdict.passed]
  rw [e, Table.unmet, List.filter_eq_nil_iff]
  simp only [Bool.not_eq_true', Bool.not_eq_false, h.met_iff]

/-- A run over readable lines, from a state that records what came before. -/
theorem Records.evaluateFrom_passed {t : Table} {s : State} {rs : List Reading}
    {lines : List String} (h : Records s rs) (hl : ∀ line ∈ lines, t.Readable line) :
    (t.evaluateFrom s lines).passed = true ↔
      Consistent (rs ++ t.readings lines) ∧
        ∀ r ∈ t.requirements, r.ShownBy (rs ++ t.readings lines) := by
  induction lines generalizing s rs with
  | nil =>
    rw [Table.readings_nil, List.append_nil, Table.evaluateFrom, h.finish_passed]
    exact ⟨fun hr => ⟨h.consistent, hr⟩, And.right⟩
  | cons line rest ih =>
    obtain ⟨taken, after⟩ := h.step (hl line List.mem_cons_self)
    have hrest : ∀ l ∈ rest, t.Readable l := fun l hm => hl l (List.mem_cons_of_mem line hm)
    rw [Table.readings_cons, ← List.append_assoc]
    by_cases ha : (t.step s line).2 = .accepted
    · have e : t.evaluateFrom s (line :: rest) = t.evaluateFrom (t.step s line).1 rest := by
        rw [Table.evaluateFrom]
        rcases hs : t.step s line with ⟨s', outcome⟩
        rw [hs] at ha
        cases ha
        rfl
      rw [e]
      exact ih (after ha) hrest
    · -- the line that is not accepted is the last one that is read
      have e : (t.evaluateFrom s (line :: rest)).passed = false := by
        rw [Table.evaluateFrom]
        rcases hs : t.step s line with ⟨s', outcome⟩
        rw [hs] at ha
        cases outcome <;> first | rfl | exact absurd rfl ha
      rw [e]
      exact ⟨fun hf => (by cases hf), fun hc => absurd (taken.2 hc.1.of_append) ha⟩

theorem evaluate_passed_iff_consistent {t : Table} {lines : List String}
    (hl : ∀ line ∈ lines, t.Readable line) :
    (t.evaluate lines).passed = true ↔
      Consistent (t.readings lines) ∧ ∀ r ∈ t.requirements, r.ShownBy (t.readings lines) :=
  Records.empty.evaluateFrom_passed hl

/-- A run over readable lines, from a state that records what came before: all of them are accepted
if and only if the readings stay consistent. -/
theorem Records.accepts_iff {t : Table} {s : State} {rs : List Reading} {lines : List String}
    (h : Records s rs) (hl : ∀ line ∈ lines, t.Readable line) :
    (∀ p ∈ t.stepsFrom s lines, p.2 = .accepted) ↔ Consistent (rs ++ t.readings lines) := by
  induction lines generalizing s rs with
  | nil =>
    rw [Table.readings_nil, List.append_nil]
    exact ⟨fun _ => h.consistent, fun _ p hp => by cases hp⟩
  | cons line rest ih =>
    obtain ⟨taken, after⟩ := h.step (hl line List.mem_cons_self)
    have hrest : ∀ l ∈ rest, t.Readable l := fun l hm => hl l (List.mem_cons_of_mem line hm)
    rw [Table.readings_cons, ← List.append_assoc]
    constructor
    · intro ha
      have now : (t.step s line).2 = .accepted := ha _ List.mem_cons_self
      exact (ih (after now) hrest).1 fun p hp => ha p (List.mem_cons_of_mem _ hp)
    · intro hc p hp
      have now : (t.step s line).2 = .accepted := taken.2 hc.of_append
      rcases List.mem_cons.1 hp with rfl | hp
      · exact now
      · exact (ih (after now) hrest).2 hc p hp

theorem readable_of_stepsFrom {t : Table} {s : State} {lines : List String}
    (h : ∀ p ∈ t.stepsFrom s lines, p.2 = .accepted) : ∀ line ∈ lines, t.Readable line := by
  induction lines generalizing s with
  | nil => simp
  | cons line rest ih =>
    intro l hl
    rcases List.mem_cons.1 hl with rfl | hl
    · exact readable_of_accepted (h _ List.mem_cons_self)
    · exact ih (fun p hp => h p (List.mem_cons_of_mem _ hp)) l hl

/-- Accepted logs are those that are readable and leave no value refused. -/
theorem accepts_iff_consistent {t : Table} {lines : List String} :
    t.Accepts lines ↔ (∀ line ∈ lines, t.Readable line) ∧ Consistent (t.readings lines) := by
  constructor
  · intro h
    have readable := readable_of_stepsFrom h
    exact ⟨readable, (Records.empty.accepts_iff readable).1 h⟩
  · intro h
    obtain ⟨readable, consistent⟩ := h
    exact (Records.empty.accepts_iff readable).2 consistent

end PatchTrial.Validator
