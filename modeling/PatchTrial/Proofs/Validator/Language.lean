import PatchTrial.Proofs.Validator.Readings

/-!
The language of a key. When all values of a key are read under one rule, what the rule accepts is a
set of sequences that can be told without a state: one text for ever, one text and then another, or
a given text and then another given one.

What is proved:
  1. `standing?_baseline`: from a first value on, a rule either sees that value only, or sees it
     some times and then for ever one value it may go over to.
  2. `standing?_isSome_iff_admits` and `changed_iff_differ`: so no value of a key is refused exactly
     when its sequence is in the language of its rule, and the change is on record exactly when the
     sequence has two different values.
  3. `evaluate_passed_iff`: the verdict on a readable log whose keys are not mixed.
-/
namespace PatchTrial.Validator

/-- The sequences of values that a rule admits. -/
def Rule.Admits : Rule → List String → Prop
  | stable, vs => ∃ a n, vs = List.replicate n a
  | changeOnce, vs => ∃ a m b n, vs = List.replicate m a ++ List.replicate n b
  | transition before after, vs =>
    vs = [] ∨ ∃ m n, 0 < m ∧ vs = List.replicate m before ++ List.replicate n after

/-- The values a key was read with, in the order of the readings. -/
def observed (key : String) (rs : List Reading) : List String := (valuesOf key rs).map Prod.snd

/-- A rule that goes over from a text goes over to another one. -/
def Rule.Moves : Rule → Prop
  | transition before after => before ≠ after
  | _ => True

instance : DecidablePred Rule.Moves
  | .stable => .isTrue trivial
  | .changeOnce => .isTrue trivial
  | .transition before after => inferInstanceAs (Decidable (before ≠ after))

/-- No key is mixed: its values are all read under one rule, and one that goes over from a text goes
over to another. -/
structure Unmixed (rs : List Reading) : Prop where
  same : ∀ key, ∀ p ∈ valuesOf key rs, ∀ q ∈ valuesOf key rs, p.1 = q.1
  moves : ∀ key, ∀ p ∈ valuesOf key rs, p.1.Moves

/-- Of the keys only those of the readings matter. -/
theorem unmixed_iff (rs : List Reading) :
    Unmixed rs ↔
      (∀ r ∈ rs, ∀ r' ∈ rs, r.key = r'.key → ∀ p ∈ r.value?, ∀ q ∈ r'.value?, p.1 = q.1) ∧
        ∀ r ∈ rs, ∀ p ∈ r.value?, p.1.Moves := by
  constructor
  · intro h
    refine ⟨fun r hr r' hr' hk p hp q hq => ?_, fun r hr p hp => ?_⟩
    · exact h.same r'.key p (mem_valuesOf.2 ⟨r, hr, hk, hp⟩) q (mem_valuesOf.2 ⟨r', hr', rfl, hq⟩)
    · exact h.moves r.key p (mem_valuesOf.2 ⟨r, hr, rfl, hp⟩)
  · intro h
    obtain ⟨same, moves⟩ := h
    refine ⟨fun key p hp q hq => ?_, fun key p hp => ?_⟩
    · obtain ⟨r, hr, rfl, hrp⟩ := mem_valuesOf.1 hp
      obtain ⟨r', hr', hk, hrq⟩ := mem_valuesOf.1 hq
      exact same r hr r' hr' hk.symm p hrp q hrq
    · obtain ⟨r, hr, -, hrp⟩ := mem_valuesOf.1 hp
      exact moves r hr p hrp

instance (rs : List Reading) : Decidable (Unmixed rs) := decidable_of_iff' _ (unmixed_iff rs)

/-- What a requirement asks of a log: two different values of a key, or any check that met it. -/
def Requirement.Shown (rs : List Reading) : Requirement → Prop
  | changed key => ∃ v ∈ observed key rs, ∃ w ∈ observed key rs, v ≠ w
  | seen key => ∃ r ∈ rs, r.key = key

/-! ## One rule, from a first value on -/

/-- Whether a rule takes a value as the first one. -/
def Rule.Opens : Rule → String → Prop
  | transition before after, a => a = before ∧ before ≠ after
  | _, _ => True

/-- Whether a rule lets a first value go over to another one. -/
def Rule.GoesOver : Rule → String → String → Prop
  | stable, _, _ => False
  | changeOnce, a, b => b ≠ a
  | transition _ after, a, b => b = after ∧ b ≠ a

theorem Rule.GoesOver.ne {rule : Rule} {a b : String} (h : rule.GoesOver a b) : b ≠ a := by
  cases rule with
  | stable => exact h.elim
  | changeOnce => exact h
  | transition before after => exact h.2

theorem observe_none_iff (rule : Rule) (key a : String) (o : Observation) :
    rule.observe key none a = .ok o ↔ rule.Opens a ∧ o = ⟨a, false⟩ := by
  cases rule with
  | stable => simp [Rule.observe, Rule.Opens, Observation.baseline, eq_comm]
  | changeOnce => simp [Rule.observe, Rule.Opens, Observation.baseline, eq_comm]
  | transition before after =>
    -- the text to go over to is refused first, also where it is the one to go over from
    simp only [Rule.observe, Rule.Opens, Observation.baseline]
    by_cases ha : a = after
    · simp only [ha, if_true, reduceCtorEq, false_iff]
      intro h
      obtain ⟨⟨rfl, hne⟩, -⟩ := h
      exact hne rfl
    · by_cases hb : a = before
      · subst hb
        simp [ha, eq_comm]
      · simp [ha, hb]

/-- Before its change, an opened key takes its first value again or goes over to another. -/
theorem observe_baseline_iff {rule : Rule} {a : String} (h : rule.Opens a) (key v : String)
    (o : Observation) :
    rule.observe key (some ⟨a, false⟩) v = .ok o ↔
      v = a ∧ o = ⟨a, false⟩ ∨ rule.GoesOver a v ∧ o = ⟨v, true⟩ := by
  cases rule with
  | stable =>
    simp only [Rule.observe, Rule.GoesOver, false_and, or_false]
    by_cases hv : a = v <;> simp [hv, eq_comm]
  | changeOnce =>
    simp only [Rule.observe, Rule.GoesOver]
    by_cases hv : a = v <;> simp [hv, eq_comm]
  | transition before after =>
    obtain ⟨rfl, hne⟩ := h
    simp only [Rule.observe, Rule.GoesOver, Observation.baseline]
    by_cases ha : v = after
    · subst ha
      simp [Ne.symm hne, eq_comm]
    · by_cases hb : v = a
      · subst hb
        simp [ha, eq_comm]
      · simp [ha, hb]

/-- After its change, a key takes only the value it went over to. -/
theorem observe_settled_iff {rule : Rule} {a b : String} (h : rule.GoesOver a b) (key v : String)
    (o : Observation) :
    rule.observe key (some ⟨b, true⟩) v = .ok o ↔ v = b ∧ o = ⟨b, true⟩ := by
  cases rule with
  | stable => exact h.elim
  | changeOnce =>
    simp only [Rule.observe]
    by_cases hv : b = v <;> simp [hv, eq_comm]
  | transition before after =>
    obtain ⟨rfl, -⟩ := h
    simp only [Rule.observe]
    by_cases hv : v = b <;> simp [hv, eq_comm]

theorem standing?_settled {rule : Rule} {a b : String} (h : rule.GoesOver a b) (key : String)
    (vs : List String) (x : Option Observation) :
    standing? key (some ⟨b, true⟩) (vs.map (rule, ·)) = some x ↔
      vs = List.replicate vs.length b ∧ x = some ⟨b, true⟩ := by
  induction vs with
  | nil => simp [standing?, eq_comm]
  | cons v vs ih =>
    simp only [List.map_cons, standing?, List.length_cons, List.replicate_succ, List.cons.injEq]
    cases ho : rule.observe key (some ⟨b, true⟩) v with
    | error e =>
      have hv : v ≠ b := fun hv => by
        rw [(observe_settled_iff h key v ⟨b, true⟩).2 ⟨hv, rfl⟩] at ho
        cases ho
      simp [hv]
    | ok o =>
      obtain ⟨rfl, rfl⟩ := (observe_settled_iff h key v o).1 ho
      simp only [true_and]
      exact ih

/-- The first value of two runs, the second of which is not empty, and what is left of them. -/
theorem cons_two_runs {v : String} {vs : List String} {a b : String} {m n : Nat}
    (h : v :: vs = List.replicate m a ++ List.replicate (n + 1) b) :
    v = b ∧ vs = List.replicate n b ∨
      v = a ∧ ∃ m', vs = List.replicate m' a ++ List.replicate (n + 1) b := by
  cases m with
  | zero =>
    rw [List.replicate_zero, List.nil_append, List.replicate_succ, List.cons.injEq] at h
    exact .inl h
  | succ m =>
    rw [List.replicate_succ, List.cons_append, List.cons.injEq] at h
    exact .inr ⟨h.1, m, h.2⟩

/-- From a first value on, a rule sees that value only, or sees it some times and then for ever one
value that it may go over to. -/
theorem standing?_baseline {rule : Rule} {a : String} (h : rule.Opens a) (key : String)
    (vs : List String) (x : Option Observation) :
    standing? key (some ⟨a, false⟩) (vs.map (rule, ·)) = some x ↔
      vs = List.replicate vs.length a ∧ x = some ⟨a, false⟩ ∨
        ∃ b m n, rule.GoesOver a b ∧ vs = List.replicate m a ++ List.replicate (n + 1) b ∧
          x = some ⟨b, true⟩ := by
  induction vs with
  | nil =>
    simp only [List.map_nil, standing?, List.length_nil, List.replicate_zero, true_and]
    constructor
    · intro e
      exact .inl (Option.some.inj e).symm
    · intro h
      rcases h with rfl | ⟨b, m, n, -, e, -⟩
      · rfl
      · simp [List.replicate_succ] at e
  | cons v vs ih =>
    simp only [List.map_cons, standing?, List.length_cons, List.replicate_succ, List.cons.injEq]
    cases ho : rule.observe key (some ⟨a, false⟩) v with
    | error e =>
      -- a value that is refused can be the next one of neither form
      have stays : v ≠ a := fun hv => by
        rw [(observe_baseline_iff h key v ⟨a, false⟩).2 (.inl ⟨hv, rfl⟩)] at ho
        cases ho
      have goes : ¬ rule.GoesOver a v := fun hg => by
        rw [(observe_baseline_iff h key v ⟨v, true⟩).2 (.inr ⟨hg, rfl⟩)] at ho
        cases ho
      simp only [reduceCtorEq, stays, false_and, false_or, false_iff]
      intro h
      obtain ⟨b, m, n, hg, e, -⟩ := h
      rcases cons_two_runs e with ⟨rfl, -⟩ | ⟨same, -⟩
      · exact goes hg
      · exact stays same
    | ok o =>
      rcases (observe_baseline_iff h key v o).1 ho with ⟨rfl, rfl⟩ | ⟨hg, rfl⟩
      · -- the first value again
        simp only [true_and]
        rw [ih]
        refine or_congr_right ⟨?_, ?_⟩
        · intro h
          obtain ⟨b, m, n, hg, rfl, rfl⟩ := h
          exact ⟨b, m + 1, n, hg, rfl, rfl⟩
        · intro h
          obtain ⟨b, m, n, hg, e, rfl⟩ := h
          rcases cons_two_runs e with ⟨same, -⟩ | ⟨-, m', e⟩
          · exact absurd same.symm hg.ne
          · exact ⟨b, m', n, hg, e, rfl⟩
      · -- it goes over
        simp only [hg.ne, false_and, false_or]
        rw [standing?_settled hg]
        constructor
        · intro h
          obtain ⟨e, rfl⟩ := h
          exact ⟨v, 0, vs.length, hg, by rw [List.replicate_zero, List.nil_append, ← e], rfl⟩
        · intro h
          obtain ⟨b, m, n, hb, e, rfl⟩ := h
          rcases cons_two_runs e with ⟨rfl, rfl⟩ | ⟨same, -⟩
          · rw [List.length_replicate]
            exact ⟨rfl, rfl⟩
          · exact absurd same hg.ne

/-! ## One rule, over all values of a key -/

theorem standing?_first (rule : Rule) (key a : String) (vs : List String)
    (x : Option Observation) :
    standing? key none ((a :: vs).map (rule, ·)) = some x ↔
      rule.Opens a ∧ standing? key (some ⟨a, false⟩) (vs.map (rule, ·)) = some x := by
  simp only [List.map_cons, standing?]
  cases ho : rule.observe key none a with
  | error e =>
    have closed : ¬ rule.Opens a := fun h => by
      rw [(observe_none_iff rule key a ⟨a, false⟩).2 ⟨h, rfl⟩] at ho
      cases ho
    simp only [reduceCtorEq, closed, false_and]
  | ok o =>
    obtain ⟨h, rfl⟩ := (observe_none_iff rule key a o).1 ho
    simp only [h, true_and]

/-- A sequence of two runs, told by its first value: the second run is missing, or it is of another
value. -/
theorem cons_eq_runs {a : String} {vs : List String} {c b : String} {m n : Nat}
    (h : a :: vs = List.replicate m c ++ List.replicate n b) :
    vs = List.replicate vs.length a ∨
      b ≠ a ∧ ∃ m' n', vs = List.replicate m' a ++ List.replicate (n' + 1) b := by
  cases m with
  | zero =>
    cases n with
    | zero => cases h
    | succ n =>
      rw [List.replicate_zero, List.nil_append, List.replicate_succ, List.cons.injEq] at h
      obtain ⟨rfl, rfl⟩ := h
      rw [List.length_replicate]
      exact .inl rfl
  | succ m =>
    rw [List.replicate_succ, List.cons_append, List.cons.injEq] at h
    obtain ⟨rfl, rfl⟩ := h
    cases n with
    | zero => exact .inl (by simp)
    | succ n =>
      by_cases hb : b = a
      · subst hb
        exact .inl (by simp)
      · exact .inr ⟨hb, m, n, rfl⟩

theorem Rule.admits_nil (rule : Rule) : rule.Admits [] := by
  cases rule with
  | stable => exact ⟨"", 0, rfl⟩
  | changeOnce => exact ⟨"", 0, "", 0, rfl⟩
  | transition before after => exact .inl rfl

/-- What a rule admits, told by the first value. -/
theorem Rule.admits_cons {rule : Rule} (moves : rule.Moves) (a : String) (vs : List String) :
    rule.Admits (a :: vs) ↔
      rule.Opens a ∧
        (vs = List.replicate vs.length a ∨
          ∃ b m n, rule.GoesOver a b ∧ vs = List.replicate m a ++ List.replicate (n + 1) b) := by
  -- every rule admits a run of one value; the rules differ in which run may follow it
  cases rule with
  | stable =>
    simp only [Admits, Opens, GoesOver, false_and, exists_false, or_false, true_and]
    constructor
    · intro h
      obtain ⟨c, n, e⟩ := h
      cases n with
      | zero => cases e
      | succ n =>
        rw [List.replicate_succ, List.cons.injEq] at e
        obtain ⟨rfl, rfl⟩ := e
        rw [List.length_replicate]
    · intro h
      exact ⟨a, vs.length + 1, by rw [List.replicate_succ, ← h]⟩
  | changeOnce =>
    simp only [Admits, Opens, GoesOver, true_and]
    constructor
    · intro h
      obtain ⟨c, m, b, n, e⟩ := h
      rcases cons_eq_runs e with h | ⟨hb, m', n', h⟩
      · exact .inl h
      · exact .inr ⟨b, m', n', hb, h⟩
    · intro h
      rcases h with h | ⟨b, m, n, -, rfl⟩
      · exact ⟨a, vs.length + 1, a, 0, by rw [List.replicate_succ, ← h]; simp⟩
      · exact ⟨a, m + 1, b, n + 1, rfl⟩
  | transition before after =>
    simp only [Admits, Opens, GoesOver, reduceCtorEq, false_or]
    constructor
    · intro h
      obtain ⟨m, n, hm, e⟩ := h
      obtain rfl : a = before := by
        obtain ⟨m, rfl⟩ := Nat.exists_eq_succ_of_ne_zero (Nat.ne_of_gt hm)
        rw [List.replicate_succ, List.cons_append, List.cons.injEq] at e
        exact e.1
      refine ⟨⟨rfl, moves⟩, ?_⟩
      rcases cons_eq_runs e with h | ⟨hb, m', n', h⟩
      · exact .inl h
      · exact .inr ⟨after, m', n', ⟨rfl, hb⟩, h⟩
    · intro h
      obtain ⟨⟨rfl, -⟩, h | ⟨b, m, n, ⟨rfl, -⟩, rfl⟩⟩ := h
      · exact ⟨vs.length + 1, 0, Nat.succ_pos _, by rw [List.replicate_succ, ← h]; simp⟩
      · exact ⟨m + 1, n + 1, Nat.succ_pos m, rfl⟩

/-- What a rule leaves standing, told by the first value. -/
theorem standing?_cons (rule : Rule) (key a : String) (vs : List String)
    (x : Option Observation) :
    standing? key none ((a :: vs).map (rule, ·)) = some x ↔
      rule.Opens a ∧
        (vs = List.replicate vs.length a ∧ x = some ⟨a, false⟩ ∨
          ∃ b m n, rule.GoesOver a b ∧ vs = List.replicate m a ++ List.replicate (n + 1) b ∧
            x = some ⟨b, true⟩) := by
  rw [standing?_first]
  exact and_congr_right fun h => standing?_baseline h key vs x

/-- No value is refused exactly when the values are in the language of the rule. -/
theorem standing?_isSome_iff_admits {rule : Rule} (moves : rule.Moves) (key : String)
    (vs : List String) :
    (standing? key none (vs.map (rule, ·))).isSome ↔ rule.Admits vs := by
  cases vs with
  | nil => exact ⟨fun _ => rule.admits_nil, fun _ => rfl⟩
  | cons a vs =>
    rw [Option.isSome_iff_exists, Rule.admits_cons moves]
    constructor
    · intro h
      obtain ⟨x, hx⟩ := h
      obtain ⟨h, ⟨e, -⟩ | ⟨b, m, n, hg, e, -⟩⟩ := (standing?_cons rule key a vs x).1 hx
      · exact ⟨h, .inl e⟩
      · exact ⟨h, .inr ⟨b, m, n, hg, e⟩⟩
    · intro h
      obtain ⟨h, e | ⟨b, m, n, hg, e⟩⟩ := h
      · exact ⟨_, (standing?_cons rule key a vs _).2 ⟨h, .inl ⟨e, rfl⟩⟩⟩
      · exact ⟨_, (standing?_cons rule key a vs _).2 ⟨h, .inr ⟨b, m, n, hg, e, rfl⟩⟩⟩

/-- The change is on record exactly when two of the values differ. -/
theorem changed_iff_differ {rule : Rule} {key : String} {vs : List String}
    {x : Option Observation} (h : standing? key none (vs.map (rule, ·)) = some x) :
    (∃ value, x = some ⟨value, true⟩) ↔ ∃ v ∈ vs, ∃ w ∈ vs, v ≠ w := by
  cases vs with
  | nil =>
    obtain rfl : none = x := Option.some.inj h
    simp
  | cons a vs =>
    obtain ⟨-, ⟨e, rfl⟩ | ⟨b, m, n, hg, e, rfl⟩⟩ := (standing?_cons rule key a vs x).1 h
    · -- one value for ever
      have all : ∀ v ∈ a :: vs, v = a := by
        rw [e, ← List.replicate_succ]
        exact fun v hv => List.eq_of_mem_replicate hv
      constructor
      · intro h
        obtain ⟨value, hv⟩ := h
        cases hv
      · intro h
        obtain ⟨v, hv, w, hw, hne⟩ := h
        exact absurd ((all v hv).trans (all w hw).symm) hne
    · refine ⟨fun _ => ⟨b, ?_, a, List.mem_cons_self, hg.ne⟩, fun _ => ⟨b, rfl⟩⟩
      rw [e]
      simp

/-! ## The verdict -/

/-- The values of a key that is not mixed, all under one rule. -/
theorem Unmixed.valuesOf_eq {rs : List Reading} (h : Unmixed rs) {key : String} {p : Rule × String}
    (hp : p ∈ valuesOf key rs) : valuesOf key rs = (observed key rs).map (p.1, ·) := by
  rw [observed, List.map_map]
  refine (List.map_id _).symm.trans (List.map_congr_left fun q hq => ?_)
  show q = (p.1, q.2)
  rw [h.same key p hp q hq]

/-- No value of a key is refused exactly when the key is unread or its values are in the language
of its rule. -/
theorem Unmixed.standing?_isSome_iff {rs : List Reading} (h : Unmixed rs) (key : String) :
    (standing? key none (valuesOf key rs)).isSome ↔
      ∀ p ∈ valuesOf key rs, p.1.Admits (observed key rs) := by
  cases hv : valuesOf key rs with
  | nil => simp [standing?]
  | cons p ps =>
    have hp : p ∈ valuesOf key rs := by rw [hv]; exact List.mem_cons_self
    rw [← hv, h.valuesOf_eq hp, standing?_isSome_iff_admits (h.moves key p hp)]
    refine ⟨fun ha q hq => ?_, fun ha => ?_⟩
    · rw [← h.valuesOf_eq hp] at hq
      rw [← h.same key p hp q hq]
      exact ha
    · exact ha (p.1, p.2) (by rw [← h.valuesOf_eq hp]; exact hp)

/-- What a requirement asks can be told from the values alone. -/
theorem Unmixed.shownBy_iff {rs : List Reading} (h : Unmixed rs) (consistent : Consistent rs)
    (r : Requirement) : r.ShownBy rs ↔ r.Shown rs := by
  cases r with
  | seen key => exact Iff.rfl
  | changed key =>
    obtain ⟨x, hx⟩ := Option.isSome_iff_exists.1 (consistent key)
    simp only [Requirement.ShownBy, Requirement.Shown, hx, Option.some.injEq]
    cases hv : valuesOf key rs with
    | nil =>
      rw [hv] at hx
      obtain rfl : none = x := Option.some.inj hx
      simp [observed, hv]
    | cons p ps =>
      have hp : p ∈ valuesOf key rs := by rw [hv]; exact List.mem_cons_self
      rw [h.valuesOf_eq hp] at hx
      exact changed_iff_differ hx

/-- A readable log whose keys are not mixed passes if and only if the values of every key are in the
language of its rule, and every requirement is shown. -/
theorem evaluate_passed_iff (t : Table) (lines : List String)
    (readable : ∀ line ∈ lines, t.Readable line) (unmixed : Unmixed (t.readings lines)) :
    (t.evaluate lines).passed = true ↔
      (∀ key, ∀ p ∈ valuesOf key (t.readings lines), p.1.Admits (observed key (t.readings lines))) ∧
        ∀ r ∈ t.requirements, r.Shown (t.readings lines) := by
  rw [evaluate_passed_iff_consistent readable]
  constructor
  · intro h
    obtain ⟨consistent, shown⟩ := h
    exact ⟨fun key => (unmixed.standing?_isSome_iff key).1 (consistent key),
      fun r hr => (unmixed.shownBy_iff consistent r).1 (shown r hr)⟩
  · intro h
    obtain ⟨admitted, shown⟩ := h
    have consistent : Consistent (t.readings lines) :=
      fun key => (unmixed.standing?_isSome_iff key).2 (admitted key)
    exact ⟨consistent, fun r hr => (unmixed.shownBy_iff consistent r).2 (shown r hr)⟩

/-- Lines that give a letter a value: the value of each letter may change once, that of `x` has to,
and `y` is to be given one. -/
def assignments : Table where
  shapes :=
    [{ start := ""
       judged? := some
        { pattern := ⟨"^(.)=(.*)$", _, rfl⟩
          checks := [⟨.group 1, .value 2 .changeOnce⟩]
          within := by decide } }]
  requirements := [.changed "x", .seen "y"]
  nodup := by decide

theorem assignments_admitted :
    (∀ line ∈ ["x=1", "y=5", "x=2"], assignments.Readable line) ∧
      Unmixed (assignments.readings ["x=1", "y=5", "x=2"]) ∧
      (∀ key, ∀ p ∈ valuesOf key (assignments.readings ["x=1", "y=5", "x=2"]),
        p.1.Admits (observed key (assignments.readings ["x=1", "y=5", "x=2"]))) ∧
      ∀ r ∈ assignments.requirements, r.Shown (assignments.readings ["x=1", "y=5", "x=2"]) := by
  have readable : ∀ line ∈ ["x=1", "y=5", "x=2"], assignments.Readable line := by decide +kernel
  have unmixed : Unmixed (assignments.readings ["x=1", "y=5", "x=2"]) := by decide +kernel
  have passed : (assignments.evaluate ["x=1", "y=5", "x=2"]).passed = true := by decide +kernel
  exact ⟨readable, unmixed, (evaluate_passed_iff assignments _ readable unmixed).1 passed⟩

end PatchTrial.Validator
