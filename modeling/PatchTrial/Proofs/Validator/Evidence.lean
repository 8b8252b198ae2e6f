import PatchTrial.Proofs.Validator.Readings

/-!
What a validation does not forget. A log may be judged to its end, whatever becomes of its lines;
the state then only learns, also from a line that is refused after some of its checks.

What is proved:
  1. `Table.grows_step` and `Table.grows_stateAfter`: keys that were met stay met, keys that appeared
     stay so, and a value that was reached by a change is never replaced.
  2. `Requirement.met_of_grows`: so a requirement that is met stays met.
  3. `Table.patched_stateAfter_iff`: the patch shows in a state exactly when some key made its change
     or some key appeared.
  4. `Table.evidence_stays`: so every line is counted once, and nothing that was shown up to it is
     taken back by it or by any line after it.
-/
namespace PatchTrial.Validator

/-- The state after the lines of a log, whatever became of them. -/
def Table.stateAfter (t : Table) : State → List String → State
  | s, [] => s
  | s, line :: rest => stateAfter t (t.step s line).1 rest

/-- A state knows what another one knew: the keys that were met and those that appeared, which keys
have an observation, and the values that were reached by a change. -/
structure State.Grows (s s' : State) : Prop where
  seen : ∀ key, s.hasSeen key = true → s'.hasSeen key = true
  appeared : ∀ key ∈ s.appeared, key ∈ s'.appeared
  known : ∀ key, (s.observation? key).isSome → (s'.observation? key).isSome
  settled : ∀ key value, s.observation? key = some ⟨value, true⟩ →
    s'.observation? key = some ⟨value, true⟩

/-- Every key has at most one observation. -/
def State.Single (s : State) : Prop := (s.observations.map Prod.fst).Nodup

/-! ## One check -/

/-- No rule replaces a value that was reached by a change. -/
theorem Rule.observe_changed {rule : Rule} {key value found : String} {o : Observation}
    (h : rule.observe key (some ⟨value, true⟩) found = .ok o) : o = ⟨value, true⟩ := by
  cases rule with
  | stable =>
    simp only [observe] at h
    split at h <;> cases h
    rfl
  | changeOnce =>
    simp only [observe, if_true] at h
    split at h <;> cases h
    rfl
  | transition before after =>
    simp only [observe, if_true] at h
    split at h <;> cases h
    rfl

namespace State

theorem Grows.refl (s : State) : s.Grows s := ⟨fun _ => id, fun _ => id, fun _ => id, fun _ _ => id⟩

theorem Grows.trans {s s' s'' : State} (h : s.Grows s') (h' : s'.Grows s'') : s.Grows s'' where
  seen key hk := h'.seen key (h.seen key hk)
  appeared key hk := h'.appeared key (h.appeared key hk)
  known key hk := h'.known key (h.known key hk)
  settled key value hk := h'.settled key value (h.settled key value hk)

theorem grows_nextLine (s : State) : s.Grows s.nextLine :=
  ⟨fun _ => id, fun _ => id, fun _ => id, fun _ _ => id⟩

theorem grows_meet (s : State) (key : String) : s.Grows (s.meet key) where
  seen other h := by
    simp only [hasSeen, meet, List.contains_iff_mem] at h ⊢
    exact List.mem_cons_of_mem key h
  appeared _ := id
  known _ := id
  settled _ _ := id

theorem grows_appear (s : State) (key : String) : s.Grows (s.appear key) where
  seen _ := id
  appeared _ := List.mem_cons_of_mem key
  known _ := id
  settled _ _ := id

/-- An observation is recorded that leaves a change as it is. -/
theorem grows_record {s : State} {key : String} {o : Observation}
    (h : ∀ value, s.observation? key = some ⟨value, true⟩ → o = ⟨value, true⟩) :
    s.Grows (s.record key o) where
  seen _ := id
  appeared _ := id
  known other hk := by
    rw [observation?_record]
    by_cases e : other = key
    · rw [if_pos e]
      rfl
    · rw [if_neg e]
      exact hk
  settled other value hk := by
    rw [observation?_record]
    by_cases e : other = key
    · subst e
      rw [if_pos rfl, h value hk]
    · rw [if_neg e]
      exact hk

theorem changed_iff (s : State) (key : String) :
    s.changed key = true ↔ ∃ value, s.observation? key = some ⟨value, true⟩ := by
  rw [changed]
  cases s.observation? key with
  | none => simp
  | some o =>
    obtain ⟨value, changed⟩ := o
    simp

end State

theorem Observations.keys_put (key : String) (o : Observation) (l : Observations) :
    (l.put key o).map Prod.fst =
      if key ∈ l.map Prod.fst then l.map Prod.fst else l.map Prod.fst ++ [key] := by
  induction l with
  | nil => simp [put]
  | cons e rest ih =>
    obtain ⟨k, last⟩ := e
    by_cases hk : k = key
    · subst hk
      simp [put]
    · rw [put, if_neg hk, List.map_cons, ih]
      by_cases hm : key ∈ rest.map Prod.fst
      · rw [if_pos hm, if_pos (by simp [hm])]
        rfl
      · rw [if_neg hm, if_neg (by simpa [Ne.symm hk] using hm)]
        rfl

theorem State.Single.record {s : State} (h : s.Single) (key : String) (o : Observation) :
    (s.record key o).Single := by
  show ((s.observations.put key o).map Prod.fst).Nodup
  rw [Observations.keys_put]
  by_cases hm : key ∈ s.observations.map Prod.fst
  · rw [if_pos hm]
    exact h
  · rw [if_neg hm, List.nodup_append]
    refine ⟨h, List.pairwise_singleton _ key, fun k hk k' hk' e => ?_⟩
    rw [List.mem_singleton.1 hk'] at e
    exact hm (e ▸ hk)

/-- What one check can do to a state, also when it is broken: nothing, or it meets a key, and may
also let it appear or record what its rule made of a value. -/
theorem Check.apply_state (c : Check) (captures : Regex.Captures) (s : State) :
    (c.apply captures s).1 = s ∨ ∃ key, (c.apply captures s).1 = s.meet key ∨
      (c.apply captures s).1 = (s.meet key).appear key ∨
      ∃ rule value o, Rule.observe rule key (s.observation? key) value = .ok o ∧
        (c.apply captures s).1 = (s.meet key).record key o := by
  unfold apply
  cases c.key.resolve captures with
  | none => exact .inl rfl
  | some key =>
    refine .inr ⟨key, ?_⟩
    cases c.test with
    | appears => exact .inr (.inl rfl)
    | value group rule =>
      dsimp only
      cases captures.get? group with
      | none => exact .inl rfl
      | some value =>
        rw [State.observation?_meet]
        dsimp only
        cases ho : rule.observe key (s.observation? key) value with
        | ok o => exact .inr (.inr ⟨rule, value, o, ho, rfl⟩)
        | error v => exact .inl rfl

theorem Check.grows_apply (c : Check) (captures : Regex.Captures) (s : State) :
    s.Grows (c.apply captures s).1 := by
  rcases c.apply_state captures s with e | ⟨key, e | e | ⟨rule, value, o, ho, e⟩⟩
  · rw [e]
    exact .refl s
  · rw [e]
    exact s.grows_meet key
  · rw [e]
    exact (s.grows_meet key).trans ((s.meet key).grows_appear key)
  · rw [e]
    refine (s.grows_meet key).trans (State.grows_record fun value' hv => ?_)
    rw [State.observation?_meet] at hv
    rw [hv] at ho
    exact Rule.observe_changed ho

theorem Check.single_apply (c : Check) (captures : Regex.Captures) {s : State} (h : s.Single) :
    (c.apply captures s).1.Single := by
  rcases c.apply_state captures s with e | ⟨key, e | e | ⟨_, _, o, -, e⟩⟩ <;> rw [e]
  · exact h
  · exact h
  · exact h
  · exact (show (s.meet key).Single from h).record key o

theorem Check.lineNo_apply (c : Check) (captures : Regex.Captures) (s : State) :
    (c.apply captures s).1.lineNo = s.lineNo := by
  rcases c.apply_state captures s with e | ⟨key, e | e | ⟨_, _, o, -, e⟩⟩ <;> rw [e] <;> rfl

/-! ## Lines and logs -/

/-- Whatever a check keeps of every state, the checks of a line keep. -/
theorem applyAll_keeps {P : State → Prop} {captures : Regex.Captures}
    (h : ∀ c : Check, ∀ s, P s → P (c.apply captures s).1) (checks : List Check) {s : State}
    (hs : P s) : P (applyAll captures checks s).1 := by
  induction checks generalizing s with
  | nil => exact hs
  | cons c rest ih =>
    have first := h c s hs
    rw [applyAll]
    rcases e : c.apply captures s with ⟨s', _ | v⟩
    · rw [e] at first
      exact ih first
    · rw [e] at first
      exact first

/-- What a line can do to a state, also when it is refused: it is counted, and some checks are
applied to it. -/
theorem Table.step_state (t : Table) (s : State) (line : String) :
    ∃ captures checks, (t.step s line).1 = (applyAll captures checks s.nextLine).1 := by
  have nothing : ∃ captures checks, s.nextLine = (applyAll captures checks s.nextLine).1 :=
    ⟨⟨[]⟩, [], rfl⟩
  rw [step]
  cases Shape.dispatch line t.shapes with
  | none => exact nothing
  | some shape =>
    dsimp only
    rw [Shape.judge]
    cases shape.judged? with
    | none => exact nothing
    | some j =>
      dsimp only
      cases j.pattern.captures? line with
      | none => exact nothing
      | some captures =>
        refine ⟨captures, j.checks, ?_⟩
        dsimp only
        rcases applyAll captures j.checks s.nextLine with ⟨s', _ | v⟩ <;> rfl

namespace Table
variable (t : Table)

theorem lineNo_step (s : State) (line : String) : (t.step s line).1.lineNo = s.lineNo + 1 := by
  obtain ⟨captures, checks, e⟩ := t.step_state s line
  rw [e]
  exact applyAll_keeps (P := fun s' => s'.lineNo = s.lineNo + 1)
    (fun c s' h => (c.lineNo_apply captures s').trans h) checks rfl

theorem grows_step (s : State) (line : String) : s.Grows (t.step s line).1 := by
  obtain ⟨captures, checks, e⟩ := t.step_state s line
  rw [e]
  exact applyAll_keeps (P := s.Grows) (fun c s' h => h.trans (c.grows_apply captures s')) checks
    s.grows_nextLine

theorem single_step {s : State} (h : s.Single) (line : String) : (t.step s line).1.Single := by
  obtain ⟨captures, checks, e⟩ := t.step_state s line
  rw [e]
  exact applyAll_keeps (fun c _ => c.single_apply captures) checks (s := s.nextLine) h

theorem stateAfter_append (s : State) (xs ys : List String) :
    t.stateAfter s (xs ++ ys) = t.stateAfter (t.stateAfter s xs) ys := by
  induction xs generalizing s with
  | nil => rfl
  | cons line rest ih => exact ih (t.step s line).1

/-- Whatever a line keeps of every state, a log keeps. -/
theorem stateAfter_keeps {P : State → Prop} (h : ∀ s line, P s → P (t.step s line).1)
    (lines : List String) {s : State} (hs : P s) : P (t.stateAfter s lines) := by
  induction lines generalizing s with
  | nil => exact hs
  | cons line rest ih => exact ih (h s line hs)

theorem grows_stateAfter (s : State) (lines : List String) : s.Grows (t.stateAfter s lines) :=
  t.stateAfter_keeps (fun s' line h => h.trans (t.grows_step s' line)) lines (.refl s)

theorem single_stateAfter (lines : List String) : (t.stateAfter {} lines).Single :=
  t.stateAfter_keeps (P := State.Single) (fun _ line h => t.single_step h line) lines List.nodup_nil

theorem lineNo_stateAfter (s : State) (lines : List String) :
    (t.stateAfter s lines).lineNo = s.lineNo + lines.length := by
  induction lines generalizing s with
  | nil => rfl
  | cons line rest ih =>
    show (t.stateAfter (t.step s line).1 rest).lineNo = _
    rw [ih, lineNo_step, List.length_cons]
    omega

end Table

/-! ## What was shown -/

theorem Requirement.met_of_grows {s s' : State} (h : s.Grows s') {r : Requirement}
    (hm : r.met s = true) : r.met s' = true := by
  cases r with
  | seen key => exact h.seen key hm
  | changed key =>
    obtain ⟨value, hv⟩ := (s.changed_iff key).1 hm
    exact (s'.changed_iff key).2 ⟨value, h.settled key value hv⟩

theorem Table.unmet_eq_nil_iff (t : Table) (s : State) :
    t.unmet s = [] ↔ ∀ r ∈ t.requirements, r.met s = true := by
  rw [unmet, List.filter_eq_nil_iff]
  simp only [Bool.not_eq_true', Bool.not_eq_false]

/-- An observation that is in the list is the one that is found, if every key has only one. -/
theorem Observations.lookup_of_mem {key : String} {o : Observation} {l : Observations}
    (nodup : (l.map Prod.fst).Nodup) (hm : (key, o) ∈ l) : l.lookup key = some o := by
  induction l with
  | nil => cases hm
  | cons e rest ih =>
    obtain ⟨k, last⟩ := e
    rw [List.map_cons, List.nodup_cons] at nodup
    rw [lookup_cons]
    rcases List.mem_cons.1 hm with e | hm
    · cases e
      rw [if_pos rfl]
    · have hne : key ≠ k := by
        intro e
        rw [← e] at nodup
        exact nodup.1 (List.mem_map.2 ⟨(key, o), hm, rfl⟩)
      rw [if_neg hne]
      exact ih nodup.2 hm

theorem State.patched_of_changed {s : State} {key : String} (h : s.changed key = true) :
    s.patched = true := by
  obtain ⟨value, hv⟩ := (s.changed_iff key).1 h
  have mem : (key, (⟨value, true⟩ : Observation)) ∈ s.observations := by
    obtain ⟨before, after, e, -⟩ := List.lookup_eq_some_iff.1 hv
    rw [e]
    simp
  rw [patched, Bool.or_eq_true, List.any_eq_true]
  exact .inr ⟨_, mem, rfl⟩

theorem State.patched_of_appeared {s : State} {key : String} (h : key ∈ s.appeared) :
    s.patched = true := by
  rw [patched, Bool.or_eq_true, Bool.not_eq_true', List.isEmpty_eq_false_iff]
  exact .inl (List.ne_nil_of_mem h)

/-- The patch shows in the state after a log exactly when some key made its change or some key that
was to appear did. -/
theorem Table.patched_stateAfter_iff (t : Table) (lines : List String) :
    (t.stateAfter {} lines).patched = true ↔
      (∃ key, (t.stateAfter {} lines).changed key = true) ∨
        ∃ key, key ∈ (t.stateAfter {} lines).appeared := by
  have single := t.single_stateAfter lines
  generalize t.stateAfter {} lines = s at single ⊢
  constructor
  · intro h
    rw [State.patched, Bool.or_eq_true, Bool.not_eq_true', List.isEmpty_eq_false_iff,
      List.any_eq_true] at h
    rcases h with some | ⟨⟨key, value, changed⟩, hm, hc⟩
    · exact .inr (List.exists_mem_of_ne_nil _ some)
    · obtain rfl : changed = true := hc
      exact .inl ⟨key, (s.changed_iff key).2 ⟨value, Observations.lookup_of_mem single hm⟩⟩
  · intro h
    rcases h with ⟨key, hk⟩ | ⟨key, hk⟩
    · exact State.patched_of_changed hk
    · exact State.patched_of_appeared hk

/-- A state shows what another one showed: what was met, that the patch took effect, which keys made
their change and to what, and which keys have a value. -/
structure State.Keeps (s s' : State) : Prop where
  seen : ∀ key, s.hasSeen key = true → s'.hasSeen key = true
  patched : s.patched = true → s'.patched = true
  changed : ∀ key, s.changed key = true → s'.changed key = true
  frozen : ∀ key, s.changed key = true → s'.observation? key = s.observation? key
  known : ∀ key, (s.observation? key).isSome → (s'.observation? key).isSome

/-- A longer log shows what a shorter one showed. -/
theorem Table.stateAfter_keeps_append (t : Table) (lines more : List String) :
    (t.stateAfter {} lines).Keeps (t.stateAfter {} (lines ++ more)) := by
  have grows : (t.stateAfter {} lines).Grows (t.stateAfter {} (lines ++ more)) := by
    rw [t.stateAfter_append]
    exact t.grows_stateAfter _ more
  have frozen : ∀ key, (t.stateAfter {} lines).changed key = true →
      (t.stateAfter {} (lines ++ more)).observation? key =
        (t.stateAfter {} lines).observation? key := by
    intro key h
    obtain ⟨value, hv⟩ := (State.changed_iff _ key).1 h
    rw [hv, grows.settled key value hv]
  have changed : ∀ key, (t.stateAfter {} lines).changed key = true →
      (t.stateAfter {} (lines ++ more)).changed key = true :=
    fun key => Requirement.met_of_grows grows (r := .changed key)
  refine ⟨grows.seen, fun h => ?_, changed, frozen, grows.known⟩
  -- only of a state that a log leads to: there a key has no second observation behind its first
  rcases (t.patched_stateAfter_iff lines).1 h with ⟨key, hk⟩ | ⟨key, hk⟩
  · exact State.patched_of_changed (changed key hk)
  · exact State.patched_of_appeared (grows.appeared key hk)

/-- Whatever becomes of a line after any log, it is counted once, and whatever was shown before it is
shown after it and after any lines that follow. -/
theorem Table.evidence_stays (t : Table) (lines : List String) (line : String) :
    (t.step (t.stateAfter {} lines) line).1.lineNo = (t.stateAfter {} lines).lineNo + 1 ∧
      ∀ more, (t.stateAfter {} lines).Keeps
        (t.stateAfter (t.step (t.stateAfter {} lines) line).1 more) := by
  refine ⟨t.lineNo_step _ line, fun more => ?_⟩
  have whole : t.stateAfter {} (lines ++ line :: more) =
      t.stateAfter (t.step (t.stateAfter {} lines) line).1 more := t.stateAfter_append {} lines _
  rw [← whole]
  exact t.stateAfter_keeps_append lines (line :: more)

end PatchTrial.Validator
