import PatchTrial.Proofs.Plan.Runs
import PatchTrial.Proofs.Regex.AnyText
import PatchTrial.Proofs.Validator.Histories
import PatchTrial.Proofs.Validator.Language
import PatchTrial.Validator.Judgment

/-!
What a log that passes says about the patch. A program that was never patched should not pass, which
is what the requirements at the end of a log are for. They are met by what was observed of a key, and
not every observation comes from the patch.

What is proved:
  1. `Asks.patched`: a required change shows the patch, and so does a required key that only checks
     for its appearance can read.
  2. `Table.steady_passes`: requirements of other kinds, or none, are met by a program that prints one
     line and goes on with it.
  3. `showsPatch_iff_asks`: so the logs that pass show the patch for every preset, and for spelled out
     validators exactly if something is required that only the patch can bring about.
-/
namespace PatchTrial.Validator

/-- Whatever log a validator of this description passes, the patch shows in its last state. -/
def Spec.ShowsPatch (spec : Spec) : Prop :=
  ∀ v : Validator, spec.compile = .ok v.table → ∀ log content, (v.judge log content).passed = true →
    ∃ bytes, content = .ok bytes ∧ (v.table.stateAfter {} (logLines bytes)).patched = true

/-- Whether the key of a check may be a given one: the text of a group may be any. -/
def KeyRef.MayBe (key : String) : KeyRef → Prop
  | named name => name = key
  | group _ => True

instance (key : String) : DecidablePred (KeyRef.MayBe key)
  | .named name => inferInstanceAs (Decidable (name = key))
  | .group _ => .isTrue trivial

/-- No check can read the key, save for whether it appears. -/
def OnlyAppears (specs : List ShapeSpec) (key : String) : Prop :=
  ∀ s ∈ specs, ∀ c ∈ s.checks, c.key.MayBe key → c.test = .appears

instance (specs : List ShapeSpec) (key : String) : Decidable (OnlyAppears specs key) :=
  inferInstanceAs (Decidable (∀ s ∈ specs, ∀ c ∈ s.checks, c.key.MayBe key → c.test = .appears))

/-- Requirements that ask for what only the patch can bring about, the keys of `K` being those that
can only appear: a change, or one of these keys. -/
def Asks (K : String → Prop) (requirements : List Requirement) : Prop :=
  (∃ key, .changed key ∈ requirements) ∨ ∃ key, K key ∧ .seen key ∈ requirements

/-! ## Where a reading comes from -/

theorem mem_of_dispatch {line : String} {shapes : List Shape} {shape : Shape}
    (h : Shape.dispatch line shapes = some shape) : shape ∈ shapes := by
  induction shapes generalizing shape with
  | nil => cases h
  | cons s rest ih =>
    rw [Shape.dispatch] at h
    split at h
    · split at h
      · next longest found =>
        split at h
        · cases h
          exact List.mem_cons_of_mem s (ih found)
        · cases h
          exact List.mem_cons_self
      · cases h
        exact List.mem_cons_self
    · exact List.mem_cons_of_mem s (ih h)

/-- Every reading is that of a check of some shape. -/
theorem exists_check_of_mem_readings {t : Table} {lines : List String} {r : Reading}
    (h : r ∈ t.readings lines) :
    ∃ shape ∈ t.shapes, ∃ j, shape.judged? = some j ∧
      ∃ c ∈ j.checks, ∃ captures, c.reading? captures = some r := by
  obtain ⟨line, -, hr⟩ := List.mem_flatMap.1 h
  rw [Table.lineReadings] at hr
  cases hd : Shape.dispatch line t.shapes with
  | none =>
    rw [hd] at hr
    cases hr
  | some shape =>
    rw [hd] at hr
    dsimp only at hr
    cases hj : shape.judged? with
    | none =>
      rw [hj] at hr
      cases hr
    | some j =>
      rw [hj] at hr
      dsimp only at hr
      cases hc : j.pattern.captures? line with
      | none =>
        rw [hc] at hr
        cases hr
      | some captures =>
        rw [hc] at hr
        obtain ⟨c, hm, hr⟩ := List.mem_filterMap.1 hr
        exact ⟨shape, mem_of_dispatch hd, j, hj, c, hm, captures, hr⟩

theorem KeyRef.mayBe_of_resolve {k : KeyRef} {captures : Regex.Captures} {key : String}
    (h : k.resolve captures = some key) : k.MayBe key := by
  cases k with
  | named name => exact Option.some.inj h
  | group index => trivial

theorem Check.mayBe_of_reading? {c : Check} {captures : Regex.Captures} {r : Reading}
    (h : c.reading? captures = some r) : c.key.MayBe r.key := by
  obtain ⟨key, test⟩ := c
  simp only [reading?] at h
  cases hk : key.resolve captures with
  | none => simp [hk] at h
  | some k =>
    rw [hk] at h
    have mayBe := KeyRef.mayBe_of_resolve hk
    cases test with
    | appears =>
      cases h
      exact mayBe
    | value group rule =>
      obtain ⟨value, -, rfl⟩ := Option.map_eq_some_iff.1 h
      exact mayBe

theorem Check.value?_of_appears {c : Check} {captures : Regex.Captures} {r : Reading}
    (h : c.reading? captures = some r) (appears : c.test = .appears) : r.value? = none := by
  obtain ⟨key, test⟩ := c
  obtain rfl : test = .appears := appears
  simp only [reading?] at h
  cases hk : key.resolve captures with
  | none => simp [hk] at h
  | some k =>
    rw [hk] at h
    cases h
    rfl

/-! ## Requirements that ask for the patch -/

/-- A key that can only appear was read without a value. -/
theorem OnlyAppears.value?_eq_none {specs : List ShapeSpec} {t : Table} {r : Reading}
    (only : OnlyAppears specs r.key) (yields : List.Forall₂ ShapeSpec.Yields specs t.shapes)
    {lines : List String} (hr : r ∈ t.readings lines) : r.value? = none := by
  obtain ⟨shape, hshape, j, hj, c, hc, captures, read⟩ := exists_check_of_mem_readings hr
  obtain ⟨s, hs, hy⟩ := exists_of_yields yields hshape
  rw [hy.checks_eq hj] at hc
  exact c.value?_of_appears read (only s hs c hc (c.mayBe_of_reading? read))

/-- A log that passes shows the patch if that is what is required. -/
theorem Asks.patched {specs : List ShapeSpec} {requirements : List Requirement}
    (asks : Asks (OnlyAppears specs) requirements) {t : Table}
    (ht : Table.ofSpecs specs requirements = .ok t) {lines : List String}
    (passed : (t.evaluate lines).passed = true) : (t.stateAfter {} lines).patched = true := by
  obtain ⟨yields, rfl⟩ := ofSpecs_ok_iff.1 ht
  obtain ⟨accepted, unmet⟩ := (t.passed_iff lines).1 passed
  have met : ∀ r ∈ t.requirements, r.met (t.stateAfter {} lines) = true :=
    (t.unmet_eq_nil_iff _).1 unmet
  rcases asks with ⟨key, hk⟩ | ⟨key, only, hk⟩
  · exact State.patched_of_changed (met (.changed key) hk)
  · have records := records_of_accepts accepted
    obtain ⟨r, hr, rfl⟩ := (records.seen key).1 (met (.seen key) hk)
    have plain : r = ⟨r.key, none⟩ := by rw [← only.value?_eq_none yields hr]
    exact State.patched_of_appeared ((records.appeared r.key).2 (plain ▸ hr))

theorem Asks.mono {K K' : String → Prop} (h : ∀ key, K key → K' key)
    {requirements : List Requirement} (asks : Asks K requirements) : Asks K' requirements :=
  asks.imp_right fun ⟨key, hk, hm⟩ => ⟨key, h key hk, hm⟩

/-- Every preset asks for the patch. -/
theorem Preset.asks (p : Preset) : Asks (OnlyAppears p.shapes) p.requirements := by
  cases p with
  | fieldRelocation => exact .inl ⟨"field1", by decide⟩
  | multipleUnits => exact .inl ⟨"field1", by decide⟩
  | nestedTypes => exact .inr ⟨"new fields", by decide, by decide⟩
  | newVariable => exact .inr ⟨"new variables", by decide, by decide⟩
  | pointers => exact .inl ⟨"alpha", by decide⟩
  | unionsEnums => exact .inl ⟨"beta", by decide⟩
  | constants => exact .inl ⟨"alpha", by decide⟩

theorem Spec.showsPatch_of_tables {spec : Spec}
    (h : ∀ t, spec.compile = .ok t → ∀ lines, (t.evaluate lines).passed = true →
      (t.stateAfter {} lines).patched = true) : spec.ShowsPatch := by
  intro v hv log content passed
  cases content with
  | error e => cases passed
  | ok bytes => exact ⟨bytes, rfl, h v.table hv (logLines bytes) passed⟩

theorem Spec.showsPatch_of_named {spec : Spec} {name : String} (hn : spec.preset = some name) :
    spec.ShowsPatch := by
  refine showsPatch_of_tables fun t ht lines passed => ?_
  obtain ⟨p, -, hp⟩ := compile_named hn ht
  exact p.asks.patched hp passed

theorem Spec.showsPatch_of_asks {spec : Spec} (hn : spec.preset = none)
    (asks : Asks (OnlyAppears spec.shapes) spec.require) : spec.ShowsPatch := by
  refine showsPatch_of_tables fun t ht lines passed => ?_
  exact asks.patched (ofSpecs_ok_iff.2 ((compile_spelled_iff hn).1 ht).2) passed

/-! ## Requirements that do not -/

def Requirement.key : Requirement → String
  | changed key => key
  | seen key => key

/-- A check that holds the key of a requirement to the value that is printed first. -/
def steadyCheck (r : Requirement) : Check := ⟨.named r.key, .value 1 .stable⟩

/-- Lines whose first character is left out give one value to the keys of all requirements, and none
of these keys may change. -/
def Spec.steady (requirements : List Requirement) : Spec where
  shapes :=
    [{ start := "", pattern := some Regex.afterFirst.text, checks := requirements.map steadyCheck }]
  require := requirements

def Shape.steady (requirements : List Requirement) : Shape where
  start := ""
  judged? := some
    { pattern := .afterFirst
      checks := requirements.map steadyCheck
      within := by
        intro c hc g hg
        obtain ⟨r, -, rfl⟩ := List.mem_map.1 hc
        rw [List.mem_singleton.1 hg]
        decide }

def Table.steady (requirements : List Requirement) : Table where
  shapes := [.steady requirements]
  requirements
  nodup := List.pairwise_singleton _ _

section Steady
variable (requirements : List Requirement)

theorem compile_steady : (Spec.steady requirements).compile = .ok (.steady requirements) :=
  (Spec.compile_spelled_iff rfl).2
    ⟨List.cons_ne_nil _ _, .cons (.judged _ rfl rfl) .nil, rfl⟩

/-- The readings of a line of one character. -/
def steadyReadings : List Reading := requirements.map fun r => ⟨r.key, some (.stable, "")⟩

theorem dispatch_steady :
    Shape.dispatch "x" (Table.steady requirements).shapes = some (.steady requirements) := rfl

theorem captures?_x : Regex.afterFirst.captures? "x" = some ⟨[(1, ⟨[], 0⟩)]⟩ :=
  Regex.captures?_afterFirst 'x' []

theorem readable_steady : (Table.steady requirements).Readable "x" := by
  simp only [Table.Readable, dispatch_steady, Shape.steady, captures?_x]
  intro c hc g hg
  obtain ⟨r, -, rfl⟩ := List.mem_map.1 hc
  rw [List.mem_singleton.1 hg]
  rfl

theorem readings_steady :
    (Table.steady requirements).readings ["x"] = steadyReadings requirements := by
  rw [Table.readings_cons, Table.readings_nil, List.append_nil]
  simp only [Table.lineReadings, dispatch_steady, Shape.steady, captures?_x]
  rw [List.filterMap_map, steadyReadings, ← List.filterMap_eq_map]
  rfl

theorem eq_of_mem_steady {key : String} {p : Rule × String}
    (hp : p ∈ valuesOf key (steadyReadings requirements)) : p = (.stable, "") := by
  obtain ⟨reading, hm, -, hv⟩ := mem_valuesOf.1 hp
  obtain ⟨r, -, rfl⟩ := List.mem_map.1 hm
  exact (Option.some.inj hv).symm

theorem unmixed_steady : Unmixed (steadyReadings requirements) where
  same key p hp q hq := by
    rw [eq_of_mem_steady requirements hp, eq_of_mem_steady requirements hq]
  moves key p hp := by
    rw [eq_of_mem_steady requirements hp]
    trivial

theorem eq_of_mem_observed_steady {key value : String}
    (hv : value ∈ observed key (steadyReadings requirements)) : value = "" := by
  obtain ⟨p, hp, rfl⟩ := List.mem_map.1 hv
  rw [eq_of_mem_steady requirements hp]

theorem consistent_steady : Consistent (steadyReadings requirements) := by
  intro key
  refine ((unmixed_steady requirements).standing?_isSome_iff key).2 fun p hp => ?_
  rw [eq_of_mem_steady requirements hp]
  exact ⟨"", _, List.eq_replicate_of_mem fun v hv => eq_of_mem_observed_steady requirements hv⟩

theorem not_changed_steady (key : String) :
    ¬ (Requirement.changed key).ShownBy (steadyReadings requirements) := by
  rw [(unmixed_steady requirements).shownBy_iff (consistent_steady requirements)]
  rintro ⟨v, hv, w, hw, hne⟩
  rw [eq_of_mem_observed_steady requirements hv, eq_of_mem_observed_steady requirements hw] at hne
  exact hne rfl

/-- Unless a change is required, a log of one line passes in which no patch shows. -/
theorem Table.steady_passes (h : ∀ key, .changed key ∉ requirements) :
    ((Table.steady requirements).evaluate ["x"]).passed = true ∧
      ((Table.steady requirements).stateAfter {} ["x"]).patched = false := by
  have readable : ∀ line ∈ ["x"], (Table.steady requirements).Readable line :=
    List.forall_mem_singleton.2 (readable_steady requirements)
  constructor
  · rw [evaluate_passed_iff_consistent readable, readings_steady]
    refine ⟨consistent_steady requirements, fun r hr => ?_⟩
    cases r with
    | changed key => exact absurd hr (h key)
    | seen key => exact ⟨_, List.mem_map.2 ⟨.seen key, hr, rfl⟩, rfl⟩
  · have accepted : (Table.steady requirements).Accepts ["x"] := by
      rw [accepts_iff_consistent, readings_steady]
      exact ⟨readable, consistent_steady requirements⟩
    have records := records_of_accepts accepted
    rw [readings_steady] at records
    rw [← Bool.not_eq_true, Table.patched_stateAfter_iff]
    rintro (⟨key, changed⟩ | ⟨key, appeared⟩)
    · exact not_changed_steady requirements key ((records.met_iff (.changed key)).1 changed)
    · obtain ⟨r, -, e⟩ := List.mem_map.1 ((records.appeared key).1 appeared)
      cases e

end Steady

/-- Requirements that do not ask for the patch do not show it. -/
theorem exists_unshown {K : String → Prop} {requirements : List Requirement}
    (h : ¬ Asks K requirements) :
    ∃ spec : Spec, spec.preset = none ∧ spec.require = requirements ∧
      (∀ key, K key → OnlyAppears spec.shapes key) ∧ ¬ spec.ShowsPatch := by
  refine ⟨.steady requirements, rfl, rfl, fun key hk s hs c hc mayBe => ?_, fun shows => ?_⟩
  · rw [List.mem_singleton.1 hs] at hc
    obtain ⟨r, hr, rfl⟩ := List.mem_map.1 hc
    -- the key of every requirement is one that is not of `K`
    cases r with
    | changed key' => exact absurd (.inl ⟨key', hr⟩) h
    | seen key' =>
      obtain rfl : key' = key := mayBe
      exact absurd (.inr ⟨key', hk, hr⟩) h
  · have unchanged : ∀ key, .changed key ∉ requirements := fun key hk => h (.inl ⟨key, hk⟩)
    obtain ⟨passed, unpatched⟩ := Table.steady_passes requirements unchanged
    have lines : logLines (Utf8.encode "x") = ["x"] := by decide +kernel
    have judged : (judge ⟨"steady", .steady requirements⟩ (Path.ofString "log")
        (.ok (Utf8.encode "x"))).passed = true := by
      rw [judge, lines]
      exact passed
    obtain ⟨bytes, hb, patched⟩ := shows _ (compile_steady requirements) _ _ judged
    cases hb
    rw [lines, unpatched] at patched
    cases patched

/-! ## Validators that are loaded -/

/-- Every validator that is loaded is that of a description in a file. -/
theorem load_compiles {σ : Type} (S : Answers σ) (s : σ) (root : Path) :
    (load root).Always S s
      (fun v _ => ∃ bytes spec, Spec.ofBytes bytes = .ok spec ∧ spec.compile = .ok v.table)
      fun _ _ => True := by
  rw [load, Attempt.always_bind, Attempt.always_of]
  intro content s' _
  cases content with
  | error e => trivial
  | ok bytes =>
    dsimp only [Attempt.Ends]
    cases hb : Spec.ofBytes bytes with
    | error p => exact Attempt.always_throw.2 trivial
    | ok spec =>
      dsimp only
      cases hs : spec.compile with
      | error e => exact Attempt.always_throw.2 trivial
      | ok table => exact Attempt.always_pure.2 ⟨bytes, spec, hb, hs⟩

/-- The validators that are loaded are those of descriptions. The logs that pass show the patch for
every description that names a preset. Where shapes are spelled out beside these requirements, they do
whatever the shapes are exactly if the requirements ask for the patch, `K` being the keys that can only
appear. That the patch shows means that some key made its change or appeared. -/
theorem showsPatch_iff_asks (K : String → Prop) (requirements : List Requirement) :
    (∀ env root v, ((load root).outcome.play env []).1 = .ok v →
      ∃ bytes spec, Spec.ofBytes bytes = .ok spec ∧ spec.compile = .ok v.table) ∧
      (∀ spec : Spec, spec.preset ≠ none → spec.ShowsPatch) ∧
      ((∀ spec : Spec, spec.preset = none → spec.require = requirements →
        (∀ key, K key → OnlyAppears spec.shapes key) → spec.ShowsPatch) ↔ Asks K requirements) ∧
      ∀ (t : Table) lines, (t.stateAfter {} lines).patched = true ↔
        (∃ key, (t.stateAfter {} lines).changed key = true) ∨
          ∃ key, key ∈ (t.stateAfter {} lines).appeared := by
  refine ⟨fun env root v hv => ?_, fun spec hn => ?_, ⟨fun h => ?_, ?_⟩,
    fun t lines => t.patched_stateAfter_iff lines⟩
  · -- nothing is assumed of what the machine replies
    have loaded := @Plan.always_play _ Unit (fun _ _ _ _ => True) (fun _ => ())
      (fun _ _ _ => trivial) _ [] _ (load_compiles _ () root) env
    rw [hv] at loaded
    exact loaded
  · obtain ⟨name, hn⟩ := Option.ne_none_iff_exists'.1 hn
    exact Spec.showsPatch_of_named hn
  · refine Classical.byContradiction fun none => ?_
    obtain ⟨spec, hn, hr, only, unshown⟩ := exists_unshown none
    exact unshown (h spec hn hr only)
  · rintro asks spec hn rfl only
    exact Spec.showsPatch_of_asks hn (asks.mono only)

/-- The description of `changing`, which requires a change. -/
def Spec.changing : Spec where
  shapes :=
    [{ start := "v ", pattern := some "^v (.*)$",
       checks := [⟨.named "v", .value 1 .changeOnce⟩] }]
  require := [.changed "v"]

theorem changing_shown :
    (∃ v : Validator, Spec.changing.compile = .ok v.table ∧
      (v.judge (Path.ofString "log") (.ok (Utf8.encode "v 1\nv 2\n"))).passed = true ∧
      (v.table.stateAfter {} (logLines (Utf8.encode "v 1\nv 2\n"))).patched = true) ∧
      ∃ t, ({ preset := some "constants" } : Spec).compile = .ok t ∧
        ({ preset := some "constants" } : Spec).ShowsPatch := by
  obtain ⟨-, named, spelled, -⟩ := showsPatch_iff_asks (fun _ => False) [.changed "v"]
  have compiled : Spec.changing.compile = .ok Validator.changing :=
    (Spec.compile_spelled_iff rfl).2 ⟨List.cons_ne_nil _ _, .cons (.judged _ rfl rfl) .nil, rfl⟩
  have passed : (judge ⟨"validate.json", Validator.changing⟩ (Path.ofString "log")
      (.ok (Utf8.encode "v 1\nv 2\n"))).passed = true := by decide +kernel
  have shows : Spec.changing.ShowsPatch :=
    spelled.2 (.inl ⟨"v", List.mem_singleton_self _⟩) .changing rfl rfl fun _ none => none.elim
  obtain ⟨bytes, hb, patched⟩ := shows _ compiled _ _ passed
  cases hb
  obtain ⟨t, ht⟩ := Preset.constants.compiles
  exact ⟨⟨⟨"validate.json", Validator.changing⟩, compiled, passed, patched⟩, t, ht,
    named { preset := some "constants" } (by decide)⟩

/-- A description that requires nothing is accepted, and a log passes in which no patch shows. -/
theorem unpatched_passes :
    ∃ v : Validator, ∃ spec : Spec,
      Spec.ofBytes (Utf8.encode "\x7b\"shapes\": [\x7b\"prefix\": \"\"\x7d]\x7d") = .ok spec ∧
      spec.compile = .ok v.table ∧
      (v.judge (Path.ofString "log") (.ok (Utf8.encode "hello\n"))).passed = true ∧
      (v.table.stateAfter {} (logLines (Utf8.encode "hello\n"))).patched = false := by
  refine ⟨⟨"validate.json", ⟨[⟨"", none⟩], [], List.pairwise_singleton _ _⟩⟩,
    { shapes := [{ start := "" }] }, ?_, rfl, ?_, ?_⟩
  · decide +kernel
  · decide +kernel
  · decide +kernel

end PatchTrial.Validator
