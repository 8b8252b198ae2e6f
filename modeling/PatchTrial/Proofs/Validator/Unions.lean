import PatchTrial.Proofs.Validator.Sources

/-!
The preset of unions and enums. Most lines of its program have one text. The others tell addresses,
each with the name of what lives there, and a size.

What is proved:
  1. `reads_unions_iff`: the lines of the preset, with what is read in them.
  2. `Table.tells_unions`: the addresses of each thing and the size are sources of their own.
  3. `unionsEnums_passed_iff`: the logs that pass, told without shapes, checks and states.
-/
namespace PatchTrial.Validator

/-! ## The program and its logs -/

def things : List String := ["beta", "gamma.foo", "delta.foo1", "delta.foo2"]

def unionLines : List String :=
  ["alpha is 42", "beta: 43, 44", "gamma idx is 45", "gamma.foo: 43, 46", "delta idx is 1",
    "delta.foo1: NULL, 2", "delta.foo2: NULL, 3"]

/-- The words between a thing and its address. -/
def livesAt : String := " lives at 0x"

def sizeStart : String := "sizeof(Baz) is "

/-- A number in lower hexadecimal digits. -/
def IsAddress (text : String) : Prop :=
  text ≠ "" ∧ ∀ c ∈ text.toList, '0' ≤ c ∧ c ≤ '9' ∨ 'a' ≤ c ∧ c ≤ 'f'

/-- The lines of the program. -/
inductive UnionsLine : String → Prop
  | banner {line : String} (h : StartsWith "has pid" line) : UnionsLine line
  | known {line : String} (h : line ∈ unionLines) : UnionsLine line
  | address {name text : String} (hn : name ∈ things) (ht : IsAddress text) :
    UnionsLine (name ++ livesAt ++ text)
  | size (text : String) : UnionsLine (sizeStart ++ text)

/-- The addresses of a thing, in the order of the lines that tell them. -/
def addresses (name : String) (lines : List String) : List String :=
  lines.filterMap (textAfter? (name ++ livesAt))

/-- The sizes, in the order of the lines that tell them. -/
def sizes (lines : List String) : List String := lines.filterMap (textAfter? sizeStart)

/-- The logs of a program that is patched: what was there before the patch moves once, what is new has
an address that moves once at most, and the size grows. -/
structure UnionsLog (lines : List String) : Prop where
  known : ∀ line ∈ lines, UnionsLine line
  moved : ∀ name ∈ ["beta", "gamma.foo"], changeCount (addresses name lines) = 1
  added : ∀ name ∈ ["delta.foo1", "delta.foo2"],
    addresses name lines ≠ [] ∧ changeCount (addresses name lines) ≤ 1
  grown : ∃ m n, 0 < m ∧ 0 < n ∧
    sizes lines = List.replicate m "12" ++ List.replicate n "20"

/-! ## What is read in a line -/

def digits : Regex.CharSet := .union .empty (.range 48 57)

/-- The lower hexadecimal digits, as a pattern has them. -/
def addressDigits : Regex.CharSet := .union digits (.range 97 102)

/-- A text of one letter at least, all of them from a set. -/
def Written (letters : Regex.CharSet) (text : String) : Prop :=
  text ≠ "" ∧ ∀ c ∈ text.toList, letters.contains c.toNat = true

theorem written_of_all {letters : Regex.CharSet} {text : String} (nonempty : text ≠ "")
    (all : (text.toList.all fun c => letters.contains c.toNat) = true) : Written letters text :=
  ⟨nonempty, List.all_eq_true.1 all⟩

/-- What the preset reads in a line. -/
inductive UnionsReads : String → List Reading → Prop
  | banner {line : String} (h : StartsWith "has pid" line) : UnionsReads line []
  | known {line : String} (h : line ∈ unionLines) : UnionsReads line []
  | address {name text : String} (hn : name ∈ things) (ht : Written addressDigits text) :
    UnionsReads (name ++ livesAt ++ text) [⟨name, some (.changeOnce, text)⟩]
  | size {text : String} (ht : Written digits text) :
    UnionsReads (sizeStart ++ text) [⟨"sizeof(Baz)", some (.transition "12" "20", text)⟩]

set_option maxRecDepth 1000 in
def unionPhrases : List Phrase :=
  [.sentence "alpha is" "^alpha is 42$" "alpha is 42" [] (id rfl) (by decide),
    .sentence "beta:" "^beta: 43, 44$" "beta: 43, 44" [] (id rfl) (by decide),
    .sentence "gamma idx" "^gamma idx is 45$" "gamma idx is 45" [] (id rfl) (by decide),
    .sentence "gamma.foo:" "^gamma\\.foo: 43, 46$" "gamma.foo: 43, 46" [] (id rfl) (by decide),
    .sentence "delta idx" "^delta idx is 1$" "delta idx is 1" [] (id rfl) (by decide),
    .sentence "delta.foo1:" "^delta\\.foo1: NULL, 2$" "delta.foo1: NULL, 2" [] (id rfl) (by decide),
    .sentence "delta.foo2:" "^delta\\.foo2: NULL, 3$" "delta.foo2: NULL, 3" [] (id rfl) (by decide)]

set_option maxRecDepth 2000 in
/-- The pattern of the lines that tell addresses. -/
def livesRegex : Regex where
  text := Preset.livesPattern
  node := .line (.group 1 (.choice (things.map String.toList)) ::
    (Regex.letters livesAt.toList ++ [.remainder 2 addressDigits]))
  read := id rfl

def sizeRegex : Regex where
  text := "^sizeof\\(Baz\\) is ([0-9]+)$"
  node := .line (Regex.letters sizeStart.toList ++ [.remainder 1 digits])
  read := id rfl

/-- The shape of the lines with a start that tell addresses. -/
def livesShape (start : String) : Shape where
  start
  judged? := some
    { pattern := livesRegex
      checks := [⟨.group 1, .value 2 .changeOnce⟩]
      within := by decide }

/-- The shape of the lines that tell the size. -/
def sizeShape : Shape where
  start := "sizeof"
  judged? := some
    { pattern := sizeRegex
      checks := [Preset.transition "sizeof(Baz)" "12" "20"]
      within := by decide }

/-- Letters of a set as a text. -/
theorem exists_written_iff {letters : Regex.CharSet} {P : List Char → Prop} :
    (∃ more, more ≠ [] ∧ (∀ c ∈ more, letters.contains c.toNat = true) ∧ P more) ↔
      ∃ text, Written letters text ∧ P text.toList := by
  constructor
  · intro h
    obtain ⟨more, nonempty, all, holds⟩ := h
    have same : (String.ofList more).toList = more := String.toList_ofList
    refine ⟨String.ofList more, ⟨fun e => nonempty ?_, by rwa [same]⟩, by rwa [same]⟩
    rw [← same, e]
    rfl
  · intro h
    obtain ⟨text, ⟨nonempty, all⟩, holds⟩ := h
    exact ⟨text.toList, fun e => nonempty (String.toList_eq_nil_iff.1 e), all, holds⟩

theorem livesRegex_captures_iff {line : String} {c : Regex.Captures} :
    livesRegex.captures? line = some c ↔
      ∃ name ∈ things, ∃ text, Written addressDigits text ∧ line = name ++ livesAt ++ text ∧
        c.groups = [(2, ⟨text.toList, text.toList.length⟩),
          (1, ⟨line.toList, name.toList.length⟩)] := by
  have nonempty : things.map String.toList ≠ [] := by decide
  have apart : Regex.PrefixFree (things.map String.toList) := by decide
  rw [Regex.captures?_named_iff nonempty apart rfl]
  simp only [List.mem_map, exists_exists_and_eq_and]
  refine exists_congr fun name => and_congr_right fun _ => ?_
  rw [exists_written_iff]
  simp only [← String.toList_inj, String.toList_append, List.append_assoc]

theorem sizeRegex_captures_iff {line : String} {c : Regex.Captures} :
    sizeRegex.captures? line = some c ↔
      ∃ text, Written digits text ∧ line = sizeStart ++ text ∧
        c.groups = [(1, ⟨text.toList, text.toList.length⟩)] := by
  rw [Regex.captures?_open_iff rfl, exists_written_iff]
  simp only [← String.toList_inj, String.toList_append]

theorem livesShape_reads_iff {start line : String} {rs : List Reading} :
    (livesShape start).Reads line rs ↔
      StartsWith start line ∧ ∃ name ∈ things, ∃ text, Written addressDigits text ∧
        line = name ++ livesAt ++ text ∧ rs = [⟨name, some (.changeOnce, text)⟩] := by
  rw [livesShape, Shape.reads_single_iff rfl]
  refine and_congr_right fun _ => ?_
  have read {name text : String} (e : line = name ++ livesAt ++ text) :
      (⟨.group 1, .value 2 .changeOnce⟩ : Check).reading?
          ⟨[(2, ⟨text.toList, text.toList.length⟩), (1, ⟨line.toList, name.toList.length⟩)]⟩ =
        some ⟨name, some (.changeOnce, text)⟩ := by
    show some (⟨String.ofList (line.toList.take name.toList.length),
      some (.changeOnce, String.ofList (text.toList.take text.toList.length))⟩ : Reading) = _
    rw [e, String.toList_append, String.toList_append, List.append_assoc, List.take_left,
      List.take_length, String.ofList_toList, String.ofList_toList]
  constructor
  · intro h
    obtain ⟨⟨groups⟩, r, found, hr, rfl⟩ := h
    obtain ⟨name, hn, text, written, e, rfl⟩ := livesRegex_captures_iff.1 found
    obtain rfl := Option.some.inj (hr.symm.trans (read e))
    exact ⟨name, hn, text, written, e, rfl⟩
  · intro h
    obtain ⟨name, hn, text, written, e, rfl⟩ := h
    exact ⟨_, _, livesRegex_captures_iff.2 ⟨name, hn, text, written, e, rfl⟩, read e, rfl⟩

theorem sizeShape_reads_iff {line : String} {rs : List Reading} :
    sizeShape.Reads line rs ↔
      ∃ text, Written digits text ∧ line = sizeStart ++ text ∧
        rs = [⟨"sizeof(Baz)", some (.transition "12" "20", text)⟩] := by
  have read (text : String) : (Preset.transition "sizeof(Baz)" "12" "20").reading?
      ⟨[(1, ⟨text.toList, text.toList.length⟩)]⟩ =
        some ⟨"sizeof(Baz)", some (.transition "12" "20", text)⟩ := by
    show some (⟨_, some (_, String.ofList (text.toList.take text.toList.length))⟩ : Reading) = _
    rw [List.take_length, String.ofList_toList]
  rw [sizeShape, Shape.reads_single_iff rfl]
  constructor
  · intro h
    obtain ⟨-, ⟨groups⟩, r, found, hr, rfl⟩ := h
    obtain ⟨text, written, e, rfl⟩ := sizeRegex_captures_iff.1 found
    obtain rfl := Option.some.inj (hr.symm.trans (read text))
    exact ⟨text, written, e, rfl⟩
  · intro h
    obtain ⟨text, written, rfl, rfl⟩ := h
    refine ⟨?_, _, _, sizeRegex_captures_iff.2 ⟨text, written, rfl, rfl⟩, read text, rfl⟩
    exact startsWith_append (by decide) text

def livesStarts : List String :=
  ["beta lives", "gamma.foo lives", "delta.foo1 lives", "delta.foo2 lives"]

def unionShapes : List Shape :=
  (Phrase.opening "has pid").shape ::
    (livesStarts.map livesShape ++ (unionPhrases.map Phrase.shape ++ [sizeShape]))

theorem unionShapes_yield : List.Forall₂ ShapeSpec.Yields Preset.unionsEnums.shapes unionShapes := by
  have lives : List.Forall₂ ShapeSpec.Yields (livesStarts.map Preset.lives)
      (livesStarts.map livesShape) := by
    rw [List.forall₂_map_left_iff, List.forall₂_map_right_iff, List.forall₂_same]
    exact fun start _ => .judged _ rfl rfl
  exact .cons (Phrase.yields (.opening "has pid")) (List.rel_append lives (List.rel_append
    (Phrase.yields_map unionPhrases) (.cons (.judged _ rfl rfl) .nil)))

theorem exists_livesStart :
    ∀ name ∈ things, ∃ start ∈ livesStarts, StartsWith start (name ++ livesAt) := by
  decide

theorem known_reads_iff {line : String} {rs : List Reading} :
    (∃ p ∈ unionPhrases, p.shape.Reads line rs) ↔ line ∈ unionLines ∧ rs = [] := by
  simp only [Phrase.reads_iff]
  simp [unionPhrases, unionLines, or_and_right, exists_or]

theorem reads_unions_iff {line : String} {rs : List Reading} :
    (∃ shape ∈ unionShapes, shape.Reads line rs) ↔ UnionsReads line rs := by
  have banner : (Phrase.opening "has pid").shape.Reads line rs ↔
      StartsWith "has pid" line ∧ rs = [] := Phrase.reads_iff
  simp only [unionShapes, List.mem_cons, List.mem_append, List.mem_map, List.not_mem_nil, or_false,
    or_and_right, exists_or, exists_eq_left, exists_exists_and_eq_and, banner, known_reads_iff,
    livesShape_reads_iff, sizeShape_reads_iff]
  constructor
  · intro h
    rcases h with ⟨starts, rfl⟩ | ⟨-, -, -, name, hn, text, written, rfl, rfl⟩ | ⟨known, rfl⟩ |
      ⟨text, written, rfl, rfl⟩
    · exact .banner starts
    · exact .address hn written
    · exact .known known
    · exact .size written
  · intro h
    cases h with
    | banner starts => exact .inl ⟨starts, rfl⟩
    | known known => exact .inr (.inr (.inl ⟨known, rfl⟩))
    | @address name text hn written =>
      obtain ⟨start, hs, begins⟩ := exists_livesStart name hn
      exact .inr (.inl ⟨start, hs, startsWith_append begins text, name, hn, text, written, rfl, rfl⟩)
    | @size text written => exact .inr (.inr (.inr ⟨text, written, rfl, rfl⟩))

/-- What a table reads that has the shapes of the preset. -/
theorem Table.reads_unions_iff {t : Table} (shapes : t.shapes = unionShapes) {line : String}
    {rs : List Reading} : t.Readable line ∧ t.lineReadings line = rs ↔ UnionsReads line rs := by
  have apart : Regex.PrefixFree (starts t.shapes) := by
    rw [shapes]
    decide +kernel
  rw [t.reads_iff apart, shapes, Validator.reads_unions_iff]

/-! ## What is told in a log -/

def Source.address (name : String) : Source := ⟨name, name ++ livesAt, .changeOnce⟩

def Source.size : Source := ⟨"sizeof(Baz)", sizeStart, .transition "12" "20"⟩

def unionSources : List Source := things.map Source.address ++ [Source.size]

theorem address_mem_unionSources {name : String} (hn : name ∈ things) :
    Source.address name ∈ unionSources :=
  List.mem_append_left _ (List.mem_map_of_mem hn)

theorem size_mem_unionSources : Source.size ∈ unionSources :=
  List.mem_append_right _ (List.mem_singleton_self _)

theorem Table.tells_unions {t : Table} (shapes : t.shapes = unionShapes) :
    t.Tells ("has pid" :: unionLines) unionSources where
  told line readable := by
    have reads := (t.reads_unions_iff shapes).1 ⟨readable, rfl⟩
    generalize t.lineReadings line = rs at reads
    cases reads with
    | banner starts => exact .quiet List.mem_cons_self starts
    | known known => exact .quiet (List.mem_cons_of_mem _ known) (List.prefix_refl _)
    | @address name text hn _ => exact .value (address_mem_unionSources hn) text
    | @size text _ => exact .value size_mem_unionSources text
  apart := by decide +kernel
  starts := by decide +kernel
  keys := by decide +kernel
  moves := by decide +kernel

/-! ## The logs that pass -/

theorem written_addressDigits_iff {text : String} : Written addressDigits text ↔ IsAddress text := by
  have le (a b : Char) : a ≤ b ↔ a.toNat ≤ b.toNat := UInt32.le_iff_toNat_le
  refine and_congr_right fun _ => forall₂_congr fun c _ => ?_
  simp only [addressDigits, digits, Regex.CharSet.contains, Bool.or_eq_true, Bool.and_eq_true,
    decide_eq_true_eq, Bool.false_eq_true, false_or, le]
  rfl

/-- The values of the size before and after the patch. -/
theorem grown_iff {vs : List String} :
    (Rule.transition "12" "20").Admits vs ∧ (∃ v ∈ vs, ∃ w ∈ vs, v ≠ w) ↔
      ∃ m n, 0 < m ∧ 0 < n ∧ vs = List.replicate m "12" ++ List.replicate n "20" := by
  constructor
  · intro h
    obtain ⟨rfl | ⟨m, n, hm, rfl⟩, v, hv, w, hw, ne⟩ := h
    · cases hv
    · refine ⟨m, n, hm, Nat.pos_of_ne_zero fun zero => ne ?_, rfl⟩
      rw [zero, List.replicate_zero, List.append_nil] at hv hw
      exact (List.eq_of_mem_replicate hv).trans (List.eq_of_mem_replicate hw).symm
  · intro h
    obtain ⟨m, n, hm, hn, rfl⟩ := h
    refine ⟨.inr ⟨m, n, hm, rfl⟩, "12", ?_, "20", ?_, by decide⟩
    · exact List.mem_append_left _ (List.mem_replicate.2 ⟨Nat.ne_of_gt hm, rfl⟩)
    · exact List.mem_append_right _ (List.mem_replicate.2 ⟨Nat.ne_of_gt hn, rfl⟩)

theorem UnionsReads.line {line : String} {rs : List Reading} (h : UnionsReads line rs) :
    UnionsLine line := by
  cases h with
  | banner starts => exact .banner starts
  | known known => exact .known known
  | address hn written => exact .address hn (written_addressDigits_iff.1 written)
  | size => exact .size _

/-- A line of the program is read unless it tells a size that is no number. -/
theorem UnionsLine.reads {line : String} (h : UnionsLine line)
    (numbers : ∀ text, textAfter? sizeStart line = some text → Written digits text) :
    ∃ rs, UnionsReads line rs := by
  cases h with
  | banner starts => exact ⟨_, .banner starts⟩
  | known known => exact ⟨_, .known known⟩
  | address hn ht => exact ⟨_, .address hn (written_addressDigits_iff.2 ht)⟩
  | size text => exact ⟨_, .size (numbers text (textAfter?_eq_some_iff.2 rfl))⟩

section Logs
variable {t : Table} (shapes : t.shapes = unionShapes) {lines : List String}
  (readable : ∀ line ∈ lines, t.Readable line)
include shapes readable

theorem unions_shown_iff :
    (Consistent (t.readings lines) ∧
        ∀ r ∈ Preset.unionsEnums.requirements, r.ShownBy (t.readings lines)) ↔
      (∀ name ∈ ["beta", "gamma.foo"], changeCount (addresses name lines) = 1) ∧
        (∀ name ∈ ["delta.foo1", "delta.foo2"],
          addresses name lines ≠ [] ∧ changeCount (addresses name lines) ≤ 1) ∧
        ∃ m n, 0 < m ∧ 0 < n ∧
          sizes lines = List.replicate m "12" ++ List.replicate n "20" := by
  have tells := t.tells_unions shapes
  have moved {name : String} (hn : name ∈ things) :
      (Requirement.changed name).ShownBy (t.readings lines) ↔
        changeCount (addresses name lines) = 1 :=
    (tells.changed_iff readable (address_mem_unionSources hn)).trans changeCount_eq_one_iff.symm
  have added {name : String} (hn : name ∈ things) :
      (Requirement.seen name).ShownBy (t.readings lines) ↔ addresses name lines ≠ [] :=
    tells.seen_iff readable (address_mem_unionSources hn)
  have grown : (Requirement.changed "sizeof(Baz)").ShownBy (t.readings lines) ↔
      ∃ m n, 0 < m ∧ 0 < n ∧ sizes lines = List.replicate m "12" ++ List.replicate n "20" :=
    (tells.changed_iff readable size_mem_unionSources).trans grown_iff
  -- each key has one rule, so the readings agree when the values of every key do
  have consistent : Consistent (t.readings lines) ↔
      (∀ name ∈ things, changeCount (addresses name lines) ≤ 1) ∧
        (Rule.transition "12" "20").Admits (sizes lines) := by
    rw [tells.consistent_iff readable]
    simp only [unionSources, List.forall_mem_append, List.forall_mem_map, List.forall_mem_singleton]
    exact and_congr_left' (forall₂_congr fun name _ => changeCount_le_one_iff.symm)
  simp only [consistent, Preset.requirements, things, List.forall_mem_cons, List.not_mem_nil,
    false_imp_iff, implies_true, and_true, grown, moved (show "beta" ∈ things by decide),
    moved (show "gamma.foo" ∈ things by decide), added (show "delta.foo1" ∈ things by decide),
    added (show "delta.foo2" ∈ things by decide)]
  constructor
  · intro h
    obtain ⟨⟨⟨-, -, once₁, once₂⟩, -⟩, beta, gamma, size, seen₁, seen₂⟩ := h
    exact ⟨⟨beta, gamma⟩, ⟨⟨seen₁, once₁⟩, seen₂, once₂⟩, size⟩
  · intro h
    obtain ⟨⟨beta, gamma⟩, ⟨⟨seen₁, once₁⟩, seen₂, once₂⟩, size⟩ := h
    exact ⟨⟨⟨Nat.le_of_eq beta, Nat.le_of_eq gamma, once₁, once₂⟩, (grown_iff.2 size).1⟩, beta, gamma,
      size, seen₁, seen₂⟩

end Logs

/-- The logs that the preset of unions and enums passes. -/
theorem unionsEnums_passed_iff :
    ∃ t, Spec.compile { preset := some "unions_enums" } = .ok t ∧
      ∀ lines, (t.evaluate lines).passed = true ↔ UnionsLog lines := by
  obtain ⟨t, ht, shapes, requirements⟩ := Preset.table_of_yields unionShapes_yield
  have read {line : String} : t.Readable line ↔ ∃ rs, UnionsReads line rs := by
    simp only [← t.reads_unions_iff shapes, exists_and_left, exists_eq', and_true]
  refine ⟨t, (Spec.compile_preset .unionsEnums).trans ht, fun lines => ?_⟩
  rw [t.passed_iff_shown, requirements]
  constructor
  · intro h
    obtain ⟨readable, shown⟩ := h
    obtain ⟨moved, added, grown⟩ := (unions_shown_iff shapes readable).1 shown
    refine ⟨fun line hl => ?_, moved, added, grown⟩
    obtain ⟨rs, reads⟩ := read.1 (readable line hl)
    exact reads.line
  · intro h
    have readable : ∀ line ∈ lines, t.Readable line := by
      intro line hl
      -- a size that is told is one of the two that the log may have, so it can be read
      refine read.2 ((h.known line hl).reads fun text told => ?_)
      obtain ⟨m, n, -, -, e⟩ := h.grown
      have size : text ∈ sizes lines := List.mem_filterMap.2 ⟨line, hl, told⟩
      rw [e, List.mem_append] at size
      rcases size with before | after
      · rw [List.eq_of_mem_replicate before]
        exact written_of_all (by decide) (by decide)
      · rw [List.eq_of_mem_replicate after]
        exact written_of_all (by decide) (by decide)
    exact ⟨readable, (unions_shown_iff shapes readable).2 ⟨h.moved, h.added, h.grown⟩⟩

end PatchTrial.Validator
