import PatchTrial.Arguments
import PatchTrial.Proofs.Text.Spans

/-!
The words for the target. They follow the scenario and the executable. The first of them may be a word
that begins with hyphens, unless the program has an option that is spelled so; from then on all words
are for the target, whatever they look like.

What is proved:
  1. `long?_eq_none_iff`, `short?_eq_none_iff`: the names of the options.
  2. `word_long`, `word_assigned`, `word_letters`: an option is read as an option, wherever it stands
     before the words for the target; `word_of_not_isOption`: any other word is a value there.
  3. `words_of_trailing`: once words for the target have begun, all words are for the target.
  4. `AtMost.word`, `AtMost.word_of_isOption`: a word is kept for the target at most once, and an option
     is not kept at all.
  5. `ofWords_eq_plain_iff`: so the words behind the executable are those for the target exactly if the
     first one is no option of the program.
  6. `ofWords_separator`: behind `--` they are, whatever the first one is.
-/
namespace PatchTrial.Arguments
open Text

/-! ## Options -/

def longNames : List String :=
  ["directory", "elevated", "patch-tool", "escalate-with", "settle-ms", "observe-ms",
    "terminate-grace-ms", "diagnostic-log", "root", "log-level", "help", "version"]

def shortNames : List Char := ['d', 'h', 'V']

/-- A word is an option of the program: a long name behind two hyphens, with a value behind an equals
sign or without, or letters behind one hyphen. -/
inductive IsOption : String → Prop
  | long {name : String} : name ∈ longNames → IsOption ("--" ++ name)
  | assigned {name : String} (value : String) : name ∈ longNames →
      IsOption ("--" ++ name ++ "=" ++ value)
  | letters {letters : List Char} : letters ≠ [] → (∀ c ∈ letters, c ∈ shortNames) →
      IsOption ("-" ++ String.ofList letters)

theorem long?_eq_none_iff {name : String} : long? name = none ↔ name ∉ longNames := by
  constructor
  · intro h hm
    revert h
    simp only [longNames, List.mem_cons, List.not_mem_nil, or_false] at hm
    rcases hm with rfl | rfl | rfl | rfl | rfl | rfl | rfl | rfl | rfl | rfl | rfl | rfl <;> decide
  · intro h
    unfold long?
    split <;> first | rfl | exact absurd (by decide) h

theorem short?_eq_none_iff {c : Char} : short? c = none ↔ c ∉ shortNames := by
  constructor
  · intro h hm
    revert h
    simp only [shortNames, List.mem_cons, List.not_mem_nil, or_false] at hm
    rcases hm with rfl | rfl | rfl <;> decide
  · intro h
    unfold short?
    split <;> first | rfl | exact absurd (by decide) h

/-- The words for the target are no option. -/
theorem ne_targetArgs_of_long? {name : String} {slot : Slot}
    (h : long? name = some (.valued slot)) : slot ≠ .targetArgs := by
  unfold long? at h
  split at h <;> cases h <;> decide

/-- No long name is empty or has an equals sign. -/
theorem form_of_mem_longNames {name : String} (h : name ∈ longNames) :
    (∃ c rest, name.toList = c :: rest) ∧ '=' ∉ name.toList := by
  have all : ∀ name ∈ longNames, name.toList ≠ [] ∧ '=' ∉ name.toList := by decide
  exact ⟨List.exists_cons_of_ne_nil (all name h).1, (all name h).2⟩

namespace Reading
variable {r : Reading} {w : String}

/-! ## Reading a word -/

theorem splitEquals_bare {cs : List Char} (h : '=' ∉ cs) : splitEquals cs = (cs, none) := by
  rw [splitEquals, span_of_notMem h]

theorem splitEquals_assigned {name : List Char} (h : '=' ∉ name) (value : List Char) :
    splitEquals (name ++ '=' :: value) = (name, some value) := by
  rw [splitEquals, span_append h]

/-- Reads a word that begins with two hyphens, cut at the first equals sign. -/
def hyphens (r : Reading) (w name : String) (attached : Option (List Char)) :
    Except UsageError Reading :=
  match long? name, attached with
  | none, _ => if r.takesHyphens then r.value w else .error .unknownArgument
  | some (.valued slot), some text => do
    let r ← r.settle
    return { (← r.complete slot [String.ofList text]) with waiting := false }
  | some _, some _ => .error .tooManyValues
  | some s, none => r.switch s

theorem word_hyphens {c : Char} {rest name : List Char} {attached : Option (List Char)}
    (ht : r.trailing = false) (hw : w.toList = '-' :: '-' :: c :: rest)
    (cut : splitEquals (c :: rest) = (name, attached)) :
    r.word w = r.hyphens w (String.ofList name) attached := by
  rw [word, ht, hw]
  simp only [cut, Bool.false_eq_true, if_false]
  rfl

theorem word_long {name : String} (ht : r.trailing = false) (hm : name ∈ longNames) :
    ∃ s, long? name = some s ∧ r.word ("--" ++ name) = r.switch s := by
  obtain ⟨⟨c, rest, begins⟩, bare⟩ := form_of_mem_longNames hm
  have spelled : ("--" ++ name).toList = '-' :: '-' :: c :: rest := by
    rw [String.toList_append, begins]
    rfl
  cases known : long? name with
  | none => exact absurd hm (long?_eq_none_iff.1 known)
  | some s =>
    refine ⟨s, rfl, ?_⟩
    rw [begins] at bare
    rw [word_hyphens ht spelled (splitEquals_bare bare), ← begins, String.ofList_toList]
    simp only [hyphens, known]

theorem word_assigned {name : String} (value : String) (ht : r.trailing = false)
    (hm : name ∈ longNames) :
    ∃ s, long? name = some s ∧ r.word ("--" ++ name ++ "=" ++ value) = match s with
      | .valued slot => do
        let r ← r.settle
        return { (← r.complete slot [value]) with waiting := false }
      | _ => .error .tooManyValues := by
  obtain ⟨⟨c, rest, begins⟩, bare⟩ := form_of_mem_longNames hm
  have spelled : ("--" ++ name ++ "=" ++ value).toList =
      '-' :: '-' :: c :: (rest ++ '=' :: value.toList) := by
    simp [String.toList_append, begins]
  cases known : long? name with
  | none => exact absurd hm (long?_eq_none_iff.1 known)
  | some s =>
    refine ⟨s, rfl, ?_⟩
    rw [begins] at bare
    rw [word_hyphens ht spelled (splitEquals_assigned bare value.toList), ← begins,
      String.ofList_toList]
    simp only [hyphens, known]
    cases s <;> simp only [String.ofList_toList]

theorem word_letters {letters : List Char} (ht : r.trailing = false) (nonempty : letters ≠ [])
    (known : ∀ c ∈ letters, c ∈ shortNames) :
    r.word ("-" ++ String.ofList letters) = r.letters letters := by
  obtain ⟨c, rest, rfl⟩ := List.exists_cons_of_ne_nil nonempty
  have spelled : ("-" ++ String.ofList (c :: rest)).toList = '-' :: c :: rest := by
    simp [String.toList_append]
  have other : c ≠ '-' := by
    rintro rfl
    exact absurd (known '-' List.mem_cons_self) (by decide)
  have all : ((c :: rest).any fun c => (short? c).isNone) = false := by
    rw [List.any_eq_false]
    intro d hd none
    exact short?_eq_none_iff.1 (Option.isNone_iff_eq_none.1 none) (known d hd)
  rw [word, ht, spelled]
  simp [other, all]

theorem isOption_of_hyphens {rest name : List Char} {attached : Option (List Char)}
    (hw : w.toList = '-' :: '-' :: rest) (cut : splitEquals rest = (name, attached))
    (hm : String.ofList name ∈ longNames) : IsOption w := by
  rcases notMem_or_exists_first '=' rest with bare | ⟨name', value, rfl, bare⟩
  · rw [splitEquals_bare bare] at cut
    obtain rfl := (Prod.mk.inj cut).1
    have same : w = "--" ++ String.ofList rest := by
      rw [← String.toList_inj, hw]
      simp [String.toList_append]
    exact same ▸ .long hm
  · rw [splitEquals_assigned bare] at cut
    obtain rfl := (Prod.mk.inj cut).1
    have same : w = "--" ++ String.ofList name' ++ "=" ++ String.ofList value := by
      rw [← String.toList_inj, hw]
      simp [String.toList_append]
    exact same ▸ .assigned _ hm

theorem isOption_of_letters {c : Char} {rest : List Char} (hw : w.toList = '-' :: c :: rest)
    (known : ((c :: rest).any fun c => (short? c).isNone) = false) : IsOption w := by
  have same : w = "-" ++ String.ofList (c :: rest) := by
    rw [← String.toList_inj, hw]
    simp [String.toList_append]
  refine same ▸ .letters (List.cons_ne_nil c rest) fun d hd => ?_
  by_contra other
  exact List.any_eq_false.1 known d hd (Option.isNone_iff_eq_none.2 (short?_eq_none_iff.2 other))

/-- A word that is no option of the program is a value, once words may begin with hyphens. -/
theorem word_of_not_isOption (ht : r.trailing = false) (takes : r.takesHyphens = true)
    (separator : w ≠ "--") (h : ¬IsOption w) : r.word w = r.value w := by
  rw [word, ht, if_neg Bool.false_ne_true]
  split
  · next hw => exact absurd (String.toList_inj.1 hw) separator
  · next rest _ hw =>
    generalize cut : splitEquals rest = parts
    obtain ⟨name, attached⟩ := parts
    have unknown := long?_eq_none_iff.2 fun hm => h (isOption_of_hyphens hw cut hm)
    simp only [unknown, takes, if_true]
  · next c rest _ _ hw =>
    have unknown := eq_true_of_ne_false fun known => h (isOption_of_letters hw known)
    rw [takes, Bool.true_and, if_pos unknown]
  · rfl

theorem word_of_trailing (h : r.trailing = true) (w : String) : r.word w = r.fill w := by
  rw [word, h, if_pos rfl]

/-- A word that does not begin with a hyphen is a value. -/
theorem word_of_plain (ht : r.trailing = false) (h : w.toList.head? ≠ some '-') :
    r.word w = r.value w := by
  rw [word, ht, if_neg Bool.false_ne_true]
  split
  · next hw => exact absurd (congrArg List.head? hw) h
  · next hw => exact absurd (congrArg List.head? hw) h
  · next hw => exact absurd (congrArg List.head? hw) h
  · rfl

/-! ## The words for the target -/

/-- Once words for the target have begun, all words are for the target. -/
theorem words_of_trailing {values : List String} (h : r.trailing = true) (two : 2 ≤ r.filled)
    (hp : r.pending = some (.targetArgs, values)) (ws : List String) :
    r.words ws = .ok { r with pending := some (.targetArgs, values ++ ws) } := by
  induction ws generalizing r values with
  | nil =>
    rw [words, List.append_nil, ← hp]
  | cons w rest ih =>
    have step : r.word w =
        .ok { r with pending := some (.targetArgs, values ++ [w]), trailing := true } := by
      rw [word_of_trailing h, fill, hp]
      split <;> first | omega | rfl
    rw [words, step]
    have later := ih (r := { r with pending := some (.targetArgs, values ++ [w]), trailing := true })
      rfl two rfl
    rw [List.append_assoc, List.singleton_append] at later
    exact later.trans (by rw [h])

/-- How far the words are read behind the scenario and the executable. -/
def named (scenario execName : String) : Reading :=
  { args := { scenario := some (.ofString scenario) }, given := [.scenario],
    pending := some (.execName, [execName]), filled := 2 }

theorem words_named {scenario execName : String} (nonempty : scenario ≠ "")
    (hs : scenario.toList.head? ≠ some '-') (he : execName.toList.head? ≠ some '-')
    (ws : List String) :
    words {} (scenario :: execName :: ws) = (named scenario execName).words ws := by
  have first : ({} : Reading).word scenario =
      .ok { pending := some (.scenario, [scenario]), filled := 1 } := word_of_plain rfl hs
  have path : readPath scenario = .ok (.ofString scenario) :=
    if_neg fun h => nonempty (String.isEmpty_iff.1 h)
  have second : ({ pending := some (.scenario, [scenario]), filled := 1 } : Reading).word execName =
      .ok (named scenario execName) := by
    rw [word_of_plain rfl he]
    simp [value, fill, settle, complete, give, isFlag, path, named]
  rw [words, first]
  show words _ (execName :: ws) = _
  rw [words, second]
  rfl

/-- How far the words are read when some words for the target were read. -/
def forTarget (scenario execName : String) (values : List String) : Reading :=
  { args := { scenario := some (.ofString scenario), execName := some execName },
    given := [.execName, .scenario], pending := some (.targetArgs, values), filled := 2,
    trailing := true }

theorem words_forTarget (scenario execName : String) (w : String) (rest : List String) :
    (forTarget scenario execName [w]).words rest =
      .ok (forTarget scenario execName (w :: rest)) :=
  words_of_trailing (r := forTarget scenario execName [w]) rfl (Nat.le_refl 2) rfl rest

/-- The words behind the executable are for the target if the first one is no option. -/
theorem words_of_not_isOption {scenario execName w : String} (separator : w ≠ "--")
    (h : ¬IsOption w) (rest : List String) :
    (named scenario execName).words (w :: rest) = .ok (forTarget scenario execName (w :: rest)) := by
  have first : (named scenario execName).word w = .ok (forTarget scenario execName [w]) := by
    rw [word_of_not_isOption rfl rfl separator h]
    rfl
  rw [words, first]
  exact words_forTarget scenario execName w rest

/-- The separator makes way for a first word that is an option of the program. -/
theorem words_of_separator (scenario execName : String) (w : String) (rest : List String) :
    (named scenario execName).words ("--" :: w :: rest) =
      .ok (forTarget scenario execName (w :: rest)) := by
  have first : (named scenario execName).word "--" =
      .ok { named scenario execName with trailing := true } := rfl
  have second : ({ named scenario execName with trailing := true } : Reading).word w =
      .ok (forTarget scenario execName [w]) := word_of_trailing rfl w
  rw [words, first]
  show ({ named scenario execName with trailing := true } : Reading).words (w :: rest) = _
  rw [words, second]
  exact words_forTarget scenario execName w rest

/-! ## What is kept for the target -/

/-- The number of words that are kept for the target so far. -/
def held (r : Reading) : Nat :=
  r.args.targetArgs.length + match r.pending with
    | some (.targetArgs, values) => values.length
    | _ => 0

/-- A reading that goes on holds at most so many words for the target. -/
def AtMost (n : Nat) (x : Except UsageError Reading) : Prop := ∀ r, x = .ok r → r.held ≤ n

namespace AtMost
variable {m n : Nat} {x : Except UsageError Reading} {f : Reading → Except UsageError Reading}

theorem ok (h : r.held ≤ n) : AtMost n (.ok r) := by
  rintro r' ⟨⟩
  exact h

theorem error (e : UsageError) : AtMost n (.error e) := by
  intro r h
  cases h

theorem mono (h : AtMost m x) (le : m ≤ n) : AtMost n x := fun r hr => (h r hr).trans le

theorem bind (hx : AtMost m x) (hf : ∀ r, r.held ≤ m → AtMost n (f r)) : AtMost n (x >>= f) := by
  cases x with
  | error e => exact error e
  | ok r => exact hf r (hx r rfl)

theorem waiting (h : AtMost n x) (waiting : Bool) :
    AtMost n (x >>= fun r => .ok { r with waiting := waiting }) := h.bind fun _ le => ok le

end AtMost

/-- Only the slot that is given its values changes. -/
theorem targetArgs_give {a a' : Arguments} {slot : Slot} {values : List String}
    (h : give a slot values = .ok a') :
    a'.targetArgs = if slot = .targetArgs then values else a.targetArgs := by
  unfold give at h
  split at h
  case h_5 text _ | h_12 text _ | h_13 text _ =>
    cases path : readPath text <;> rw [path] at h <;> cases h
    rfl
  case h_9 text _ | h_10 text _ | h_11 text _ =>
    cases ms : readMs text <;> rw [ms] at h <;> cases h
    rfl
  all_goals cases h <;> rfl

theorem of_complete {slot : Slot} {values : List String} {r' : Reading}
    (h : r.complete slot values = .ok r') :
    r'.args.targetArgs = (if slot = .targetArgs then values else r.args.targetArgs) ∧
      r'.pending = r.pending := by
  rw [complete] at h
  by_cases empty : (values.isEmpty && !isFlag slot) = true
  · rw [if_pos empty] at h
    cases h
  rw [if_neg empty] at h
  by_cases twice : slot ∈ r.given
  · cases (if_pos twice).symm.trans h
  rw [if_neg twice] at h
  cases given : give r.args slot values <;> rw [given] at h <;> cases h
  exact ⟨targetArgs_give given, rfl⟩

namespace AtMost

theorem settle (h : r.held ≤ n) : AtMost n r.settle := by
  rw [Reading.settle]
  split
  · exact ok h
  · next slot values pending =>
    intro r' hr
    obtain ⟨args, pending'⟩ := of_complete hr
    refine le_trans ?_ h
    simp only [held, args, pending', pending]
    cases slot <;> simp

theorem complete {slot : Slot} {values : List String} (other : slot = .targetArgs → values = [])
    (h : r.held ≤ n) : AtMost n (r.complete slot values) := by
  intro r' hr
  obtain ⟨args, pending⟩ := of_complete hr
  refine le_trans ?_ h
  simp only [held, args, pending]
  split
  · next same => simp [other same]
  · exact le_refl _

/-- An option is not kept for the target. -/
theorem switch (s : Switch) (h : r.held ≤ n) : AtMost n (r.switch s) := by
  cases s with
  | help => exact (settle h).bind fun _ _ => error _
  | version => exact (settle h).bind fun _ _ => error _
  | flag slot => exact (settle h).bind fun _ le => (complete (fun _ => rfl) le).waiting false
  | valued slot =>
    refine (settle h).bind fun r' le => ok (le_trans ?_ le)
    cases slot <;> simp [held]

theorem letters {cs : List Char} (h : r.held ≤ n) : AtMost n (r.letters cs) := by
  induction cs generalizing r with
  | nil => exact ok h
  | cons c rest ih =>
    rw [Reading.letters]
    split
    · exact error _
    · exact (switch _ h).bind fun _ le => ih le

theorem fill (h : r.held ≤ n) (w : String) : AtMost (n + 1) (r.fill w) := by
  rw [Reading.fill]
  split
  · refine (settle h).bind fun r' le => ok ?_
    exact (Nat.le_add_right _ _).trans (le.trans (Nat.le_succ n))
  · refine (settle h).bind fun r' le => ok ?_
    exact (Nat.le_add_right _ _).trans (le.trans (Nat.le_succ n))
  · split
    · next values pending =>
      refine ok (le_trans ?_ (Nat.succ_le_succ h))
      simp [held, pending, Nat.add_assoc]
    · refine (settle h).bind fun r' le => ok (Nat.succ_le_succ (le_trans ?_ le))
      exact Nat.le_add_right _ _

theorem value (h : r.held ≤ n) (w : String) : AtMost (n + 1) (r.value w) := by
  rw [Reading.value]
  split
  · next slot values _ pending =>
    refine ok (le_trans ?_ (Nat.succ_le_succ h))
    simp only [held, pending]
    cases slot <;> simp [Nat.add_assoc]
  · exact fill h w

/-- An option with a value behind an equals sign is not kept for the target. -/
theorem assigned {name : String} {slot : Slot} (known : long? name = some (.valued slot))
    (values : List String) (h : r.held ≤ n) : AtMost n (do
      let r ← r.settle
      return { (← r.complete slot values) with waiting := false }) :=
  (settle h).bind fun _ le =>
    (complete (fun same => absurd same (ne_targetArgs_of_long? known)) le).waiting false

theorem hyphens (h : r.held ≤ n) (w name : String) (attached : Option (List Char)) :
    AtMost (n + 1) (r.hyphens w name attached) := by
  unfold Reading.hyphens
  split
  · split
    · exact value h w
    · exact error _
  · next known => exact (assigned known _ h).mono (Nat.le_succ n)
  · exact error _
  · exact (switch _ h).mono (Nat.le_succ n)

theorem word (h : r.held ≤ n) (w : String) : AtMost (n + 1) (r.word w) := by
  rw [Reading.word]
  split
  · exact fill h w
  split
  · exact ok (h.trans (Nat.le_succ n))
  · next rest _ _ =>
    exact hyphens h w (String.ofList (splitEquals rest).1) (splitEquals rest).2
  · split
    · exact value h w
    · exact (letters h).mono (Nat.le_succ n)
  · exact value h w

/-- An option is not kept for the target. -/
theorem word_of_isOption (ht : r.trailing = false) (option : IsOption w) (h : r.held ≤ n) :
    AtMost n (r.word w) := by
  cases option with
  | long hm =>
    obtain ⟨s, -, read⟩ := word_long ht hm
    exact read ▸ switch s h
  | assigned value hm =>
    obtain ⟨s, known, read⟩ := word_assigned value ht hm
    rw [read]
    split
    · exact assigned known _ h
    · exact error _
  | letters nonempty known => exact word_letters ht nonempty known ▸ letters h

theorem words (h : r.held ≤ n) (ws : List String) : AtMost (n + ws.length) (r.words ws) := by
  induction ws generalizing r n with
  | nil => exact ok h
  | cons w rest ih =>
    rw [Reading.words, List.length_cons, Nat.add_comm rest.length, ← Nat.add_assoc]
    exact (word h w).bind fun _ le => ih le

end AtMost

/-- An option behind the executable is not kept for the target. -/
theorem words_of_isOption {scenario execName w : String} (h : IsOption w) (rest : List String) :
    AtMost rest.length ((named scenario execName).words (w :: rest)) := by
  rw [words]
  have first : AtMost 0 ((named scenario execName).word w) :=
    .word_of_isOption rfl h (Nat.le_refl 0)
  exact (Nat.zero_add rest.length ▸ first.bind fun _ le => .words le rest)

end Reading

open Reading

/-- No more words are kept for the target than the reading holds. -/
theorem length_targetArgs_le {ws : List String} {a : Arguments} {n : Nat}
    (atMost : AtMost n (words {} ws)) (h : ofWords ws = .ok a) : a.targetArgs.length ≤ n := by
  have settled : AtMost n (words {} ws >>= settle) := atMost.bind fun _ le => .settle le
  have same : ofWords ws = (words {} ws >>= settle) >>= fun r =>
      if r.args.directory && r.args.scenario.isNone then .error .missingRequired
      else .ok r.args := by
    rw [ofWords]
    cases words {} ws with
    | error e => rfl
    | ok r => rfl
  rw [same] at h
  cases read : words {} ws >>= settle with
  | error e =>
    rw [read] at h
    cases h
  | ok r =>
    rw [read] at h
    change (if _ then _ else _) = _ at h
    split at h <;> cases h
    exact (Nat.le_add_right _ _).trans (settled r read)

/-- What is asked for by a scenario, an executable and words for the target, and nothing else. -/
def plain (scenario execName : String) (targetArgs : List String) : Arguments :=
  { scenario := some (.ofString scenario), execName := some execName, targetArgs }

/-- The words behind the executable are those for the target exactly if the first one is no option of
the program. -/
theorem ofWords_eq_plain_iff {scenario execName : String} (nonempty : scenario ≠ "")
    (hs : scenario.toList.head? ≠ some '-') (he : execName.toList.head? ≠ some '-')
    {ws : List String} (separator : ws.head? ≠ some "--") :
    ofWords (scenario :: execName :: ws) = .ok (plain scenario execName ws) ↔
      ∀ w ∈ ws.head?, ¬IsOption w := by
  cases ws with
  | nil =>
    refine iff_of_true ?_ nofun
    rw [ofWords, words_named nonempty hs he]
    rfl
  | cons w rest =>
    have differs : w ≠ "--" := fun same => separator (congrArg some same)
    constructor
    · intro h _ hw option
      cases hw
      have atMost : AtMost rest.length (words {} (scenario :: execName :: w :: rest)) :=
        words_named nonempty hs he _ ▸ words_of_isOption option rest
      exact absurd (length_targetArgs_le atMost h) (Nat.not_succ_le_self _)
    · intro h
      rw [ofWords, words_named nonempty hs he, words_of_not_isOption differs (h w rfl)]
      rfl

/-- Behind the separator all words are for the target, also a first one that is an option. -/
theorem ofWords_separator {scenario execName : String} (nonempty : scenario ≠ "")
    (hs : scenario.toList.head? ≠ some '-') (he : execName.toList.head? ≠ some '-')
    (ws : List String) :
    ofWords (scenario :: execName :: "--" :: ws) = .ok (plain scenario execName ws) := by
  rw [ofWords, words_named nonempty hs he]
  cases ws with
  | nil => rfl
  | cons w rest =>
    rw [words_of_separator]
    rfl

end PatchTrial.Arguments
