import PatchTrial.Proofs.Regex.AnyText

/-!
Patterns of whole lines. Such a pattern starts at the start of the line and ends at its end; between
them it has letters that stand for themselves, a group of one of several words, and a group of all
that is left, in letters of some set.

What is proved:
  1. `search_anchored`: a pattern that starts at the start of the text is tried there only.
  2. `through_letters`, `run_choice_eq_some_iff` and `run_remainder`: what each part takes, whatever is
     to follow it.
  3. `captures?_sentence_iff`, `captures?_open_iff` and `captures?_named_iff`: the lines that such patterns
     match, with what their groups hold.
-/
namespace PatchTrial.Regex

/-- No word is the start of another one. -/
def PrefixFree (words : List (List Char)) : Prop := ∀ a ∈ words, ∀ b ∈ words, a <+: b → a = b

instance (words : List (List Char)) : Decidable (PrefixFree words) :=
  inferInstanceAs (Decidable (∀ a ∈ words, ∀ b ∈ words, a <+: b → a = b))

/-- A text starts with one of the words at most. -/
theorem PrefixFree.eq {words : List (List Char)} (h : PrefixFree words) {a b text : List Char}
    (ha : a ∈ words) (hb : b ∈ words) (at_ : a <+: text) (bt : b <+: text) : a = b := by
  rcases List.prefix_or_prefix_of_prefix at_ bt with ab | ba
  · exact h a ha b hb ab
  · exact (h b hb a ha ba).symm

/-! ## Parts of a pattern -/

/-- Nodes one after another. -/
def Node.through (nodes : List Node) (k : Follow) : Follow := nodes.foldr Node.run k

def letters (word : List Char) : List Node := word.map fun c => .one (.single c)

def Node.word : List Char → Node
  | [] => .empty
  | c :: word => (letters word).foldl Node.seq (.one (.single c))

/-- One of some words, the first one preferred. -/
def Node.choice : List (List Char) → Node
  | [] => .empty
  | [word] => .word word
  | word :: more => .alt (.word word) (choice more)

/-- All that is left of a line, one letter at least and all of them from a set, as a group. -/
def Node.remainder (index : Nat) (set : CharSet) : Node :=
  .group index (.repeated (.one set) 1 none true)

/-- A pattern of a whole line, by its parts. -/
def Node.line (parts : List Node) : Node :=
  (parts ++ [Node.look .finish]).foldl Node.seq (.look .start)

/-- What follows the parts of such a pattern: the end of the line. -/
def Follow.ending : Follow := (Node.look .finish).run Follow.nothing

def Place.past : List Char → Place → Place
  | [], p => p
  | c :: word, p => past word (p.after c (p.rest.drop 1))

theorem Place.past_rest (word : List Char) (p : Place) :
    (p.past word).rest = p.rest.drop word.length := by
  induction word generalizing p with
  | nil => rfl
  | cons c word ih =>
    rw [past, ih, after, List.drop_drop, List.length_cons, Nat.add_comm]

theorem Place.past_index (word : List Char) (p : Place) :
    (p.past word).index = p.index + word.length := by
  induction word generalizing p with
  | nil => rfl
  | cons c word ih =>
    rw [past, ih, after, List.length_cons, Nat.add_assoc, Nat.add_comm 1]

theorem Node.through_append (nodes more : List Node) (k : Follow) :
    through (nodes ++ more) k = through nodes (through more k) := List.foldr_append

theorem Node.run_foldl_seq (nodes : List Node) (first : Node) (k : Follow) :
    (nodes.foldl Node.seq first).run k = first.run (through nodes k) := by
  induction nodes generalizing first with
  | nil => rfl
  | cons node rest ih => exact ih (.seq first node)

/-! ## Where a pattern is tried -/

theorem prev_of_mem_placesFrom {c : Char} {index : Nat} {text : List Char} {p : Place}
    (h : p ∈ placesFrom (some c) index text) : p.prev.isNone = false := by
  induction text generalizing c index with
  | nil =>
    rw [placesFrom, List.mem_singleton] at h
    rw [h]
    rfl
  | cons d rest ih =>
    rw [placesFrom, List.mem_cons] at h
    rcases h with rfl | h
    · rfl
    · exact ih h

/-- A pattern that starts at the start of the text is tried there and nowhere else. -/
theorem search_anchored (nodes : List Node) (text : List Char) :
    (nodes.foldl Node.seq (.look .start)).search text =
      Node.through nodes Follow.nothing ⟨none, text, 0⟩ [] := by
  have tried (p : Place) : Node.matchAt (nodes.foldl Node.seq (.look .start)) p =
      if p.prev.isNone then Node.through nodes Follow.nothing p [] else none := by
    rw [Node.matchAt, Node.run_foldl_seq]
    rfl
  have later (c : Char) (rest : List Char) : (placesFrom (some c) 1 rest).findSome?
      (Node.matchAt (nodes.foldl Node.seq (.look .start))) = none := by
    refine List.findSome?_eq_none_iff.2 fun p hp => ?_
    rw [tried, prev_of_mem_placesFrom hp]
    rfl
  rw [Node.search_eq_findSome?, places]
  cases text with
  | nil => rw [placesFrom, List.findSome?_singleton, tried]; rfl
  | cons c rest =>
    rw [placesFrom, List.findSome?_cons, later, tried]
    dsimp only [Option.isNone_none, if_true]
    cases Node.through nodes Follow.nothing ⟨none, c :: rest, 0⟩ [] <;> rfl

/-! ## Letters and words -/

theorem contains_single (c d : Char) : (CharSet.single c).contains d.toNat = (d == c) := by
  rw [Bool.eq_iff_iff, beq_iff_eq, ← Char.toNat_inj]
  simp only [CharSet.single, CharSet.contains, Bool.and_eq_true, decide_eq_true_eq]
  omega

theorem through_letters (word : List Char) (k : Follow) (p : Place) (g : Groups) :
    Node.through (letters word) k p g = if word <+: p.rest then k (p.past word) g else none := by
  induction word generalizing p with
  | nil =>
    rw [if_pos List.nil_prefix]
    rfl
  | cons c word ih =>
    obtain ⟨prev, text, index⟩ := p
    show (Node.one (.single c)).run (Node.through (letters word) k) ⟨prev, text, index⟩ g = _
    cases text with
    | nil =>
      rw [if_neg fun h => List.cons_ne_nil c word (List.prefix_nil.1 h)]
      rfl
    | cons d rest =>
      show (if (CharSet.single c).contains d.toNat then
        Node.through (letters word) k ⟨some d, rest, index + 1⟩ g else none) = _
      rw [contains_single]
      by_cases hd : d = c
      · subst hd
        rw [if_pos (beq_self_eq_true d), ih]
        simp only [List.cons_prefix_cons, true_and]
        rfl
      · rw [if_neg (by simpa using hd), if_neg fun h => hd (List.cons_prefix_cons.1 h).1.symm]

theorem through_letters_eq_some_iff {word : List Char} {k : Follow} {p : Place} {g found : Groups} :
    Node.through (letters word) k p g = some found ↔
      ∃ more, p.rest = word ++ more ∧ (p.past word).rest = more ∧ k (p.past word) g = some found := by
  rw [through_letters, Option.ite_none_right_eq_some, Place.past_rest]
  constructor
  · intro h
    obtain ⟨⟨more, e⟩, taken⟩ := h
    exact ⟨more, e.symm, by rw [← e, List.drop_left], taken⟩
  · intro h
    obtain ⟨more, e, -, taken⟩ := h
    exact ⟨⟨more, e.symm⟩, taken⟩

theorem run_word (word : List Char) (k : Follow) (p : Place) (g : Groups) :
    (Node.word word).run k p g = if word <+: p.rest then k (p.past word) g else none := by
  cases word with
  | nil => exact through_letters [] k p g
  | cons c word =>
    rw [Node.word, Node.run_foldl_seq]
    exact through_letters (c :: word) k p g

/-- The first of the words that lets everything after it succeed is taken. -/
theorem run_choice {words : List (List Char)} (nonempty : words ≠ []) (k : Follow) (p : Place)
    (g : Groups) :
    (Node.choice words).run k p g =
      words.findSome? fun word => if word <+: p.rest then k (p.past word) g else none := by
  induction words with
  | nil => exact absurd rfl nonempty
  | cons word more ih =>
    cases more with
    | nil => rw [Node.choice, run_word, List.findSome?_singleton]
    | cons next rest =>
      show Follow.either ((Node.word word).run k) ((Node.choice (next :: rest)).run k) p g = _
      rw [Follow.either, run_word, ih (List.cons_ne_nil next rest)]
      cases taken : (if word <+: p.rest then k (p.past word) g else none) <;>
        simp only [List.findSome?_cons, taken]

theorem run_choice_eq_some_iff {words : List (List Char)} (nonempty : words ≠ [])
    (apart : PrefixFree words) {k : Follow} {p : Place} {g found : Groups} :
    (Node.choice words).run k p g = some found ↔
      ∃ word ∈ words, Node.through (letters word) k p g = some found := by
  simp only [run_choice nonempty, ← through_letters]
  constructor
  · intro h
    exact List.exists_of_findSome?_eq_some h
  · intro h
    obtain ⟨word, hw, taken⟩ := h
    -- some word is taken, and it is this one
    have any : (words.findSome? fun word => Node.through (letters word) k p g).isSome :=
      List.findSome?_isSome_iff.2 ⟨word, hw, by rw [taken]; rfl⟩
    obtain ⟨other, ho⟩ := Option.isSome_iff_exists.1 any
    obtain ⟨word', hw', taken'⟩ := List.exists_of_findSome?_eq_some ho
    obtain ⟨_, e, -⟩ := through_letters_eq_some_iff.1 taken
    obtain ⟨_, e', -⟩ := through_letters_eq_some_iff.1 taken'
    obtain rfl := apart.eq hw hw' ⟨_, e.symm⟩ ⟨_, e'.symm⟩
    rw [ho, ← taken', taken]

/-! ## All that is left -/

/-- A round is tried if it is no use to stop. -/
theorem Follow.round_of_stop_none {greedy : Bool} {more stop : Follow} {p : Place} {g : Groups}
    (h : stop p g = none) : Follow.round greedy more stop p g = more p g := by
  cases greedy with
  | false =>
    show Follow.either stop more p g = _
    rw [Follow.either, h]
  | true =>
    show Follow.either more stop p g = _
    rw [Follow.either, h]
    cases more p g <;> rfl

section Remainder
variable {set : CharSet} {greedy : Bool} {k : Follow} (ends : ∀ p g, p.rest ≠ [] → k p g = none)
include ends

/-- Rounds over letters of a set go to the end of the text if nothing but the end may follow. -/
theorem rounds_set (text : List Char) (g : Groups) :
    ∀ (n : Nat) (prev : Option Char) (index : Nat), text.length ≤ n →
      Follow.rounds (Node.one set).run greedy k n ⟨prev, text, index⟩ g =
        if text.all fun c => set.contains c.toNat then k (Place.finish prev index text) g
        else none := by
  induction text with
  | nil =>
    intro n prev index _
    rw [if_pos List.all_nil]
    cases n with
    | zero => rfl
    | succ n =>
      show Follow.round greedy _ k ⟨prev, [], index⟩ g = k ⟨prev, [], index⟩ g
      cases greedy with
      | true => rfl
      | false =>
        show Follow.either k _ _ g = _
        rw [Follow.either]
        cases k ⟨prev, [], index⟩ g <;> rfl
  | cons c rest ih =>
    intro n prev index hn
    cases n with
    | zero => cases hn
    | succ n =>
      -- what follows stands at the end only, so the set has to go on up to there, greedy or not
      have more : k ⟨prev, c :: rest, index⟩ g = none := ends _ g (List.cons_ne_nil c rest)
      show Follow.round greedy _ k ⟨prev, c :: rest, index⟩ g = _
      rw [Follow.round_of_stop_none more]
      show (if set.contains c.toNat then
        if index < index + 1 then Follow.rounds (Node.one set).run greedy k n ⟨some c, rest, index + 1⟩ g
        else none else none) = _
      rw [if_pos (Nat.lt_succ_self index), ih n (some c) (index + 1) (Nat.le_of_succ_le_succ hn)]
      simp only [List.all_cons, Place.finish]
      by_cases hc : set.contains c.toNat = true <;> simp [hc]

theorem many_set (prev : Option Char) (text : List Char) (index : Nat) (g : Groups) :
    (Node.repeated (.one set) 1 none greedy).run k ⟨prev, text, index⟩ g =
      if text ≠ [] ∧ text.all fun c => set.contains c.toNat then k (Place.finish prev index text) g
      else none := by
  show Follow.many (Node.one set).run greedy k ⟨prev, text, index⟩ g = _
  cases text with
  | nil => rw [if_neg fun h => h.1 rfl]; rfl
  | cons c rest =>
    show (if set.contains c.toNat then
      if index < index + 1 then
        Follow.rounds (Node.one set).run greedy k rest.length ⟨some c, rest, index + 1⟩ g
      else _ else none) = _
    rw [if_pos (Nat.lt_succ_self index), rounds_set ends rest g _ _ _ (Nat.le_refl _)]
    simp only [List.all_cons, Place.finish]
    by_cases hc : set.contains c.toNat = true <;> simp [hc]

end Remainder

theorem ending_eq (p : Place) (g : Groups) :
    Follow.ending p g = if p.rest = [] then some g else none := by
  show (if p.rest.isEmpty then some g else none) = _
  simp only [List.isEmpty_iff]

theorem run_remainder (index : Nat) (set : CharSet) (p : Place) (g : Groups) :
    (Node.remainder index set).run Follow.ending p g =
      if p.rest ≠ [] ∧ p.rest.all fun c => set.contains c.toNat then
        some ((index, ⟨p.rest, p.rest.length⟩) :: g) else none := by
  obtain ⟨prev, text, start⟩ := p
  show (Node.repeated (.one set) 1 none true).run
    (fun q g' => Follow.ending q ((index, Place.spanTo ⟨prev, text, start⟩ q) :: g'))
    ⟨prev, text, start⟩ g = _
  rw [many_set]
  · rw [ending_eq, Place.finish_rest, if_pos rfl, Place.spanTo, Place.finish_index,
      Nat.add_sub_cancel_left]
  · intro q g' more
    rw [ending_eq, if_neg more]

/-- Letters, and after them all that is left. -/
theorem through_open_eq_some_iff {word : List Char} {index : Nat} {set : CharSet} {p : Place}
    {g found : Groups} :
    Node.through (letters word ++ [.remainder index set]) Follow.ending p g = some found ↔
      ∃ more, more ≠ [] ∧ (∀ c ∈ more, set.contains c.toNat) ∧ p.rest = word ++ more ∧
        found = (index, ⟨more, more.length⟩) :: g := by
  have last : Node.through [.remainder index set] Follow.ending =
      (Node.remainder index set).run Follow.ending := rfl
  rw [Node.through_append, last, through_letters_eq_some_iff]
  refine exists_congr fun more => ?_
  rw [run_remainder, Option.ite_none_right_eq_some, Option.some.injEq, List.all_eq_true]
  constructor
  · intro h
    obtain ⟨e, rest, ⟨nonempty, all⟩, taken⟩ := h
    rw [rest] at nonempty all taken
    exact ⟨nonempty, all, e, taken.symm⟩
  · intro h
    obtain ⟨nonempty, all, e, taken⟩ := h
    have rest : (p.past word).rest = more := by rw [Place.past_rest, e, List.drop_left]
    rw [rest]
    exact ⟨e, rfl, ⟨nonempty, all⟩, taken.symm⟩

/-! ## Whole lines -/

theorem captures?_eq_some_iff {r : Regex} {line : String} {c : Captures} :
    r.captures? line = some c ↔ r.node.search line.toList = some c.groups := by
  rw [captures?, Option.map_eq_some_iff]
  constructor
  · intro h
    obtain ⟨groups, found, rfl⟩ := h
    exact found
  · intro h
    exact ⟨c.groups, h, rfl⟩

theorem search_line (parts : List Node) (text : List Char) :
    (Node.line parts).search text = Node.through parts Follow.ending ⟨none, text, 0⟩ [] := by
  rw [Node.line, search_anchored, Node.through_append]
  rfl

section Lines
variable {r : Regex} {line : String} {c : Captures}

/-- A pattern of one text. -/
theorem captures?_sentence_iff {text : List Char} (h : r.node = .line (letters text)) :
    r.captures? line = some c ↔ line.toList = text ∧ c.groups = [] := by
  rw [captures?_eq_some_iff, h, search_line, through_letters_eq_some_iff]
  simp only [ending_eq, Option.ite_none_right_eq_some, Option.some.injEq]
  constructor
  · intro taken
    obtain ⟨more, e, rest, ended, groups⟩ := taken
    rw [rest] at ended
    rw [ended, List.append_nil] at e
    exact ⟨e, groups.symm⟩
  · intro taken
    obtain ⟨rfl, groups⟩ := taken
    have rest : (Place.past line.toList ⟨none, line.toList, 0⟩).rest = [] := by
      rw [Place.past_rest, List.drop_length]
    exact ⟨[], (List.append_nil _).symm, rest, rest, groups.symm⟩

/-- A pattern of a text with something of a set behind it. -/
theorem captures?_open_iff {text : List Char} {set : CharSet}
    (h : r.node = .line (letters text ++ [.remainder 1 set])) :
    r.captures? line = some c ↔
      ∃ more, more ≠ [] ∧ (∀ d ∈ more, set.contains d.toNat) ∧ line.toList = text ++ more ∧
        c.groups = [(1, ⟨more, more.length⟩)] := by
  rw [captures?_eq_some_iff, h, search_line]
  exact through_open_eq_some_iff

/-- A pattern of a name, a text, and something of a set behind it. -/
theorem captures?_named_iff {names : List (List Char)} {text : List Char} {set : CharSet}
    (nonempty : names ≠ []) (apart : PrefixFree names)
    (h : r.node = .line (.group 1 (.choice names) :: (letters text ++ [.remainder 2 set]))) :
    r.captures? line = some c ↔
      ∃ name ∈ names, ∃ more, more ≠ [] ∧ (∀ d ∈ more, set.contains d.toNat) ∧
        line.toList = name ++ (text ++ more) ∧
        c.groups = [(2, ⟨more, more.length⟩), (1, ⟨line.toList, name.length⟩)] := by
  rw [captures?_eq_some_iff, h, search_line]
  show (Node.choice names).run (fun q g => Node.through (letters text ++ [.remainder 2 set])
    Follow.ending q ((1, Place.spanTo ⟨none, line.toList, 0⟩ q) :: g)) ⟨none, line.toList, 0⟩ [] =
      some c.groups ↔ _
  rw [run_choice_eq_some_iff nonempty apart]
  refine exists_congr fun name => and_congr_right fun _ => ?_
  rw [through_letters_eq_some_iff]
  simp only [through_open_eq_some_iff, Place.spanTo, Place.past_index, Nat.zero_add, Nat.sub_zero]
  constructor
  · intro taken
    obtain ⟨behind, e, rest, more, one, all, more_eq, groups⟩ := taken
    rw [rest] at more_eq
    exact ⟨more, one, all, by rw [e, more_eq], groups⟩
  · intro taken
    obtain ⟨more, one, all, e, groups⟩ := taken
    have rest : (Place.past name ⟨none, line.toList, 0⟩).rest = text ++ more := by
      rw [Place.past_rest]
      show line.toList.drop name.length = _
      rw [e, List.drop_left]
    exact ⟨text ++ more, e, rest, more, one, all, rest, groups⟩

end Lines

end PatchTrial.Regex
