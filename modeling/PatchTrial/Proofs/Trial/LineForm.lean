import PatchTrial.Proofs.Trial.StatLine

/-!
The form of the lines of the roster. A line is cut at its first opening and at its last closing bracket,
and what stands behind the name is told word by word. So a name cannot pass for what stands behind it,
whatever it holds, and only lines of this form are read.

What is proved:
  1. `pid?_eq_some_iff`: which texts are numbers of processes.
  2. `firstWords_iff`: the words of a text are its longest pieces without white space, in order.
  3. `ofLine?_eq_some_iff`: a line is read exactly if it has the form, and then as it tells.
  4. `ofLine?_exact`: so a line that is written from its parts is read back.
-/
namespace PatchTrial.Trial.Roster
open Entry Text

/-! ## Numbers -/

/-- A text spells a number of a process: digits after at most one plus sign. -/
structure Spells (cs : List Char) (n : Nat) : Prop where
  text : ∃ sign digits, cs = sign ++ digits ∧ (sign = [] ∨ sign = ['+']) ∧ digits ≠ [] ∧
    (∀ c ∈ digits, c.isDigit = true) ∧ Nat.ofDigitChars 10 digits 0 = n
  le : n ≤ pidLimit

/-- The number that digits without a sign stand for. -/
def unsigned? (digits : List Char) : Option Nat :=
  if digits.isEmpty || !digits.all Char.isDigit then none
  else
    let n := digits.foldl (fun n c => n * 10 + (c.toNat - '0'.toNat)) 0
    if n ≤ pidLimit then some n else none

theorem unsigned?_eq_some_iff {digits : List Char} {n : Nat} :
    unsigned? digits = some n ↔ digits ≠ [] ∧ (∀ c ∈ digits, c.isDigit = true) ∧
      Nat.ofDigitChars 10 digits 0 = n ∧ n ≤ pidLimit := by
  have value : digits.foldl (fun n c => n * 10 + (c.toNat - '0'.toNat)) 0 =
      Nat.ofDigitChars 10 digits 0 := by
    simp only [Nat.ofDigitChars_eq_foldl, Nat.mul_comm 10]
  rw [unsigned?, value]
  simp only [Option.ite_none_left_eq_some, Option.ite_none_right_eq_some, Option.some.injEq,
    Bool.or_eq_true, Bool.not_eq_true', not_or, Bool.not_eq_false, List.isEmpty_iff,
    List.all_eq_true, and_assoc, ne_eq]
  refine and_congr_right fun _ => and_congr_right fun _ => and_comm.trans ?_
  exact and_congr_right fun same => by rw [same]

theorem pid?_of_unsigned {cs : List Char} (h : cs.head? ≠ some '+') : pid? cs = unsigned? cs := by
  unfold pid?
  split
  · exact absurd rfl h
  · rfl

/-- The numbers of processes are the texts that spell them. -/
theorem pid?_eq_some_iff {cs : List Char} {n : Nat} : pid? cs = some n ↔ Spells cs n := by
  constructor
  · intro h
    by_cases signed : cs.head? = some '+'
    · obtain ⟨digits, rfl⟩ := List.head?_eq_some_iff.1 signed
      obtain ⟨nonempty, all, value, le⟩ := unsigned?_eq_some_iff.1 h
      exact ⟨⟨['+'], digits, rfl, .inr rfl, nonempty, all, value⟩, le⟩
    · rw [pid?_of_unsigned signed] at h
      obtain ⟨nonempty, all, value, le⟩ := unsigned?_eq_some_iff.1 h
      exact ⟨⟨[], cs, rfl, .inl rfl, nonempty, all, value⟩, le⟩
  · rintro ⟨⟨sign, digits, rfl, signs, nonempty, all, value⟩, le⟩
    have read := unsigned?_eq_some_iff.2 ⟨nonempty, all, value, le⟩
    rcases signs with rfl | rfl
    · -- a plus sign is no digit
      have unsigned : digits.head? ≠ some '+' := by
        intro first
        exact absurd (all '+' (List.mem_of_head? first)) (by decide)
      rw [List.nil_append, pid?_of_unsigned unsigned, read]
    · exact read

/-! ## Words -/

/-- A text begins with some words: each stands behind white space or where the text begins, and goes on
until white space or the end of the text. -/
inductive FirstWords : List Char → List (List Char) → Prop
  | nil (cs : List Char) : FirstWords cs []
  | cons {gap word rest : List Char} {more : List (List Char)} :
      (∀ c ∈ gap, isBlank c = true) → word ≠ [] → (∀ c ∈ word, isBlank c = false) →
      StartsBlank rest → FirstWords rest more → FirstWords (gap ++ (word ++ rest)) (word :: more)

theorem blankWords_gap {gap : List Char} (h : ∀ c ∈ gap, isBlank c = true) (rest : List Char) :
    blankWords (gap ++ rest) = blankWords rest := by
  induction gap with
  | nil => rfl
  | cons c gap ih =>
    rw [List.cons_append, blankWords_blank (h c List.mem_cons_self),
      ih fun d hd => h d (List.mem_cons_of_mem c hd)]

/-- A text with a word begins with white space, if with anything, and then with the word. -/
theorem exists_of_blankWords {cs word : List Char} {more : List (List Char)}
    (h : blankWords cs = word :: more) :
    ∃ gap rest, cs = gap ++ (word ++ rest) ∧ (∀ c ∈ gap, isBlank c = true) ∧ word ≠ [] ∧
      (∀ c ∈ word, isBlank c = false) ∧ StartsBlank rest ∧ blankWords rest = more := by
  obtain ⟨gap, solid, rfl, blank, first⟩ := exists_run isBlank cs
  obtain ⟨run, rest, rfl, all, next⟩ := exists_run (fun c => !isBlank c) solid
  simp only [Bool.not_eq_true', Bool.not_eq_false'] at all next
  rw [blankWords_gap blank] at h
  -- what is no white space and does not end the text begins a word
  have nonempty : run ≠ [] := by
    rintro rfl
    cases rest with
    | nil => cases h
    | cons c tail => exact Bool.false_ne_true ((first c rfl).symm.trans (next c rfl))
  rw [blankWords_word nonempty all next] at h
  obtain ⟨rfl, rfl⟩ := List.cons.inj h
  exact ⟨gap, rest, rfl, blank, nonempty, all, next, rfl⟩

theorem firstWords_iff {cs : List Char} {words : List (List Char)} :
    FirstWords cs words ↔ words <+: blankWords cs := by
  constructor
  · intro h
    induction h with
    | nil cs => exact List.nil_prefix
    | cons gap nonempty solid ends _ ih =>
      rw [blankWords_gap gap, blankWords_word nonempty solid ends]
      exact (List.prefix_cons_inj _).2 ih
  · intro h
    induction words generalizing cs with
    | nil => exact .nil cs
    | cons word more ih =>
      obtain ⟨rest, same⟩ := h
      obtain ⟨gap, behind, rfl, blank, nonempty, solid, ends, later⟩ :=
        exists_of_blankWords same.symm
      exact .cons blank nonempty solid ends (ih ⟨rest, later.symm⟩)

/-! ## Lines -/

/-- A line tells of a process: before the name in brackets nothing opens a bracket and behind it
nothing closes one, and the first words behind it tell the state, the parent and the group. -/
def Tells (line : String) (e : Entry) : Prop :=
  ∃ lead name tail, line.toList = lead ++ '(' :: (name ++ ')' :: tail) ∧ '(' ∉ lead ∧ ')' ∉ tail ∧
    e.comm = String.ofList name ∧
    ∃ state parent group, FirstWords tail [state, parent, group] ∧ state.head? = some e.state ∧
      Spells parent e.parent ∧ Spells group e.group

theorem splitFirst?_eq_some_iff {c : Char} {cs before after : List Char} :
    splitFirst? c cs = some (before, after) ↔ cs = before ++ c :: after ∧ c ∉ before := by
  constructor
  · intro h
    rcases notMem_or_exists_first c cs with absent | ⟨before', after', rfl, absent⟩
    · rw [splitFirst?, span_of_notMem absent] at h
      cases h
    · rw [splitFirst?_append after' absent] at h
      obtain ⟨rfl, rfl⟩ := Prod.mk.inj (Option.some.inj h)
      exact ⟨rfl, absent⟩
  · rintro ⟨rfl, absent⟩
    exact splitFirst?_append after absent

/-- The last of a character is the first one from the end. -/
theorem splitLast?_eq (c : Char) (cs : List Char) :
    splitLast? c cs = (splitFirst? c cs.reverse).map fun (after, before) =>
      (before.reverse, after.reverse) := by
  rw [splitLast?, splitFirst?]
  rcases cs.reverse.span (· != c) with ⟨after, _ | ⟨d, before⟩⟩ <;> rfl

theorem splitLast?_eq_some_iff {c : Char} {cs before after : List Char} :
    splitLast? c cs = some (before, after) ↔ cs = before ++ c :: after ∧ c ∉ after := by
  constructor
  · intro h
    rw [splitLast?_eq] at h
    obtain ⟨⟨after', before'⟩, cut, same⟩ := Option.map_eq_some_iff.1 h
    obtain ⟨rfl, rfl⟩ := Prod.mk.inj same
    obtain ⟨reversed, absent⟩ := splitFirst?_eq_some_iff.1 cut
    refine ⟨?_, fun hm => absent (List.mem_reverse.1 hm)⟩
    rw [← List.reverse_reverse cs, reversed, List.reverse_append, List.reverse_cons,
      List.append_assoc, List.singleton_append]
  · rintro ⟨rfl, absent⟩
    exact splitLast?_append before absent

/-- A line is read exactly if it has the form, and then as it tells. -/
theorem ofLine?_eq_some_iff {pid : Pid} {line : String} {e : Entry} :
    ofLine? pid line = some e ↔ e.pid = pid ∧ Tells line e := by
  constructor
  · intro h
    simp only [ofLine?, Option.bind_eq_bind, Option.bind_eq_some_iff] at h
    obtain ⟨⟨head, tail⟩, last, ⟨lead, name⟩, first, h⟩ := h
    obtain ⟨cut, closed⟩ := splitLast?_eq_some_iff.1 last
    obtain ⟨rfl, opened⟩ := splitFirst?_eq_some_iff.1 first
    rw [List.append_assoc, List.cons_append] at cut
    split at h
    · next state letters parent group more words =>
      simp only [Option.bind_eq_some_iff, Option.pure_def, Option.some.injEq] at h
      obtain ⟨parentPid, hp, groupPid, hg, rfl⟩ := h
      refine ⟨rfl, lead, name, tail, cut, opened, closed, rfl, ?_⟩
      have three : FirstWords tail [state :: letters, parent, group] :=
        firstWords_iff.2 ⟨more, words.symm⟩
      exact ⟨_, _, _, three, rfl, pid?_eq_some_iff.1 hp, pid?_eq_some_iff.1 hg⟩
    · cases h
  · rintro ⟨rfl, lead, name, tail, text, opened, closed, named, state, parent, group, three, starts,
      hp, hg⟩
    obtain ⟨letters, rfl⟩ := List.head?_eq_some_iff.1 starts
    obtain ⟨more, words⟩ := firstWords_iff.1 three
    have cut := splitLast?_append (lead ++ '(' :: name) closed
    rw [List.append_assoc, List.cons_append, ← text] at cut
    simp only [ofLine?, cut, splitFirst?_append name opened, ← words, List.cons_append,
      pid?_eq_some_iff.2 hp, pid?_eq_some_iff.2 hg, Option.bind_eq_bind, Option.bind_some,
      Option.pure_def, ← named]

/-- A line that is written from its parts is read back, whatever the name holds, and only lines of the
form are read. -/
theorem ofLine?_exact :
    (∀ (pid parent group : Pid) (lead name more : String) (state : Char), '(' ∉ lead.toList →
      isBlank state = false → state ≠ ')' → parent ≤ pidLimit → group ≤ pidLimit →
      StartsBlank more.toList → ')' ∉ more.toList →
      ofLine? pid (lead ++ "(" ++ name ++ ") " ++ String.singleton state ++ " " ++
        toString parent ++ " " ++ toString group ++ more) = some ⟨pid, name, state, parent, group⟩) ∧
    ∀ pid line e, ofLine? pid line = some e ↔ e.pid = pid ∧ Tells line e := by
  refine ⟨?_, fun _ _ _ => ofLine?_eq_some_iff⟩
  intro pid parent group lead name more state opened solid unclosed hp hg ends closed
  have parts : (lead ++ "(" ++ name ++ ") " ++ String.singleton state ++ " " ++ toString parent ++ " " ++
      toString group ++ more).toList = lead.toList ++ '(' :: (name.toList ++ ')' :: ' ' :: state ::
        ' ' :: ((toString parent).toList ++ ' ' :: ((toString group).toList ++ more.toList))) := by
    simp [String.toList_append]
  rw [ofLine?_of_parts parts opened solid unclosed hp hg ends closed, String.ofList_toList]

/-- A name that goes on like a line of its own, with brackets and fields. -/
theorem forged_fields_read_back :
    '(' ∉ "42 ".toList ∧ isBlank 'S' = false ∧ 'S' ≠ ')' ∧ 7 ≤ pidLimit ∧ 42 ≤ pidLimit ∧
      StartsBlank " 0 -1\n".toList ∧ ')' ∉ " 0 -1\n".toList ∧
      ofLine? 42 ("42 " ++ "(" ++ "a) Z 1 (b)\n43 (c) R 1 1 " ++ ") " ++ String.singleton 'S' ++ " " ++
        toString 7 ++ " " ++ toString 42 ++ " 0 -1\n") =
        some ⟨42, "a) Z 1 (b)\n43 (c) R 1 1 ", 'S', 7, 42⟩ := by
  have opened : '(' ∉ "42 ".toList := by decide
  have ends : StartsBlank " 0 -1\n".toList := by
    intro c hc
    cases hc
    decide
  have closed : ')' ∉ " 0 -1\n".toList := by decide
  exact ⟨opened, by decide, by decide, by decide, by decide, ends, closed,
    ofLine?_exact.1 42 7 42 "42 " _ _ 'S' opened (by decide) (by decide) (by decide) (by decide) ends
      closed⟩

end PatchTrial.Trial.Roster
