import PatchTrial.Proofs.Path
import PatchTrial.Proofs.Text.Spans
import PatchTrial.Proofs.Text.Utf8
import PatchTrial.Trial.Roster

/-!
The lines of the roster. The machine writes a line from the number, the name, the state, the parent
and the group of a process; the name may hold anything.

What is proved:
  1. `ofLine?_of_parts`: the line of a process is read back, whatever its name is.
  2. `Stat.infoOf?_line`: so are its bytes if the name is text, and otherwise nothing is read.
  3. `linePath_injective` and `pidOfName?_toString`: the file of a process and its name in the roster
     tell which process it is.
-/
namespace PatchTrial.Trial.Roster
open Entry Text

/-! ## Decimal numbers -/

theorem isDigit_of_mem_toString {n : Nat} {c : Char} (h : c ∈ (toString n).toList) :
    c.isDigit := by
  rw [Nat.toString_eq_repr, Nat.toList_repr] at h
  exact Nat.isDigit_of_mem_toDigits (by decide) (by decide) h

theorem digit_bounds {c : Char} (h : c.isDigit) : 48 ≤ c.toNat ∧ c.toNat ≤ 57 := by
  rw [Char.isDigit, Bool.and_eq_true, decide_eq_true_iff, decide_eq_true_iff] at h
  exact ⟨h.1, h.2⟩

theorem plain_of_isDigit {c : Char} (h : c.isDigit) : Utf8.Plain c := by
  have := digit_bounds h
  show c.toNat < 128
  omega

theorem plain_toString (n : Nat) : ∀ c ∈ (toString n).toList, Utf8.Plain c :=
  fun _ h => plain_of_isDigit (isDigit_of_mem_toString h)

theorem not_mem_toString {c : Char} (h : c.isDigit = false) (n : Nat) : c ∉ (toString n).toList := by
  intro hm
  rw [isDigit_of_mem_toString hm] at h
  cases h

/-- The number of a process is read back. -/
theorem pid?_toString {n : Nat} (h : n ≤ pidLimit) : pid? (toString n).toList = some n := by
  have digits : ∀ c ∈ (toString n).toList, c.isDigit := fun c => isDigit_of_mem_toString
  have value : (toString n).toList.foldl (fun n c => n * 10 + (c.toNat - '0'.toNat)) 0 = n := by
    have h := Nat.ofDigitChars_ten_toDigits (n := n)
    rw [Nat.ofDigitChars_eq_foldl] at h
    rw [Nat.toString_eq_repr, Nat.toList_repr]
    simp only [Nat.mul_comm 10] at h
    exact h
  cases hcs : (toString n).toList with
  | nil =>
    rw [Nat.toString_eq_repr, Nat.toList_repr] at hcs
    have := Nat.length_toDigits_pos (b := 10) (n := n)
    rw [hcs] at this
    cases this
  | cons c rest =>
    rw [hcs] at digits value
    -- there is no sign to be dropped
    have unsigned : c ≠ '+' := by
      intro e
      have := digits c List.mem_cons_self
      rw [e] at this
      cases this
    have all : ((c :: rest).all Char.isDigit) = true := List.all_eq_true.2 digits
    unfold pid?
    split
    · next more e =>
      cases e
      exact absurd rfl unsigned
    · simp only [List.isEmpty_cons, all, value, h, if_true]
      rfl

theorem toString_injective {m n : Nat} (h : toString m = toString n) : m = n := by
  rw [Nat.toString_eq_repr, Nat.toString_eq_repr] at h
  have digits := congrArg String.toList h
  rw [Nat.toList_repr, Nat.toList_repr] at digits
  rw [← Nat.ofDigitChars_ten_toDigits (n := m), digits, Nat.ofDigitChars_ten_toDigits]

/-! ## Cutting a line -/

theorem splitFirst?_append {c : Char} {before : List Char} (after : List Char) (h : c ∉ before) :
    splitFirst? c (before ++ c :: after) = some (before, after) := by
  rw [splitFirst?, span_append h]

theorem splitLast?_append {c : Char} (before : List Char) {after : List Char} (h : c ∉ after) :
    splitLast? c (before ++ c :: after) = some (before, after) := by
  have reversed : (before ++ c :: after).reverse = after.reverse ++ c :: before.reverse := by
    rw [List.reverse_append, List.reverse_cons, List.append_assoc, List.singleton_append]
  rw [splitLast?, reversed, span_append fun hm => h (List.mem_reverse.1 hm)]
  simp only [List.reverse_reverse]

/-- Nothing, or a text that starts with white space. -/
def StartsBlank (cs : List Char) : Prop := ∀ c ∈ cs.head?, isBlank c = true

theorem blankWords_blank {c : Char} (h : isBlank c = true) (rest : List Char) :
    blankWords (c :: rest) = blankWords rest := by
  show (if isBlank c then blankWords rest else _) = _
  exact if_pos h

theorem blankWords_solid {c : Char} (h : isBlank c = false) (rest : List Char) :
    blankWords (c :: rest) = match rest, blankWords rest with
      | d :: _, word :: more => if isBlank d then [c] :: word :: more else (c :: word) :: more
      | _, more => [c] :: more := by
  have solid : ¬ isBlank c = true := by
    rw [h]
    exact Bool.false_ne_true
  show (if isBlank c then blankWords rest else _) = _
  exact if_neg solid

theorem blankWords_word {word rest : List Char} (hw : word ≠ [])
    (solid : ∀ c ∈ word, isBlank c = false) (hr : StartsBlank rest) :
    blankWords (word ++ rest) = word :: blankWords rest := by
  induction word with
  | nil => exact absurd rfl hw
  | cons c more ih =>
    have hc := blankWords_solid (solid c List.mem_cons_self) (more ++ rest)
    cases more with
    | nil =>
      -- the word ends here, so what comes next is white space or nothing
      cases rest with
      | nil => exact hc
      | cons d tail =>
        have hd : isBlank d = true := hr d rfl
        refine hc.trans ?_
        dsimp only [List.nil_append]
        cases blankWords (d :: tail) with
        | nil => rfl
        | cons word more => simp only [hd, if_true]
    | cons d word =>
      have hd := solid d (List.mem_cons_of_mem c List.mem_cons_self)
      have next := ih (List.cons_ne_nil d word) fun e he => solid e (List.mem_cons_of_mem c he)
      rw [next] at hc
      refine hc.trans ?_
      simp only [List.cons_append, hd, Bool.false_eq_true, if_false]

/-! ## The line of a process -/

theorem isBlank_digit {c : Char} (h : c.isDigit) : isBlank c = false := by
  have hc := digit_bounds h
  have low : ¬ c.toNat ≤ 13 := by omega
  have high : c.toNat < 0x80 := by omega
  simp only [isBlank, Bool.or_eq_false_iff, Bool.and_eq_false_iff, decide_eq_false_iff_not,
    beq_eq_false_iff_ne]
  omega

theorem toString_ne_nil (n : Nat) : (toString n).toList ≠ [] := by
  rw [Nat.toString_eq_repr, Nat.toList_repr]
  exact List.ne_nil_of_length_pos Nat.length_toDigits_pos

/-- The number in front of the rest of a line is its first word. -/
theorem blankWords_number (n : Nat) {rest : List Char} (h : StartsBlank rest) :
    blankWords ((toString n).toList ++ rest) = (toString n).toList :: blankWords rest :=
  blankWords_word (toString_ne_nil n) (fun _ hc => isBlank_digit (isDigit_of_mem_toString hc)) h

/-- The line of a process is read back, whatever its name is. -/
theorem ofLine?_of_parts {pid parent group : Pid} {line : String} {lead name more : List Char}
    {state : Char}
    (parts : line.toList = lead ++ '(' :: (name ++ ')' :: ' ' :: state :: ' ' ::
      ((toString parent).toList ++ ' ' :: ((toString group).toList ++ more))))
    (hl : '(' ∉ lead) (hs : isBlank state = false) (hs' : state ≠ ')') (hp : parent ≤ pidLimit)
    (hg : group ≤ pidLimit) (hm : StartsBlank more) (hm' : ')' ∉ more) :
    ofLine? pid line = some ⟨pid, String.ofList name, state, parent, group⟩ := by
  have digits (n : Nat) : ')' ∉ (toString n).toList := not_mem_toString (by decide) n
  -- the name may hold brackets, but nothing behind it does
  have last : ')' ∉ ' ' :: state :: ' ' ::
      ((toString parent).toList ++ ' ' :: ((toString group).toList ++ more)) := by
    simp only [List.mem_cons, List.mem_append, not_or]
    exact ⟨by decide, hs'.symm, by decide, digits parent, by decide, digits group, hm'⟩
  have cut := splitLast?_append (lead ++ '(' :: name) last
  rw [List.append_assoc, List.cons_append, ← parts] at cut
  have blank {cs : List Char} : StartsBlank (' ' :: cs) := by
    intro c hc
    cases hc
    decide
  have words : blankWords (' ' :: state :: ' ' ::
      ((toString parent).toList ++ ' ' :: ((toString group).toList ++ more))) =
      [state] :: (toString parent).toList :: (toString group).toList :: blankWords more := by
    have one : ∀ c ∈ [state], isBlank c = false := by
      intro c hc
      rw [List.mem_singleton.1 hc]
      exact hs
    rw [blankWords_blank (by decide), ← List.singleton_append,
      blankWords_word (List.cons_ne_nil _ _) one blank, blankWords_blank (by decide),
      blankWords_number parent blank, blankWords_blank (by decide), blankWords_number group hm]
  simp only [ofLine?, cut, splitFirst?_append name hl, words, pid?_toString hp, pid?_toString hg,
    Option.bind_eq_bind, Option.bind_some]
  rfl

/-- What the machine writes of a process besides its number. -/
structure Stat where
  /-- The bytes of its name. -/
  comm : Bytes
  state : Char
  parent : Pid
  group : Pid
  /-- What its line tells after the group. -/
  more : String
  state_plain : Utf8.Plain state
  state_solid : isBlank state = false
  state_open : state ≠ ')'
  parent_le : parent ≤ pidLimit
  group_le : group ≤ pidLimit
  more_plain : ∀ c ∈ more.toList, Utf8.Plain c
  more_blank : StartsBlank more.toList
  more_open : ')' ∉ more.toList

namespace Stat

def line (s : Stat) (pid : Pid) : Bytes :=
  Utf8.encode (toString pid ++ " (") ++ s.comm ++
    Utf8.encode (") " ++ String.singleton s.state ++ " " ++ toString s.parent ++ " " ++
      toString s.group ++ s.more)

def name? (s : Stat) : Option String := Utf8.decode? s.comm

/-- What the line tells if the name is text. -/
def told? (s : Stat) (pid : Pid) : Option Entry :=
  s.name?.map fun name => ⟨pid, name, s.state, s.parent, s.group⟩

/-- What is read from the line is what was written, or nothing if the name is not text. -/
theorem infoOf?_line (s : Stat) (pid : Pid) : infoOf? pid (.ok (s.line pid)) = s.told? pid := by
  have number := plain_toString
  have space : ∀ c ∈ " ".toList, Utf8.Plain c := Utf8.plain_of_all rfl
  have opening : ∀ c ∈ (") " ++ String.singleton s.state).toList, Utf8.Plain c := by
    refine Utf8.plain_append (Utf8.plain_of_all rfl) fun c hc => ?_
    rw [String.toList_singleton, List.mem_singleton] at hc
    rw [hc]
    exact s.state_plain
  have back := Utf8.plain_append (Utf8.plain_append (Utf8.plain_append (Utf8.plain_append
    (Utf8.plain_append opening space) (number s.parent)) space) (number s.group)) s.more_plain
  rw [infoOf?, line, Utf8.decode?_between _ back, told?, ← name?]
  cases s.name? with
  | none => rfl
  | some name =>
    have spaced : '(' ∉ (toString pid).toList ++ [' '] := by
      rw [List.mem_append, not_or]
      exact ⟨not_mem_toString (by decide) pid, by decide⟩
    -- the same characters, cut where the line is cut when it is read
    have parts : (toString pid ++ " (" ++ name ++ (") " ++ String.singleton s.state ++ " " ++
        toString s.parent ++ " " ++ toString s.group ++ s.more)).toList =
        ((toString pid).toList ++ [' ']) ++ '(' :: (name.toList ++ ')' :: ' ' :: s.state :: ' ' ::
          ((toString s.parent).toList ++ ' ' :: ((toString s.group).toList ++ s.more.toList))) := by
      simp [String.toList_append]
    rw [Option.map_some, Option.bind_some, ofLine?_of_parts parts spaced s.state_solid s.state_open
      s.parent_le s.group_le s.more_blank s.more_open, String.ofList_toList, Option.map_some]

end Stat

/-! ## Its file and its name in the roster -/

/-- The name of a process in the roster tells its number. -/
theorem pidOfName?_toString {pid : Pid} (h : pid ≤ pidLimit) :
    pidOfName? (Utf8.encode (toString pid)) = some pid := by
  rw [pidOfName?, Utf8.decodeLossy_encode, pid?_toString h]

theorem filterMap_pidOfName? {pids : List Pid} (h : ∀ pid ∈ pids, pid ≤ pidLimit) :
    (pids.map fun pid => Utf8.encode (toString pid)).filterMap pidOfName? = pids := by
  induction pids with
  | nil => rfl
  | cons pid rest ih =>
    have first := pidOfName?_toString (h pid List.mem_cons_self)
    rw [List.map_cons, List.filterMap_cons_some first,
      ih fun other hm => h other (List.mem_cons_of_mem pid hm)]

theorem encode_toString_injective {m n : Nat}
    (h : Utf8.encode (toString m) = Utf8.encode (toString n)) : m = n := by
  have text := congrArg Utf8.decodeLossy h
  rw [Utf8.decodeLossy_encode, Utf8.decodeLossy_encode] at text
  exact toString_injective text

theorem isPiece_toString (n : Nat) : Path.IsPiece (toString n) := by
  intro hm
  rw [Utf8.encode_of_plain (plain_toString n)] at hm
  obtain ⟨c, hc, e⟩ := List.mem_map.1 hm
  have bounds := digit_bounds (isDigit_of_mem_toString hc)
  have value := congrArg UInt8.toNat e
  rw [UInt8.toNat_ofNat'] at value
  have : Path.slash.toNat = 47 := rfl
  omega

/-- Different processes have their lines in different files. -/
theorem linePath_injective (t : Roster) {m n : Pid} (h : t.linePath m = t.linePath n) : m = n := by
  have named (k : Nat) : (t.root.child (toString k)).IsNamed := by
    refine Path.isNamed_child t.root (isPiece_toString k) ?_
    rw [Utf8.encode_of_plain (plain_toString k)]
    exact fun e => toString_ne_nil k (List.map_eq_nil_iff.1 e)
  have folders := Path.child_injective (named m) (named n) (by decide) h
  have pieces := congrArg Path.lastPiece folders
  rw [Path.lastPiece_child _ (isPiece_toString m), Path.lastPiece_child _ (isPiece_toString n)] at pieces
  exact encode_toString_injective pieces

end PatchTrial.Trial.Roster
