import Mathlib.Data.List.Basic
import PatchTrial.Text.ShellWords

/-!
Command lines that are read back. A word is written bare or between single quotes, and after either of
them the reader stands in a word again, with exactly that word behind it.

What is proved:
  1. `splitFrom?_quote`: a word is read as it was written, whatever follows it.
  2. `split?_join`: so a line of words is cut into these words.
  3. `line_append_inj`: a line of words ends where it was ended, whatever follows it: a line feed inside
     of it stands between quotes.
-/
namespace PatchTrial.ShellWords

/-! ## One character -/

theorem splitFrom?_cons {state next : State} {c : Char} (h : step state c = (next, none))
    (rest : List Char) : splitFrom? state (c :: rest) = splitFrom? next rest := by
  rw [splitFrom?, h]

theorem ne_of_isSpecial {c d : Char} (h : isSpecial c = false) (hd : isSpecial d = true) : c ≠ d := by
  rintro rfl
  exact Bool.false_ne_true (h.symm.trans hd)

/-- What needs no quotes begins a word or goes on with it. -/
theorem step_plain {c : Char} (h : isSpecial c = false) (word : List Char) :
    step .between c = (.bare [c], none) ∧ step (.bare word) c = (.bare (c :: word), none) := by
  have space : c ≠ ' ' := ne_of_isSpecial h (by decide)
  have tab : c ≠ '\t' := ne_of_isSpecial h (by decide)
  have feed : c ≠ '\n' := ne_of_isSpecial h (by decide)
  have quote : c ≠ '\'' := ne_of_isSpecial h (by decide)
  have double : c ≠ '"' := ne_of_isSpecial h (by decide)
  have backslash : c ≠ '\\' := ne_of_isSpecial h (by decide)
  have sign : c ≠ '#' := ne_of_isSpecial h (by decide)
  simp [step, isSeparator, space, tab, feed, quote, double, backslash, sign]

/-! ## One word -/

theorem splitFrom?_bare {cs : List Char} (plain : ∀ c ∈ cs, isSpecial c = false)
    (word rest : List Char) :
    splitFrom? (.bare word) (cs ++ rest) = splitFrom? (.bare (cs.reverse ++ word)) rest := by
  induction cs generalizing word with
  | nil => rfl
  | cons c cs ih =>
    rw [List.cons_append, splitFrom?_cons (step_plain (plain c List.mem_cons_self) word).2,
      ih fun d hd => plain d (List.mem_cons_of_mem c hd), List.reverse_cons, List.append_assoc,
      List.singleton_append]

/-- Between single quotes everything stands for itself, but for a quote, which is written outside. -/
theorem splitFrom?_single (cs word rest : List Char) :
    splitFrom? (.single word) (cs.flatMap escapeQuote ++ '\'' :: rest) =
      splitFrom? (.bare (cs.reverse ++ word)) rest := by
  induction cs generalizing word with
  | nil => rfl
  | cons c cs ih =>
    have later := ih (c :: word)
    rw [List.reverse_cons, List.append_assoc, List.singleton_append, ← later, List.flatMap_cons,
      List.append_assoc]
    by_cases quote : c = '\''
    · rw [quote]
      rfl
    · have step : step (.single word) c = (.single (c :: word), none) := by
        simp [step, quote]
      rw [escapeQuote, if_neg quote, List.singleton_append, splitFrom?_cons step]

/-- A word that needs no quotes is not empty and stands for itself; any other stands between quotes. -/
theorem quote_cases (word : List Char) :
    (word ≠ [] ∧ (∀ c ∈ word, isSpecial c = false) ∧ quote word = word) ∨
      quote word = '\'' :: (word.flatMap escapeQuote ++ ['\'']) := by
  rw [quote]
  split
  · exact .inr rfl
  · next bare =>
    rw [Bool.or_eq_true, not_or, List.isEmpty_iff, List.any_eq_true] at bare
    refine .inl ⟨bare.1, fun c hc => Bool.eq_false_iff.2 fun special => bare.2 ⟨c, hc, special⟩, rfl⟩

/-- A word is read as it was written, whatever follows it. -/
theorem splitFrom?_quote (word rest : List Char) :
    splitFrom? .between (quote word ++ rest) = splitFrom? (.bare word.reverse) rest := by
  rcases quote_cases word with ⟨nonempty, plain, bare⟩ | quoted
  · rw [bare]
    cases word with
    | nil => exact absurd rfl nonempty
    | cons c cs =>
      rw [List.cons_append, splitFrom?_cons (step_plain (plain c List.mem_cons_self) []).1,
        splitFrom?_bare fun d hd => plain d (List.mem_cons_of_mem c hd), List.reverse_cons]
  · have opening : step .between '\'' = (.single [], none) := rfl
    rw [quoted, List.cons_append, List.append_assoc, List.singleton_append,
      splitFrom?_cons opening, splitFrom?_single, List.append_nil]

/-- No word begins with a line feed as it is written. -/
theorem quote_ne_feed (word rest rest' : List Char) : quote word ++ rest ≠ '\n' :: rest' := by
  rcases quote_cases word with ⟨nonempty, plain, bare⟩ | quoted
  · rw [bare]
    cases word with
    | nil => exact absurd rfl nonempty
    | cons c cs =>
      have other : c ≠ '\n' := ne_of_isSpecial (plain c List.mem_cons_self) (by decide)
      exact fun h => other (List.cons.inj h).1
  · rw [quoted]
    exact fun h => absurd (List.cons.inj h).1 (by decide)

/-! ## Lines -/

def line : List (List Char) → List Char
  | [] => []
  | [word] => quote word
  | word :: more => quote word ++ ' ' :: line more

theorem line_cons (word : List Char) {more : List (List Char)} (h : more ≠ []) :
    line (word :: more) = quote word ++ ' ' :: line more := by
  cases more with
  | nil => exact absurd rfl h
  | cons next more => rfl

theorem line_append {words more : List (List Char)} (hw : words ≠ []) (hm : more ≠ []) :
    line (words ++ more) = line words ++ ' ' :: line more := by
  induction words with
  | nil => exact absurd rfl hw
  | cons word rest ih =>
    by_cases last : rest = []
    · rw [last]
      exact line_cons word hm
    · rw [List.cons_append, line_cons word (List.append_ne_nil_of_left_ne_nil last more),
        line_cons word last, ih last, List.append_assoc, List.cons_append]

theorem toList_join (words : List String) : (join words).toList = line (words.map String.toList) := by
  have chars : (words.map fun word => String.ofList (quote word.toList)).map String.toList =
      (words.map String.toList).map quote := by
    rw [List.map_map, List.map_map]
    exact List.map_congr_left fun word _ => String.toList_ofList
  rw [join, String.toList_intercalate, chars]
  generalize words.map String.toList = words
  induction words with
  | nil => rfl
  | cons word more ih =>
    cases more with
    | nil => simp [line, List.intercalate]
    | cons next more =>
      rw [line_cons word (List.cons_ne_nil next more), ← ih]
      simp [List.intercalate]

/-- A line of words is cut into these words and what follows, if that does not go on with the last
word. -/
theorem splitFrom?_line {words : List (List Char)} (hw : words ≠ []) {rest : List Char}
    {more : Option (List (List Char))}
    (ends : ∀ word, splitFrom? (.bare word) rest = more.map (word.reverse :: ·)) :
    splitFrom? .between (line words ++ rest) = more.map (words ++ ·) := by
  induction words with
  | nil => exact absurd rfl hw
  | cons word others ih =>
    by_cases last : others = []
    · rw [last, line, splitFrom?_quote, ends, List.reverse_reverse]
      rfl
    · have space : splitFrom? (.bare word.reverse) (' ' :: (line others ++ rest)) =
          (splitFrom? .between (line others ++ rest)).map (word.reverse.reverse :: ·) := rfl
      rw [line_cons word last, List.append_assoc, List.cons_append, splitFrom?_quote, space, ih last,
        List.reverse_reverse, Option.map_map]
      rfl

/-- A line of words is cut into these words. -/
theorem splitFrom?_of_line (words : List (List Char)) :
    splitFrom? .between (line words) = some words := by
  cases words with
  | nil => rfl
  | cons word more =>
    have ends (last : List Char) :
        splitFrom? (.bare last) [] = (some []).map (last.reverse :: ·) := rfl
    have all := splitFrom?_line (List.cons_ne_nil word more) ends
    rw [List.append_nil, Option.map_some, List.append_nil] at all
    exact all

/-- The words of a command line are the ones it was written from. -/
theorem split?_join (words : List String) : split? (join words) = some words := by
  have same : String.ofList ∘ String.toList = id := funext fun _ => String.ofList_toList
  rw [split?, toList_join, splitFrom?_of_line, Option.map_some, List.map_map, same, List.map_id]

theorem line_injective {words words' : List (List Char)} (h : line words = line words') :
    words = words' := by
  have read := splitFrom?_of_line words
  rw [h, splitFrom?_of_line] at read
  exact (Option.some.inj read).symm

/-- A line of words does not go on with a line feed where another one ends. -/
theorem line_ne_line_append {words words' : List (List Char)} (rest : List Char) :
    line words' ≠ line words ++ '\n' :: rest := by
  intro h
  have read := splitFrom?_of_line words'
  rw [h] at read
  by_cases none : words = []
  · rw [none, line, List.nil_append] at h
    cases words' with
    | nil => cases h
    | cons word more =>
      by_cases last : more = []
      · rw [last, line, ← List.append_nil (quote word)] at h
        exact quote_ne_feed word [] rest h
      · rw [line_cons word last] at h
        exact quote_ne_feed word _ rest h
  · -- the line feed ends a word, so the words before it are the first ones of the longer line
    have ends : ∀ word, splitFrom? (.bare word) ('\n' :: rest) =
        (splitFrom? .between rest).map (word.reverse :: ·) := fun _ => rfl
    rw [splitFrom?_line none ends] at read
    obtain ⟨more, -, rfl⟩ := Option.map_eq_some_iff.1 read
    by_cases last : more = []
    · rw [last, List.append_nil] at h
      have lengths := congrArg List.length h
      rw [List.length_append, List.length_cons] at lengths
      omega
    · rw [line_append none last] at h
      have next := (List.cons.inj (List.append_cancel_left h)).1
      exact absurd next (by decide)

/-- Two lines of words that a line feed ends and anything follows, spelled in any way, are of the same
words if they are the same. -/
theorem line_append_inj {α : Type} {f : Char → α} (hf : f.Injective) {words words' : List (List Char)}
    {rest rest' : List α}
    (h : (line words).map f ++ f '\n' :: rest = (line words').map f ++ f '\n' :: rest') :
    words = words' := by
  have not_longer {words words' : List (List Char)} {between rest rest' : List α}
      (longer : (line words').map f = (line words).map f ++ between)
      (next : f '\n' :: rest = between ++ rest') : between = [] := by
    cases between with
    | nil => rfl
    | cons a between =>
      obtain rfl := (List.cons.inj next).1
      obtain ⟨front, back, split, same, others⟩ := List.map_eq_append_iff.1 longer
      obtain rfl := List.map_injective_iff.2 hf same
      obtain ⟨c, back, rfl, feed, -⟩ := List.map_eq_cons_iff.1 others
      obtain rfl := hf feed
      exact absurd split (line_ne_line_append back)
  rcases List.append_eq_append_iff.1 h with ⟨between, longer, next⟩ | ⟨between, longer, next⟩
  · rw [not_longer longer next, List.append_nil] at longer
    exact line_injective (List.map_injective_iff.2 hf longer).symm
  · rw [not_longer longer next, List.append_nil] at longer
    exact line_injective (List.map_injective_iff.2 hf longer)

end PatchTrial.ShellWords
