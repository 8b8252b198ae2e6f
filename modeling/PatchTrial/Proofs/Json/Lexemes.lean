import PatchTrial.Proofs.Json.Texts
import PatchTrial.Proofs.Json.Values

/-!
How values are spelled. A token is read from a piece of text, the same whatever comes after the
piece; only a number must be followed by something that cannot go on a number. A text spells a row
of tokens if it is made of such pieces with white space between them, and these are the texts that
are read as that row.

What is proved:
  1. `ofByte_takes`: a token that is not broken is read from a piece of text by itself.
  2. `lexeme_natural_iff`, `lexeme_text_iff`: how whole numbers that fit a machine word are spelled,
     and how texts are.
  3. `ofBytes_eq_iff`: the tokens of a text are the row of tokens that the text spells.
  4. `spelled_iff`: which texts are read as a value.
-/
namespace PatchTrial.Json

namespace Token

/-! ## Tokens -/

def isWhole : Token → Bool
  | .brokenText _ => false
  | .broken _ => false
  | .stray => false
  | _ => true

/-- A token is over before these bytes. -/
def Apart : Token → Bytes → Prop
  | .number _, rest => Ends rest
  | _, _ => True

/-- White space between tokens. -/
def Blank (white : Bytes) : Prop := ∀ b ∈ white, isSpace b = true

/-- A piece of text that is read as a token whatever comes after it, as long as the token is over
there. -/
def Lexeme (t : Token) : Bytes → Prop
  | [] => False
  | b :: piece => isSpace b = false ∧ ∀ rest, Apart t rest → ofByte b (piece ++ rest) = (t, rest)

/-- A text that spells tokens: a piece for each, with white space before, between and after them. -/
inductive Spells : List Token → Bytes → Prop
  | nil {white : Bytes} (blank : Blank white) : Spells [] white
  | cons {t : Token} {ts : List Token} {white piece rest : Bytes} (blank : Blank white)
    (lexeme : Lexeme t piece) (apart : Apart t rest) (next : Spells ts rest) :
    Spells (t :: ts) (white ++ (piece ++ rest))

theorem ofText_takes {bytes rest : Bytes} {t : Token} (whole : t.isWhole = true)
    (h : ofText bytes = (t, rest)) :
    ∃ s piece, t = .text s ∧ bytes = piece ++ rest ∧
      ∀ more, ofText (piece ++ more) = (t, more) := by
  obtain ⟨s, rfl⟩ : ∃ s, t = .text s := by
    unfold ofText at h
    split at h
    · cases h; cases whole
    split at h
    · cases h; exact ⟨_, rfl⟩
    · cases h; cases whole
  obtain ⟨piece, content, text, spelled⟩ := ofText_eq_iff.1 h
  exact ⟨s, piece, rfl, text, fun more => ofText_eq_iff.2 ⟨piece, content, rfl, spelled⟩⟩

theorem ofNumber_takes {negative : Bool} {bytes rest : Bytes} {t : Token}
    (whole : t.isWhole = true) (h : ofNumber negative bytes = (t, rest)) :
    ∃ n piece, t = .number n ∧ bytes = piece ++ rest ∧ Stops rest ∧
      ∀ more, Ends more → ofNumber negative (piece ++ more) = (t, more) := by
  unfold ofNumber at h
  split at h
  · next n after read =>
    cases h
    obtain ⟨piece, text, stops, takes⟩ := ofDigits_takes read
    refine ⟨n, piece, rfl, text, stops, fun more ends => ?_⟩
    rw [ofNumber, takes more ends]
  · cases h
    cases whole

theorem ofWord_takes {token t : Token} {letters : List Char} {bytes rest : Bytes}
    (whole : t.isWhole = true) (h : ofWord token letters bytes = (t, rest)) :
    t = token ∧ ∃ piece, bytes = piece ++ rest ∧
      ∀ more, ofWord token letters (piece ++ more) = (t, more) := by
  induction letters generalizing bytes with
  | nil =>
    cases h
    exact ⟨rfl, [], rfl, fun _ => rfl⟩
  | cons c letters ih =>
    cases bytes with
    | nil =>
      cases h
      cases whole
    | cons b bytes =>
      rw [ofWord] at h
      split at h
      · next same =>
        obtain ⟨rfl, piece, rfl, takes⟩ := ih h
        refine ⟨rfl, b :: piece, rfl, fun more => ?_⟩
        rw [List.cons_append, ofWord, if_pos same, takes]
      · cases h
        cases whole

theorem ofByte_digit {b : UInt8} (digit : isDigit b = true) (rest : Bytes) :
    ofByte b rest = ofNumber false (b :: rest) := by
  have other {c : UInt8} (h : isDigit c = false) : b ≠ c := by
    rintro rfl
    rw [digit] at h
    cases h
  rw [ofByte, if_neg (other rfl), if_neg (other rfl), if_neg (other rfl), if_neg (other rfl),
    if_neg (other rfl), if_neg (other rfl), if_neg (other rfl), if_neg (other rfl), if_pos digit]

theorem digit_not_space {b : UInt8} (digit : isDigit b = true) : isSpace b = false := by
  by_contra space
  simp only [isSpace, Bool.not_eq_false, Bool.or_eq_true, beq_iff_eq] at space
  obtain ((rfl | rfl) | rfl) | rfl := space <;> cases digit

/-- What a byte begins, by how the rest of it is read. -/
inductive Opening (b : UInt8) : (Bytes → Token × Bytes) → Prop
  | mark {t : Token} (other : ∀ n, t ≠ .number n) (other' : ∀ s, t ≠ .text s) :
    Opening b fun rest => (t, rest)
  | text (quote : b = byte '"') : Opening b ofText
  | minus : Opening b (ofNumber true)
  | digit (h : isDigit b = true) : Opening b fun rest => ofNumber false (b :: rest)
  | word {t : Token} (letters : List Char) (other : ∀ n, t ≠ .number n)
    (other' : ∀ s, t ≠ .text s) : Opening b (ofWord t letters)
  | stray : Opening b fun _ => (.stray, [])

theorem opening (b : UInt8) : Opening b (ofByte b) := by
  -- one case for each byte that can open a token
  by_cases digit : isDigit b = true
  · rw [funext (ofByte_digit digit)]
    exact .digit digit
  by_cases listOpen : b = byte '['
  · subst listOpen; exact .mark (t := .listOpen) nofun nofun
  by_cases listClose : b = byte ']'
  · subst listClose; exact .mark (t := .listClose) nofun nofun
  by_cases objectOpen : b = byte '\x7b'
  · subst objectOpen; exact .mark (t := .objectOpen) nofun nofun
  by_cases objectClose : b = byte '\x7d'
  · subst objectClose; exact .mark (t := .objectClose) nofun nofun
  by_cases comma : b = byte ','
  · subst comma; exact .mark (t := .comma) nofun nofun
  by_cases colon : b = byte ':'
  · subst colon; exact .mark (t := .colon) nofun nofun
  by_cases quote : b = byte '"'
  · subst quote; exact .text rfl
  by_cases minus : b = byte '-'
  · subst minus; exact .minus
  by_cases n : b = byte 'n'
  · subst n; exact .word ['u', 'l', 'l'] (t := .null) nofun nofun
  by_cases t : b = byte 't'
  · subst t; exact .word ['r', 'u', 'e'] (t := .boolean true) nofun nofun
  by_cases f : b = byte 'f'
  · subst f; exact .word ['a', 'l', 's', 'e'] (t := .boolean false) nofun nofun
  have stray : ofByte b = fun _ => (.stray, []) := by
    funext rest
    rw [ofByte, if_neg listOpen, if_neg listClose, if_neg objectOpen, if_neg objectClose,
      if_neg comma, if_neg colon, if_neg quote, if_neg minus, if_neg digit, if_neg n, if_neg t,
      if_neg f]
  rw [stray]
  exact .stray

/-- A token that is not broken is read from a piece of text by itself. -/
theorem ofByte_takes {b : UInt8} {bytes rest : Bytes} {t : Token} (whole : t.isWhole = true)
    (h : ofByte b bytes = (t, rest)) :
    ∃ piece, bytes = piece ++ rest ∧ (∀ n, t = .number n → Stops rest) ∧
      ∀ more, Apart t more → ofByte b (piece ++ more) = (t, more) := by
  have opens := opening b
  generalize ofByte b = read at h opens
  cases opens with
  | mark other other' =>
    cases h
    exact ⟨[], rfl, fun n same => absurd same (other n), fun _ _ => rfl⟩
  | text quote =>
    obtain ⟨s, piece, rfl, text, takes⟩ := ofText_takes whole h
    exact ⟨piece, text, nofun, fun more _ => takes more⟩
  | minus =>
    obtain ⟨n, piece, rfl, text, stops, takes⟩ := ofNumber_takes whole h
    exact ⟨piece, text, fun _ _ => stops, takes⟩
  | digit digit =>
    obtain ⟨n, piece, rfl, text, stops, takes⟩ := ofNumber_takes whole h
    cases piece with
    | nil =>
      -- then no digit would come first
      subst text
      exact absurd digit (ne_true_of_eq_false (stops b rfl))
    | cons first piece =>
      obtain ⟨rfl, text'⟩ := List.cons_eq_cons.1 text
      exact ⟨piece, text', fun _ _ => stops, takes⟩
  | word letters other other' =>
    obtain ⟨rfl, piece, text, takes⟩ := ofWord_takes whole h
    exact ⟨piece, text, fun n same => absurd same (other n), fun more _ => takes more⟩
  | stray =>
    cases h
    cases whole

/-! ## How whole numbers and texts are spelled -/

theorem ofNumber_natural {negative : Bool} {bytes : Bytes} {n : Nat}
    (h : ofNumber negative bytes = (.number (.natural n), [])) :
    negative = false ∧ Numeral bytes ∧ exactDigits 0 bytes = (n, 0) := by
  unfold ofNumber at h
  split at h
  · next n' rest read =>
    cases h
    obtain ⟨digits, after, rfl, numeral, stops⟩ := exists_numeral read
    rw [ofDigits_append numeral stops] at read
    obtain ⟨rfl, plain, dropped, value⟩ := afterDigits_natural read
    rw [List.append_nil]
    exact ⟨plain, numeral, Prod.ext value dropped⟩
  · cases h

theorem ofByte_natural {b : UInt8} {bytes : Bytes} {n : Nat}
    (h : ofByte b bytes = (.number (.natural n), [])) :
    Numeral (b :: bytes) ∧ exactDigits 0 (b :: bytes) = (n, 0) := by
  have opens := opening b
  generalize ofByte b = read at h opens
  cases opens with
  | mark other other' => exact absurd (congrArg Prod.fst h) (other _)
  | text quote =>
    obtain ⟨_, _, same, -⟩ := ofText_takes rfl h
    cases same
  | minus => cases (ofNumber_natural h).1
  | digit => exact (ofNumber_natural h).2
  | word letters other other' => exact absurd (ofWord_takes rfl h).1.symm (other _)
  | stray => cases h

/-- The whole numbers that fit a machine word are spelled with digits alone, without zeros in
front. -/
theorem lexeme_natural_iff {n : Nat} {piece : Bytes} :
    Lexeme (.number (.natural n)) piece ↔
      Numeral piece ∧ digitsValue piece = n ∧ n ≤ wordLimit := by
  have fits : exactDigits 0 piece = (n, 0) ↔ _ := exactDigits_eq_iff (Nat.zero_le wordLimit)
  cases piece with
  | nil => exact ⟨False.elim, fun ⟨numeral, _⟩ => numeral.nonempty rfl⟩
  | cons b piece =>
    constructor
    · rintro ⟨-, takes⟩
      have read := takes [] nofun
      rw [List.append_nil] at read
      obtain ⟨numeral, exact⟩ := ofByte_natural read
      exact ⟨numeral, fits.1 exact⟩
    · rintro ⟨numeral, value⟩
      have digit := numeral.all b List.mem_cons_self
      refine ⟨digit_not_space digit, fun rest ends => ?_⟩
      rw [ofByte_digit digit, ofNumber, ← List.cons_append,
        ofDigits_append numeral ends.stops, fits.2 value, afterDigits_plain ends.plain]
      rfl

theorem ofByte_text {b : UInt8} {bytes rest : Bytes} {s : String}
    (h : ofByte b bytes = (.text s, rest)) : b = byte '"' ∧ ofText bytes = (.text s, rest) := by
  have opens := opening b
  generalize ofByte b = read at h opens
  cases opens with
  | mark other other' => exact absurd (congrArg Prod.fst h) (other' _)
  | text quote => exact ⟨quote, h⟩
  | minus =>
    obtain ⟨_, _, same, -⟩ := ofNumber_takes rfl h
    cases same
  | digit =>
    obtain ⟨_, _, same, -⟩ := ofNumber_takes rfl h
    cases same
  | word letters other other' => exact absurd (ofWord_takes rfl h).1.symm (other' _)
  | stray => cases h

/-- Texts are spelled between quotes. -/
theorem lexeme_text_iff {s : String} {piece : Bytes} :
    Lexeme (.text s) piece ↔ ∃ inner content, piece = byte '"' :: inner ∧
      TextPiece inner content ∧ Utf8.decode? content = some s := by
  cases piece with
  | nil => exact ⟨False.elim, nofun⟩
  | cons b piece =>
    constructor
    · rintro ⟨-, takes⟩
      have read := takes [] trivial
      rw [List.append_nil] at read
      obtain ⟨rfl, read⟩ := ofByte_text read
      obtain ⟨inner, content, rfl, spelled⟩ := ofText_eq_iff.1 read
      rw [List.append_nil]
      exact ⟨inner, content, rfl, spelled⟩
    · rintro ⟨inner, content, same, spelled⟩
      obtain ⟨rfl, rfl⟩ := List.cons_eq_cons.1 same
      exact ⟨rfl, fun rest _ => ofText_eq_iff.2 ⟨_, content, rfl, spelled⟩⟩

/-! ## Rows of tokens -/

theorem ofByte_stray {b : UInt8} (goesOn : continuesNumber b = true) (digit : isDigit b = false)
    (rest : Bytes) : ofByte b rest = (.stray, []) ∧ isSpace b = false := by
  simp only [continuesNumber, isMark, digit, Bool.false_or, Bool.or_eq_true,
    decide_eq_true_eq] at goesOn
  obtain rfl | rfl | rfl := goesOn <;> exact ⟨rfl, rfl⟩

theorem Spells.blank {ts : List Token} {b : UInt8} {text : Bytes} (h : Spells ts text)
    (space : isSpace b = true) : Spells ts (b :: text) := by
  cases h with
  | nil blank => exact .nil (List.forall_mem_cons.2 ⟨space, blank⟩)
  | cons blank lexeme apart next =>
    exact .cons (List.forall_mem_cons.2 ⟨space, blank⟩) lexeme apart next

/-- A number is followed by nothing that could go on it, unless no token begins there. -/
theorem ends_of_whole {budget : Nat} {rest : Bytes} (stops : Stops rest)
    (enough : rest.length ≤ budget) (whole : ∀ t ∈ scan budget rest, t.isWhole = true) :
    Ends rest := by
  intro b first
  by_contra goesOn
  obtain ⟨more, rfl⟩ := List.head?_eq_some_iff.1 first
  obtain ⟨budget, rfl⟩ := Nat.exists_eq_add_of_le' (Nat.le_trans (Nat.le_add_left 1 _) enough)
  obtain ⟨stray, token⟩ := ofByte_stray (by simpa using goesOn) (stops b first) more
  rw [scan, if_neg (ne_true_of_eq_false token), stray] at whole
  cases whole _ List.mem_cons_self

/-- A text spells the tokens that are read from it, if none of them is broken. -/
theorem spells_scan {budget : Nat} {text : Bytes} (enough : text.length ≤ budget)
    (whole : ∀ t ∈ scan budget text, t.isWhole = true) : Spells (scan budget text) text := by
  induction budget generalizing text with
  | zero =>
    obtain rfl := List.eq_nil_of_length_eq_zero (Nat.le_zero.1 enough)
    exact .nil nofun
  | succ budget ih =>
    cases text with
    | nil => exact .nil nofun
    | cons b text =>
      have enough := Nat.le_of_succ_le_succ enough
      rw [scan] at whole ⊢
      split at whole
      · next space =>
        rw [if_pos space]
        exact (ih enough whole).blank space
      next token =>
      rw [if_neg token]
      cases read : ofByte b text with | mk t rest => ?_
      rw [read] at whole
      obtain ⟨wholeT, further⟩ := List.forall_mem_cons.1 whole
      obtain ⟨piece, rfl, stops, takes⟩ := ofByte_takes wholeT read
      rw [List.length_append] at enough
      have enough : rest.length ≤ budget := by omega
      -- a number is the only token that could go on with what follows it
      have apart : Apart t rest := by
        cases t with
        | number n => exact ends_of_whole (stops n rfl) enough further
        | _ => trivial
      have lexeme : Lexeme t (b :: piece) := ⟨Bool.eq_false_iff.2 token, takes⟩
      have blank : Blank [] := nofun
      exact .cons blank lexeme apart (ih enough further)

theorem scan_append {white : Bytes} (blank : Blank white) {budget : Nat} {rest : Bytes}
    (enough : (white ++ rest).length ≤ budget) :
    ∃ budget', rest.length ≤ budget' ∧ scan budget (white ++ rest) = scan budget' rest := by
  induction white generalizing budget with
  | nil => exact ⟨budget, enough, rfl⟩
  | cons b white ih =>
    obtain ⟨space, blank⟩ := List.forall_mem_cons.1 blank
    rw [List.cons_append, List.length_cons] at enough
    obtain ⟨budget, rfl⟩ := Nat.exists_eq_add_of_le' (Nat.le_trans (Nat.le_add_left 1 _) enough)
    rw [List.cons_append, scan, if_pos space]
    exact ih blank (Nat.le_of_succ_le_succ enough)

/-- A text is read as the tokens that it spells. -/
theorem Spells.scan_eq {ts : List Token} {text : Bytes} (h : Spells ts text) {budget : Nat}
    (enough : text.length ≤ budget) : scan budget text = ts := by
  induction h generalizing budget with
  | @nil white blank =>
    have enough : (white ++ []).length ≤ budget := by simpa using enough
    obtain ⟨budget', -, same⟩ := scan_append blank enough
    rw [List.append_nil] at same
    rw [same]
    cases budget' <;> rfl
  | @cons t ts white piece rest blank lexeme apart next ih =>
    obtain ⟨budget', enough, same⟩ := scan_append blank enough
    cases piece with
    | nil => exact absurd lexeme id
    | cons b piece =>
      obtain ⟨token, takes⟩ := lexeme
      rw [List.cons_append, List.length_cons, List.length_append] at enough
      obtain ⟨budget', rfl⟩ := Nat.exists_eq_add_of_le' (Nat.le_trans (Nat.le_add_left 1 _) enough)
      rw [same, List.cons_append, scan, if_neg (ne_true_of_eq_false token), takes rest apart]
      exact congrArg _ (ih (by omega))

/-- The tokens of a text are the row that it spells. -/
theorem ofBytes_eq_iff {ts : List Token} (whole : ∀ t ∈ ts, t.isWhole = true) {text : Bytes} :
    ofBytes text = ts ↔ Spells ts text := by
  constructor
  · rintro rfl
    exact spells_scan (Nat.le_refl _) whole
  · intro h
    exact h.scan_eq (Nat.le_refl _)

end Token

namespace Value

mutual

theorem tokens_whole : ∀ v : Value, ∀ t ∈ v.tokens, t.isWhole = true
  | .null | .boolean _ | .number _ | .text _ | .list [] | .object [] => by
    simp [tokens, Token.isWhole]
  | .list (item :: items) => by
    simp only [tokens, List.forall_mem_cons, List.forall_mem_append]
    exact ⟨rfl, tokens_whole item, furtherItems_whole items⟩
  | .object ((_, value) :: members) => by
    simp only [tokens, List.forall_mem_cons, List.forall_mem_append]
    exact ⟨rfl, rfl, rfl, tokens_whole value, furtherMembers_whole members⟩

theorem furtherItems_whole : ∀ items : List Value, ∀ t ∈ furtherItems items, t.isWhole = true
  | [] => by simp [furtherItems, Token.isWhole]
  | item :: items => by
    simp only [furtherItems, List.forall_mem_cons, List.forall_mem_append]
    exact ⟨rfl, tokens_whole item, furtherItems_whole items⟩

theorem furtherMembers_whole : ∀ members : List (String × Value),
    ∀ t ∈ furtherMembers members, t.isWhole = true
  | [] => by simp [furtherMembers, Token.isWhole]
  | (_, value) :: members => by
    simp only [furtherMembers, List.forall_mem_cons, List.forall_mem_append]
    exact ⟨rfl, rfl, rfl, tokens_whole value, furtherMembers_whole members⟩

end

/-- A text that spells a value. -/
def Spelled (v : Value) (text : Bytes) : Prop := Token.Spells v.tokens text

/-- A text spells one value at most. -/
theorem Spelled.unique {v w : Value} {text : Bytes} (h : v.Spelled text) (h' : w.Spelled text) :
    v = w :=
  tokens_injective (((Token.ofBytes_eq_iff v.tokens_whole).2 h).symm.trans
    ((Token.ofBytes_eq_iff w.tokens_whole).2 h'))

/-- A text is a value and nothing else exactly if it spells the value and the value is not nested
too deep. -/
theorem spelled_iff {v : Value} {text : Bytes} :
    Document.ofBytes text = (v.document, false) ↔
      v.Spelled text ∧ v.nesting ≤ Document.depthLimit := by
  rw [Document.ofBytes_eq_iff, Token.ofBytes_eq_iff v.tokens_whole]
  rfl

end Value
end PatchTrial.Json
