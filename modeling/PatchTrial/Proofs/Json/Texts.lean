import PatchTrial.Proofs.Json.Numerals

/-!
How texts are taken off a text: from the opening quote to the closing one, escape by escape.

What is proved:
  1. `escapedChar?_eq_ok_iff`: the characters that are given by number.
  2. `ofText_eq_iff`: a text is read from a piece of text by itself.
-/
namespace PatchTrial.Json.Token

/-! ## Escapes -/

theorem hexUnit?_takes {bytes rest : Bytes} {n : Nat} (h : hexUnit? bytes = .ok (n, rest)) :
    ∃ piece, bytes = piece ++ rest ∧ ∀ more, hexUnit? (piece ++ more) = .ok (n, more) := by
  unfold hexUnit? at h
  split at h
  · next a b c d rest' =>
    split at h
    · next ha hb hc hd =>
      cases h
      refine ⟨[a, b, c, d], rfl, fun more => ?_⟩
      simp only [List.cons_append, List.nil_append, hexUnit?, ha, hb, hc, hd]
    · cases h
  · cases h

/-- The character of an escape by number: one unit, or two units that stand for one character. -/
inductive Escaped (rest : Bytes) : Bytes → Char → Prop
  | single {bytes : Bytes} {unit : Nat} (h : hexUnit? bytes = .ok (unit, rest))
    (basic : unit < 0xD800 ∨ 0xDFFF < unit) : Escaped rest bytes (Char.ofNat unit)
  | pair {bytes bytes' : Bytes} {high low : Nat}
    (h : hexUnit? bytes = .ok (high, byte '\\' :: byte 'u' :: bytes'))
    (leads : 0xD800 ≤ high ∧ high ≤ 0xDBFF) (h' : hexUnit? bytes' = .ok (low, rest))
    (trails : 0xDC00 ≤ low ∧ low ≤ 0xDFFF) :
    Escaped rest bytes (Char.ofNat ((high - 0xD800) * 0x400 + (low - 0xDC00) + 0x10000))

theorem escapedChar?_eq_ok_iff {bytes rest : Bytes} {c : Char} :
    escapedChar? bytes = .ok (c, rest) ↔ Escaped rest bytes c := by
  constructor
  · intro h
    unfold escapedChar? at h
    obtain ⟨⟨first, after⟩, unit, h⟩ := bind_eq_ok.1 h
    dsimp only at h
    split at h
    · cases h
    next notLow =>
    split at h
    · next basic =>
      cases h
      simp only [Bool.or_eq_true, Bool.and_eq_true, decide_eq_true_eq] at notLow basic
      exact .single unit (by omega)
    next notBasic =>
    split at h
    · cases h
    split at h
    · cases h
    next backslash =>
    split at h
    · cases h
    split at h
    · cases h
    next u =>
    -- the first unit is a leading one, so the other half of the character has to follow
    obtain ⟨⟨second, after'⟩, unit', h⟩ := bind_eq_ok.1 h
    dsimp only at h
    split at h
    · cases h
    next trails =>
    obtain ⟨rfl, rfl⟩ := Prod.mk.inj (Except.ok.inj h)
    simp only [Bool.or_eq_true, Bool.and_eq_true, decide_eq_true_eq] at notLow notBasic trails
    obtain rfl := not_not.1 backslash
    obtain rfl := not_not.1 u
    exact .pair unit (by omega) unit' (by omega)
  · intro h
    cases h with
    | @single unit h basic =>
      have notLow : ¬ (decide (0xDC00 ≤ unit) && decide (unit ≤ 0xDFFF)) = true := by
        simp only [Bool.and_eq_true, decide_eq_true_eq]
        omega
      have high : (decide (unit < 0xD800) || decide (0xDBFF < unit)) = true := by
        simp only [Bool.or_eq_true, decide_eq_true_eq]
        omega
      refine bind_eq_ok.2 ⟨_, h, ?_⟩
      dsimp only
      rw [if_neg notLow, if_pos high]
      rfl
    | @pair bytes' high low h leads h' trails =>
      have notLow : ¬ (decide (0xDC00 ≤ high) && decide (high ≤ 0xDFFF)) = true := by
        simp only [Bool.and_eq_true, decide_eq_true_eq]
        omega
      have notBasic : ¬ (decide (high < 0xD800) || decide (0xDBFF < high)) = true := by
        simp only [Bool.or_eq_true, decide_eq_true_eq]
        omega
      have within : ¬ (decide (low < 0xDC00) || decide (0xDFFF < low)) = true := by
        simp only [Bool.or_eq_true, decide_eq_true_eq]
        omega
      refine bind_eq_ok.2 ⟨_, h, ?_⟩
      dsimp only
      rw [if_neg notLow, if_neg notBasic, if_neg (not_not.2 rfl), if_neg (not_not.2 rfl)]
      refine bind_eq_ok.2 ⟨_, h', ?_⟩
      dsimp only
      rw [if_neg within]
      rfl

theorem escapedChar?_takes {bytes rest : Bytes} {c : Char}
    (h : escapedChar? bytes = .ok (c, rest)) :
    ∃ piece, bytes = piece ++ rest ∧ ∀ more, escapedChar? (piece ++ more) = .ok (c, more) := by
  simp only [escapedChar?_eq_ok_iff] at h ⊢
  cases h with
  | single h basic =>
    obtain ⟨piece, text, takes⟩ := hexUnit?_takes h
    exact ⟨piece, text, fun more => .single (takes more) basic⟩
  | pair h leads h' trails =>
    obtain ⟨piece, text, takes⟩ := hexUnit?_takes h
    obtain ⟨piece', text', takes'⟩ := hexUnit?_takes h'
    refine ⟨piece ++ byte '\\' :: byte 'u' :: piece', by rw [text, text']; simp, fun more => ?_⟩
    refine .pair ?_ leads (takes' more) trails
    rw [List.append_assoc]
    exact takes _

/-- A piece of text up to its closing quote, and the bytes that it stands for. -/
inductive TextPiece : Bytes → Bytes → Prop
  | quote : TextPiece [byte '"'] []
  | unit {escape piece content : Bytes} {c : Char}
    (h : ∀ more, escapedChar? (escape ++ more) = .ok (c, more)) (next : TextPiece piece content) :
    TextPiece (byte '\\' :: byte 'u' :: (escape ++ piece)) (String.utf8EncodeChar c ++ content)
  | letter {letter b : UInt8} {piece content : Bytes} (notUnit : letter ≠ byte 'u')
    (h : escapeLetter? letter = some b) (next : TextPiece piece content) :
    TextPiece (byte '\\' :: letter :: piece) (b :: content)
  | plain {b : UInt8} {piece content : Bytes} (notQuote : b ≠ byte '"')
    (notEscape : b ≠ byte '\\') (notControl : ¬ b < 32) (next : TextPiece piece content) :
    TextPiece (b :: piece) (b :: content)

theorem TextPiece.textBytes_append {piece content : Bytes} (h : TextPiece piece content) :
    ∀ {budget : Nat} (more : Bytes), piece.length ≤ budget →
      textBytes budget (piece ++ more) = .ok (content, more) := by
  induction h with
  | quote =>
    intro budget more enough
    obtain ⟨budget, rfl⟩ := Nat.exists_eq_add_of_le' enough
    rfl
  | unit h _ ih =>
    intro budget more enough
    simp only [List.length_cons, List.length_append] at enough
    obtain ⟨budget, rfl⟩ := Nat.exists_eq_add_of_le' (Nat.le_trans (Nat.le_add_left 1 _) enough)
    rw [List.cons_append, List.cons_append, List.append_assoc]
    exact bind_eq_ok.2 ⟨_, h _, bind_eq_ok.2 ⟨_, ih more (by omega), rfl⟩⟩
  | letter notUnit h _ ih =>
    intro budget more enough
    obtain ⟨budget, rfl⟩ := Nat.exists_eq_add_of_le' (Nat.le_trans (Nat.le_add_left 1 _) enough)
    simp only [List.length_cons] at enough
    rw [List.cons_append, List.cons_append, textBytes.eq_def]
    dsimp only
    rw [if_neg (by decide), if_pos rfl, if_neg notUnit, h]
    exact bind_eq_ok.2 ⟨_, ih more (by omega), rfl⟩
  | plain notQuote notEscape notControl _ ih =>
    intro budget more enough
    obtain ⟨budget, rfl⟩ := Nat.exists_eq_add_of_le' (Nat.le_trans (Nat.le_add_left 1 _) enough)
    simp only [List.length_cons] at enough
    rw [List.cons_append, textBytes.eq_def]
    dsimp only
    rw [if_neg notQuote, if_neg notEscape, if_neg notControl]
    exact bind_eq_ok.2 ⟨_, ih more (by omega), rfl⟩

theorem exists_textPiece {budget : Nat} {bytes content rest : Bytes}
    (h : textBytes budget bytes = .ok (content, rest)) :
    ∃ piece, bytes = piece ++ rest ∧ TextPiece piece content := by
  -- the cases are those of the reader: quote, escape by number, escape by letter, plain byte
  induction budget generalizing bytes content with
  | zero => cases h
  | succ budget ih =>
    cases bytes with
    | nil => cases h
    | cons b bytes =>
      rw [textBytes.eq_def] at h
      dsimp only at h
      split at h
      · next quote =>
        cases h
        exact ⟨[b], rfl, quote ▸ .quote⟩
      next notQuote =>
      split at h
      · next backslash =>
        subst backslash
        split at h
        · cases h
        next letter bytes =>
        split at h
        · next u =>
          subst u
          obtain ⟨⟨c, after⟩, escape, h⟩ := bind_eq_ok.1 h
          obtain ⟨⟨further, after'⟩, next, h⟩ := bind_eq_ok.1 h
          obtain ⟨rfl, rfl⟩ := Prod.mk.inj (Except.ok.inj h)
          obtain ⟨piece, rfl, takes⟩ := escapedChar?_takes escape
          obtain ⟨piece', text, next⟩ := ih next
          refine ⟨_, ?_, .unit takes next⟩
          rw [List.cons_append, List.cons_append, List.append_assoc, ← text]
        next notUnit =>
        split at h
        · cases h
        next escaped =>
        obtain ⟨⟨further, after'⟩, next, h⟩ := bind_eq_ok.1 h
        obtain ⟨rfl, rfl⟩ := Prod.mk.inj (Except.ok.inj h)
        obtain ⟨piece, text, next⟩ := ih next
        exact ⟨_, congrArg _ (congrArg _ text), .letter notUnit escaped next⟩
      next notEscape =>
      split at h
      · cases h
      next notControl =>
      obtain ⟨⟨further, after'⟩, next, h⟩ := bind_eq_ok.1 h
      obtain ⟨rfl, rfl⟩ := Prod.mk.inj (Except.ok.inj h)
      obtain ⟨piece, text, next⟩ := ih next
      exact ⟨_, congrArg _ text, .plain notQuote notEscape notControl next⟩

theorem ofText_eq_iff {bytes rest : Bytes} {s : String} :
    ofText bytes = (.text s, rest) ↔ ∃ piece content, bytes = piece ++ rest ∧
      TextPiece piece content ∧ Utf8.decode? content = some s := by
  constructor
  · intro h
    unfold ofText at h
    split at h
    · cases h
    next content after read =>
    split at h
    · next s decoded =>
      cases h
      obtain ⟨piece, text, spelled⟩ := exists_textPiece read
      exact ⟨piece, content, text, spelled, decoded⟩
    · cases h
  · rintro ⟨piece, content, rfl, spelled, decoded⟩
    rw [ofText, spelled.textBytes_append rest (by rw [List.length_append]; omega)]
    dsimp only
    rw [decoded]

end PatchTrial.Json.Token
