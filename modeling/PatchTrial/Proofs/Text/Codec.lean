import PatchTrial.Text.Utf8

/-!
The strict reading is the inverse of writing. A character is read from its octets whatever comes
after them, and octets that are read as a character are its own: the table of leading octets leaves
out the longer spellings, the surrogates and what lies beyond the last character.

What is proved:
  1. `next?_encodeChar`, `eq_encodeChar_of_next?`: one step of the reader, both ways.
  2. `decode?_eq_some_iff`: bytes are read as a text exactly if the text is written as these bytes.
  3. `decodeLossy_encode`: the lossy reading changes nothing in what was written.
-/
namespace PatchTrial.Utf8

/-- A character that is written as one byte. -/
def Plain (c : Char) : Prop := c.toNat < 128

instance (c : Char) : Decidable (Plain c) := inferInstanceAs (Decidable (_ < _))

/-! ## Parts -/

@[simp] theorem parts_nil : parts [] = [] := by
  rw [parts]
  rfl

theorem parts_of_next? {bytes rest : Bytes} {c : Option Char}
    (h : next? bytes = some (c, rest)) : parts bytes = c :: parts rest := by
  rw [parts]
  split
  · next none =>
    rw [h] at none
    cases none
  · next c' rest' some =>
    rw [h] at some
    cases some
    rfl

theorem eq_nil_of_next? {bytes : Bytes} (h : next? bytes = none) : bytes = [] := by
  cases bytes with
  | nil => rfl
  | cons a rest =>
    simp only [next?] at h
    split at h
    · cases h
    · split at h
      · split at h <;> cases h
      · cases h

/-- A plain character is written as one byte, and that byte is read as the character. -/
theorem encodeChar_of_plain {c : Char} (h : Plain c) :
    String.utf8EncodeChar c = [UInt8.ofNat c.toNat] ∧
      ∀ rest, next? (UInt8.ofNat c.toNat :: rest) = some (some c, rest) := by
  have small : c.toNat < 128 := h
  have value : (UInt8.ofNat c.toNat).toNat = c.toNat := by
    rw [UInt8.toNat_ofNat']
    omega
  have low : UInt8.ofNat c.toNat < 0x80 := by
    rw [UInt8.lt_iff_toNat_lt, value]
    exact small
  refine ⟨if_pos (Nat.le_of_lt_succ small), fun rest => ?_⟩
  show (if UInt8.ofNat c.toNat < 0x80 then _ else _) = _
  rw [if_pos low, value, Char.ofNat_toNat]

/-! ## The table of leading octets -/

/-- A leading octet, the range of the octet after it, and the number of octets after that. -/
inductive Leads : Nat → Nat → Nat → Nat → Prop
  | two {a : Nat} (h : 0xC2 ≤ a ∧ a ≤ 0xDF) : Leads a 0x80 0xBF 0
  /-- Three octets, not for what fits into two. -/
  | threeLow : Leads 0xE0 0xA0 0xBF 1
  /-- No surrogates. -/
  | threeCut : Leads 0xED 0x80 0x9F 1
  | three {a : Nat} (h : 0xE1 ≤ a ∧ a ≤ 0xEF) (hne : a ≠ 0xED) : Leads a 0x80 0xBF 1
  /-- Four octets, not for what fits into three. -/
  | fourLow : Leads 0xF0 0x90 0xBF 2
  /-- Nothing beyond the last character. -/
  | fourHigh : Leads 0xF4 0x80 0x8F 2
  | four {a : Nat} (h : 0xF1 ≤ a ∧ a ≤ 0xF3) : Leads a 0x80 0xBF 2

theorem leads_of_following? {a low high : UInt8} {n : Nat}
    (h : following? a = some (low, high, n)) : Leads a.toNat low.toNat high.toNat n := by
  unfold following? at h
  simp only [UInt8.le_iff_toNat_le, ← UInt8.toNat_inj] at h
  split at h
  · cases h; exact .two ‹_›
  split at h
  · cases h; rename_i e; rw [e]; exact .threeLow
  split at h
  · cases h; rename_i e; rw [e]; exact .threeCut
  split at h
  · cases h; exact .three ‹_› ‹_›
  split at h
  · cases h; rename_i e; rw [e]; exact .fourLow
  split at h
  · cases h; rename_i e; rw [e]; exact .fourHigh
  split at h
  · cases h; exact .four ‹_›
  · cases h

theorem following?_of_leads {a : UInt8} {low high n : Nat} (h : Leads a.toNat low high n) :
    following? a = some (UInt8.ofNat low, UInt8.ofNat high, n) := by
  generalize ha : a.toNat = v at h
  unfold following?
  simp only [UInt8.le_iff_toNat_le, ← UInt8.toNat_inj, ha, UInt8.reduceToNat]
  cases h <;> (repeat' split) <;> first | rfl | omega

theorem toNat_byte {n : Nat} (h : n < 256) : (UInt8.ofNat n).toNat = n := by
  rw [UInt8.toNat_ofNat']
  omega

theorem eq_byte {b : UInt8} {n : Nat} (h : b.toNat = n) : b = UInt8.ofNat n := by
  rw [← h, UInt8.ofNat_toNat]

/-! ## Reading what was written -/

theorem next?_of_leads {a b : UInt8} {low high n : Nat} (h : Leads a.toNat low high n)
    (hb : low ≤ b.toNat ∧ b.toNat ≤ high) (rest : Bytes) :
    next? (a :: b :: rest) = some (continue? n (leadBits a n * 64 + b.toNat % 64) rest) := by
  have big : ¬ a < 0x80 := by
    rw [UInt8.lt_iff_toNat_lt]
    show ¬ a.toNat < 128
    generalize a.toNat = v at h
    cases h <;> omega
  have inside : UInt8.ofNat low ≤ b ∧ b ≤ UInt8.ofNat high := by
    have : low < 256 ∧ high < 256 := by
      generalize a.toNat = v at h
      cases h <;> omega
    rw [UInt8.le_iff_toNat_le, UInt8.le_iff_toNat_le, toNat_byte this.1, toNat_byte this.2]
    exact hb
  simp only [next?, if_neg big, following?_of_leads h, if_pos inside]

theorem continue?_succ {n point : Nat} {b : UInt8} (h : 128 ≤ b.toNat ∧ b.toNat ≤ 191)
    (rest : Bytes) :
    continue? (n + 1) point (b :: rest) = continue? n (point * 64 + b.toNat % 64) rest := by
  refine if_pos ?_
  rw [UInt8.le_iff_toNat_le, UInt8.le_iff_toNat_le]
  exact h

/-- The octets of a code point beyond the plain ones. -/
def octets (v : Nat) : Bytes :=
  if v ≤ 0x7FF then [.ofNat (v / 64 % 32 + 192), .ofNat (v % 64 + 128)]
  else if v ≤ 0xFFFF then
    [.ofNat (v / 4096 % 16 + 224), .ofNat (v / 64 % 64 + 128), .ofNat (v % 64 + 128)]
  else
    [.ofNat (v / 262144 % 8 + 240), .ofNat (v / 4096 % 64 + 128), .ofNat (v / 64 % 64 + 128),
      .ofNat (v % 64 + 128)]

theorem encodeChar_eq_octets {c : Char} (h : ¬ Plain c) :
    String.utf8EncodeChar c = octets c.toNat := by
  have big : ¬ c.val.toNat ≤ 127 := fun le => h (Nat.lt_succ_of_le le)
  exact if_neg big

theorem next?_octets {v : Nat} (plain : ¬ v < 128) (valid : v.isValidChar) (rest : Bytes) :
    next? (octets v ++ rest) = some (some (Char.ofNat v), rest) := by
  have high (n : Nat) : (UInt8.ofNat (n % 64 + 128)).toNat = n % 64 + 128 := by
    rw [toNat_byte]
    omega
  have following (n : Nat) : 128 ≤ (UInt8.ofNat (n % 64 + 128)).toNat ∧
      (UInt8.ofNat (n % 64 + 128)).toNat ≤ 191 := by
    rw [high]
    omega
  unfold octets
  change v < 0xD800 ∨ 0xDFFF < v ∧ v < 0x110000 at valid
  split
  -- two octets
  · have ha : (UInt8.ofNat (v / 64 % 32 + 192)).toNat = v / 64 + 192 := by rw [toNat_byte] <;> omega
    have lead : Leads (UInt8.ofNat (v / 64 % 32 + 192)).toNat 0x80 0xBF 0 := by
      rw [ha]
      exact .two (by omega)
    have value : (v / 64 + 192) % 32 * 64 + (v % 64 + 128) % 64 = v := by omega
    rw [List.cons_append, List.singleton_append, next?_of_leads lead (following v), continue?,
      leadBits, ha, high, if_pos rfl, value]
  split
  -- three octets
  · have ha : (UInt8.ofNat (v / 4096 % 16 + 224)).toNat = v / 4096 + 224 := by
      rw [toNat_byte] <;> omega
    have lead : ∃ low high, Leads (UInt8.ofNat (v / 4096 % 16 + 224)).toNat low high 1 ∧
        low ≤ v / 64 % 64 + 128 ∧ v / 64 % 64 + 128 ≤ high := by
      rw [ha]
      by_cases first : v / 4096 = 0
      · rw [first]
        exact ⟨_, _, .threeLow, by omega⟩
      by_cases cut : v / 4096 = 13
      · rw [cut]
        exact ⟨_, _, .threeCut, by omega⟩
      · exact ⟨_, _, .three (by omega) (by omega), by omega⟩
    obtain ⟨low, upper, lead, range⟩ := lead
    rw [← high] at range
    have value : ((v / 4096 + 224) % 16 * 64 + (v / 64 % 64 + 128) % 64) * 64 +
        (v % 64 + 128) % 64 = v := by omega
    rw [List.cons_append, List.cons_append, List.singleton_append, next?_of_leads lead range,
      continue?_succ (following v), continue?, leadBits, ha, high, high, if_neg (by decide),
      if_pos rfl, value]
  -- four octets
  · have ha : (UInt8.ofNat (v / 262144 % 8 + 240)).toNat = v / 262144 + 240 := by
      rw [toNat_byte] <;> omega
    have lead : ∃ low high, Leads (UInt8.ofNat (v / 262144 % 8 + 240)).toNat low high 2 ∧
        low ≤ v / 4096 % 64 + 128 ∧ v / 4096 % 64 + 128 ≤ high := by
      rw [ha]
      by_cases first : v / 262144 = 0
      · rw [first]
        exact ⟨_, _, .fourLow, by omega⟩
      by_cases last : v / 262144 = 4
      · rw [last]
        exact ⟨_, _, .fourHigh, by omega⟩
      · exact ⟨_, _, .four (by omega), by omega⟩
    obtain ⟨low, upper, lead, range⟩ := lead
    rw [← high] at range
    have value : (((v / 262144 + 240) % 8 * 64 + (v / 4096 % 64 + 128) % 64) * 64 +
        (v / 64 % 64 + 128) % 64) * 64 + (v % 64 + 128) % 64 = v := by omega
    rw [List.cons_append, List.cons_append, List.cons_append, List.singleton_append,
      next?_of_leads lead range, continue?_succ (following _), continue?_succ (following v),
      continue?, leadBits, ha, high, high, high, if_neg (by decide), if_neg (by decide), value]

/-- A character is read from its octets, whatever comes after them. -/
theorem next?_encodeChar (c : Char) (rest : Bytes) :
    next? (String.utf8EncodeChar c ++ rest) = some (some c, rest) := by
  by_cases plain : Plain c
  · obtain ⟨e, first⟩ := encodeChar_of_plain plain
    rw [e, List.singleton_append, first]
  · rw [encodeChar_eq_octets plain, next?_octets plain c.valid, Char.ofNat_toNat]

theorem parts_encode_append (s : String) (bytes : Bytes) :
    parts (encode s ++ bytes) = s.toList.map some ++ parts bytes := by
  unfold encode
  induction s.toList with
  | nil => rfl
  | cons c rest ih =>
    rw [List.flatMap_cons, List.append_assoc, parts_of_next? (next?_encodeChar c _), ih]
    rfl

theorem parts_encode (s : String) : parts (encode s) = s.toList.map some := by
  have all := parts_encode_append s []
  rw [List.append_nil, parts_nil, List.append_nil] at all
  exact all

/-- A text is read back, also by the lossy reading. -/
theorem decodeLossy_encode (s : String) : decodeLossy (encode s) = s := by
  rw [decodeLossy, parts_encode, List.map_map]
  show String.ofList (s.toList.map id) = s
  rw [List.map_id, String.ofList_toList]

/-! ## Writing what was read -/

/-- A character that goes on takes one more octet. -/
theorem exists_of_continue? {n point : Nat} {bytes rest : Bytes} {c : Char}
    (h : continue? (n + 1) point bytes = (some c, rest)) :
    ∃ b tail, bytes = b :: tail ∧ (128 ≤ b.toNat ∧ b.toNat ≤ 191) ∧
      continue? n (point * 64 + b.toNat % 64) tail = (some c, rest) := by
  cases bytes with
  | nil => cases h
  | cons b tail =>
    rw [continue?] at h
    split at h
    · rename_i inside
      rw [UInt8.le_iff_toNat_le, UInt8.le_iff_toNat_le] at inside
      exact ⟨b, tail, rfl, inside, h⟩
    · cases h

/-- A character is one small octet, or starts with a leading octet and one in its range. -/
theorem exists_of_next? {bytes rest : Bytes} {c : Char} (h : next? bytes = some (some c, rest)) :
    (∃ a, bytes = a :: rest ∧ a.toNat < 128 ∧ c = Char.ofNat a.toNat) ∨
      ∃ a b tail low high n, bytes = a :: b :: tail ∧ Leads a.toNat low high n ∧
        (low ≤ b.toNat ∧ b.toNat ≤ high) ∧
        continue? n (leadBits a n * 64 + b.toNat % 64) tail = (some c, rest) := by
  cases bytes with
  | nil => cases h
  | cons a tail =>
    simp only [next?] at h
    split at h
    · rename_i small
      cases h
      exact .inl ⟨a, rfl, UInt8.lt_iff_toNat_lt.1 small, rfl⟩
    · cases hf : following? a with
      | none =>
        rw [hf] at h
        cases h
      | some range =>
        obtain ⟨low, high, n⟩ := range
        rw [hf] at h
        cases tail with
        | nil => cases h
        | cons b tail =>
          dsimp only at h
          split at h
          · rename_i inside
            rw [UInt8.le_iff_toNat_le, UInt8.le_iff_toNat_le] at inside
            exact .inr ⟨a, b, tail, _, _, n, rfl, leads_of_following? hf, inside, Option.some.inj h⟩
          · cases h

theorem toNat_ofNat {n : Nat} (h : n.isValidChar) : (Char.ofNat n).toNat = n := by
  rw [Char.ofNat, dif_pos h]
  rfl

/-- A code point beyond the plain ones, and its octets. -/
structure Spelled (v : Nat) (bytes : Bytes) : Prop where
  valid : v.isValidChar
  beyond : 128 ≤ v
  octets : octets v = bytes

theorem Spelled.encodeChar {v : Nat} {bytes : Bytes} (h : Spelled v bytes) :
    String.utf8EncodeChar (Char.ofNat v) = bytes := by
  have value := toNat_ofNat h.valid
  have big : ¬ Plain (Char.ofNat v) := by
    rw [Plain, value]
    exact Nat.not_lt.2 h.beyond
  rw [encodeChar_eq_octets big, value, h.octets]

section Spelled
variable {a b c d : UInt8} {low high : Nat}

theorem spelled_two (lead : Leads a.toNat low high 0) (hb : low ≤ b.toNat ∧ b.toNat ≤ high) :
    Spelled (leadBits a 0 * 64 + b.toNat % 64) [a, b] := by
  show Spelled (a.toNat % 32 * 64 + b.toNat % 64) [a, b]
  generalize ha : a.toNat = x at lead
  cases lead
  refine ⟨.inl (by omega), by omega, ?_⟩
  rw [octets, if_pos (by omega), ← eq_byte (b := a) (by omega), ← eq_byte (b := b) (by omega)]

theorem spelled_three (lead : Leads a.toNat low high 1) (hb : low ≤ b.toNat ∧ b.toNat ≤ high)
    (hc : 128 ≤ c.toNat ∧ c.toNat ≤ 191) :
    Spelled ((leadBits a 1 * 64 + b.toNat % 64) * 64 + c.toNat % 64) [a, b, c] := by
  show Spelled ((a.toNat % 16 * 64 + b.toNat % 64) * 64 + c.toNat % 64) [a, b, c]
  generalize ha : a.toNat = x at lead
  have bounds : 0xE0 ≤ x ∧ x ≤ 0xEF ∧ 0x80 ≤ b.toNat ∧ b.toNat ≤ 0xBF ∧
      (x = 0xE0 → 0xA0 ≤ b.toNat) ∧ (x = 0xED → b.toNat ≤ 0x9F) := by
    cases lead <;> omega
  refine ⟨?_, by omega, ?_⟩
  · show _ ∨ _
    omega
  · rw [octets, if_neg (by omega), if_pos (by omega), ← eq_byte (b := a) (by omega),
      ← eq_byte (b := b) (by omega), ← eq_byte (b := c) (by omega)]

theorem spelled_four (lead : Leads a.toNat low high 2) (hb : low ≤ b.toNat ∧ b.toNat ≤ high)
    (hc : 128 ≤ c.toNat ∧ c.toNat ≤ 191) (hd : 128 ≤ d.toNat ∧ d.toNat ≤ 191) :
    Spelled (((leadBits a 2 * 64 + b.toNat % 64) * 64 + c.toNat % 64) * 64 + d.toNat % 64)
      [a, b, c, d] := by
  show Spelled (((a.toNat % 8 * 64 + b.toNat % 64) * 64 + c.toNat % 64) * 64 + d.toNat % 64)
    [a, b, c, d]
  generalize ha : a.toNat = x at lead
  have bounds : 0xF0 ≤ x ∧ x ≤ 0xF4 ∧ 0x80 ≤ b.toNat ∧ b.toNat ≤ 0xBF ∧
      (x = 0xF0 → 0x90 ≤ b.toNat) ∧ (x = 0xF4 → b.toNat ≤ 0x8F) := by
    cases lead <;> omega
  refine ⟨.inr (by omega), by omega, ?_⟩
  rw [octets, if_neg (by omega), if_neg (by omega), ← eq_byte (b := a) (by omega),
    ← eq_byte (b := b) (by omega), ← eq_byte (b := c) (by omega), ← eq_byte (b := d) (by omega)]

end Spelled

/-- Octets that are read as a character are those of the character. -/
theorem eq_encodeChar_of_next? {bytes rest : Bytes} {c : Char}
    (h : next? bytes = some (some c, rest)) : bytes = String.utf8EncodeChar c ++ rest := by
  rcases exists_of_next? h with
    ⟨a, rfl, small, rfl⟩ | ⟨a, b, tail, low, high, n, rfl, lead, hb, more⟩
  · have value : (Char.ofNat a.toNat).toNat = a.toNat := toNat_ofNat (.inl (by omega))
    have plain : Plain (Char.ofNat a.toNat) := by
      rw [Plain, value]
      exact small
    rw [(encodeChar_of_plain plain).1, value, UInt8.ofNat_toNat]
    rfl
  · match n, lead, more with
    | 0, lead, more =>
      cases more
      rw [(spelled_two lead hb).encodeChar]
      rfl
    | 1, lead, more =>
      obtain ⟨c, tail, rfl, hc, more⟩ := exists_of_continue? more
      cases more
      rw [(spelled_three lead hb hc).encodeChar]
      rfl
    | 2, lead, more =>
      obtain ⟨c, tail, rfl, hc, more⟩ := exists_of_continue? more
      obtain ⟨d, tail, rfl, hd, more⟩ := exists_of_continue? more
      cases more
      rw [(spelled_four lead hb hc hd).encodeChar]
      rfl
    | n + 3, lead, more =>
      generalize a.toNat = x at lead
      nomatch lead

theorem eq_of_parts {bytes : Bytes} {cs : List Char} (h : parts bytes = cs.map some) :
    bytes = cs.flatMap String.utf8EncodeChar := by
  induction cs generalizing bytes with
  | nil =>
    cases hn : next? bytes with
    | none => exact eq_nil_of_next? hn
    | some step =>
      rw [parts_of_next? hn] at h
      cases h
  | cons c rest ih =>
    cases hn : next? bytes with
    | none =>
      rw [eq_nil_of_next? hn, parts_nil] at h
      cases h
    | some step =>
      obtain ⟨first, tail⟩ := step
      rw [parts_of_next? hn, List.map_cons, List.cons.injEq] at h
      obtain ⟨rfl, h⟩ := h
      rw [eq_encodeChar_of_next? hn, ih h, List.flatMap_cons]

theorem mapM_id_eq_some {xs : List (Option Char)} {cs : List Char} :
    xs.mapM id = some cs ↔ xs = cs.map some := by
  induction xs generalizing cs with
  | nil => cases cs <;> simp
  | cons x rest ih =>
    cases x with
    | none => cases cs <;> simp
    | some c =>
      cases cs with
      | nil => simp [Option.bind_eq_some_iff]
      | cons d more => simpa [Option.bind_eq_some_iff, ih] using and_comm

/-- Bytes are read as a text exactly if the text is written as these bytes. -/
theorem decode?_eq_some_iff {bytes : Bytes} {s : String} :
    decode? bytes = some s ↔ bytes = encode s := by
  rw [decode?, Option.map_eq_some_iff]
  constructor
  · rintro ⟨cs, h, rfl⟩
    rw [eq_of_parts (mapM_id_eq_some.1 h), encode, String.toList_ofList]
  · rintro rfl
    exact ⟨s.toList, mapM_id_eq_some.2 (parts_encode s), String.ofList_toList⟩

end PatchTrial.Utf8
