import PatchTrial.Proofs.Text.Codec

/-!
Bytes around plain characters. A plain character is one byte, and that byte belongs to no other
character, so whatever stands before it is read on its own.

What is proved:
  1. `parts_append`: the parts of a byte string and of one that starts with a plain character after
     it are those of the two.
  2. `decode?_between`: between a text and a plain one a byte string is read as it is read alone.
-/
namespace PatchTrial.Utf8

/-- Nothing, or bytes that start with a plain character. -/
def StartsPlain (bytes : Bytes) : Prop := ∀ b ∈ bytes.head?, b < 0x80

theorem le_of_following? {lead low high : UInt8} {n : Nat}
    (h : following? lead = some (low, high, n)) : 0x80 ≤ low := by
  unfold following? at h
  repeat' split at h
  all_goals cases h <;> decide

/-! ## A plain character ends what stands before it -/

variable {ys : Bytes} (plain : StartsPlain ys)
include plain

theorem continue?_append (n point : Nat) (xs : Bytes) :
    continue? n point (xs ++ ys) = ((continue? n point xs).1, (continue? n point xs).2 ++ ys) := by
  induction n generalizing point xs with
  | zero => rfl
  | succ n ih =>
    cases xs with
    | nil =>
      cases ys with
      | nil => rfl
      | cons b rest =>
        have hb : b < 0x80 := plain b rfl
        have out : ¬ (0x80 ≤ b ∧ b ≤ 0xBF) := fun h => absurd hb (UInt8.not_lt.2 h.1)
        show continue? (n + 1) point (b :: rest) = (none, b :: rest)
        rw [continue?, if_neg out]
    | cons b rest =>
      rw [List.cons_append, continue?, continue?]
      by_cases inside : 0x80 ≤ b ∧ b ≤ 0xBF
      · rw [if_pos inside, if_pos inside]
        exact ih _ rest
      · rw [if_neg inside, if_neg inside]
        rfl

theorem next?_append {xs rest : Bytes} {c : Option Char} (h : next? xs = some (c, rest)) :
    next? (xs ++ ys) = some (c, rest ++ ys) := by
  cases xs with
  | nil => cases h
  | cons a tail =>
    rw [List.cons_append]
    simp only [next?] at h ⊢
    by_cases one : a < 0x80
    · rw [if_pos one] at h ⊢
      cases h
      rfl
    · rw [if_neg one] at h ⊢
      cases hf : following? a with
      | none =>
        rw [hf] at h
        cases h
        rfl
      | some range =>
        obtain ⟨low, high, n⟩ := range
        rw [hf] at h
        cases tail with
        | nil =>
          cases h
          -- the character is cut off, and what comes next does not continue it
          cases ys with
          | nil => rfl
          | cons b more =>
            have hb : b < 0x80 := plain b rfl
            have hlow := le_of_following? hf
            have out : ¬ (low ≤ b ∧ b ≤ high) := by
              intro h
              exact absurd (UInt8.lt_of_lt_of_le hb hlow) (UInt8.not_lt.2 h.1)
            show (if low ≤ b ∧ b ≤ high then _ else some (none, b :: more)) = _
            rw [if_neg out]
            rfl
        | cons b tail =>
          dsimp only [List.cons_append] at h ⊢
          by_cases inside : low ≤ b ∧ b ≤ high
          · rw [if_pos inside] at h ⊢
            rw [continue?_append plain, Option.some.inj h]
          · rw [if_neg inside] at h ⊢
            cases h
            rfl

theorem parts_append (xs : Bytes) : parts (xs ++ ys) = parts xs ++ parts ys := by
  -- every step leaves a shorter byte string, so the induction is on the length
  induction hn : xs.length using Nat.strongRecOn generalizing xs with
  | ind n ih =>
    cases hx : next? xs with
    | none =>
      rw [eq_nil_of_next? hx, parts_nil]
      rfl
    | some step =>
      obtain ⟨c, rest⟩ := step
      have shorter := length_lt_of_next? hx
      rw [parts_of_next? hx, parts_of_next? (next?_append plain hx), List.cons_append,
        ih rest.length (by omega) rest rfl]

omit plain

/-! ## Plain texts -/

theorem plain_of_all {s : String} (h : s.toList.all (fun c => decide (Plain c)) = true) :
    ∀ c ∈ s.toList, Plain c := fun c hc => of_decide_eq_true (List.all_eq_true.1 h c hc)

theorem plain_append {s t : String} (hs : ∀ c ∈ s.toList, Plain c)
    (ht : ∀ c ∈ t.toList, Plain c) : ∀ c ∈ (s ++ t).toList, Plain c := by
  intro c hc
  rw [String.toList_append, List.mem_append] at hc
  exact hc.elim (hs c) (ht c)

theorem encode_of_plain {s : String} (h : ∀ c ∈ s.toList, Plain c) :
    encode s = s.toList.map fun c => UInt8.ofNat c.toNat := by
  unfold encode
  generalize s.toList = cs at h
  induction cs with
  | nil => rfl
  | cons c rest ih =>
    rw [List.flatMap_cons, (encodeChar_of_plain (h c List.mem_cons_self)).1, List.map_cons,
      ih fun d hd => h d (List.mem_cons_of_mem c hd)]
    rfl

theorem startsPlain_encode {s : String} (h : ∀ c ∈ s.toList, Plain c) :
    StartsPlain (encode s) := by
  unfold encode
  cases hs : s.toList with
  | nil =>
    intro b hb
    cases hb
  | cons c rest =>
    have plain : Plain c := h c (by rw [hs]; exact List.mem_cons_self)
    rw [List.flatMap_cons, (encodeChar_of_plain plain).1]
    intro b hb
    obtain rfl : UInt8.ofNat c.toNat = b := Option.some.inj hb
    rw [UInt8.lt_iff_toNat_lt, UInt8.toNat_ofNat']
    exact Nat.lt_of_le_of_lt (Nat.mod_le _ _) plain

/-- Between a text and a plain one a byte string is read as it is read alone. -/
theorem decode?_between (before : String) {after : String} (ha : ∀ c ∈ after.toList, Plain c)
    (bytes : Bytes) :
    decode? (encode before ++ bytes ++ encode after) =
      (decode? bytes).map fun text => before ++ text ++ after := by
  have all (cs : List Char) : (cs.map some).mapM id = some cs := mapM_id_eq_some.2 rfl
  rw [decode?, decode?, parts_append (startsPlain_encode ha), parts_encode_append, parts_encode,
    List.mapM_append, List.mapM_append, all, all]
  cases (parts bytes).mapM id with
  | none => rfl
  | some text => simp [String.append_assoc]

end PatchTrial.Utf8
