import Mathlib.Data.List.TakeDrop
import Mathlib.Data.List.TakeWhile
import PatchTrial.Json.Token

/-!
How numbers are taken off a text. A number is a piece of the text, the same whatever comes after it,
as long as that cannot go on the number: it must not begin with a digit, a point or the mark of an
exponent.

What is proved:
  1. `ofDigits_takes`: a number is read from a piece of text by itself.
  2. `afterDigits_natural`, `exactDigits_eq_iff`: which numbers are whole and fit a machine word.
-/
namespace PatchTrial.Json

theorem bind_eq_ok {ε α β : Type} {x : Except ε α} {f : α → Except ε β} {b : β} :
    (x >>= f) = .ok b ↔ ∃ a, x = .ok a ∧ f a = .ok b := by
  cases x with
  | error e => exact ⟨nofun, nofun⟩
  | ok a => exact ⟨fun h => ⟨a, rfl, h⟩, fun ⟨_, rfl, h⟩ => h⟩

namespace Token

/-! ## Digits -/

/-- No digit comes first. -/
def Stops (rest : Bytes) : Prop := ∀ b ∈ rest.head?, isDigit b = false

theorem splitDigits_append {digits rest : Bytes} (all : ∀ b ∈ digits, isDigit b = true)
    (stops : Stops rest) : splitDigits (digits ++ rest) = (digits, rest) := by
  have takes : rest.takeWhile isDigit = [] := by
    cases rest with
    | nil => rfl
    | cons b rest => exact List.takeWhile_cons_of_neg (by simp [stops b rfl])
  have drops : rest.dropWhile isDigit = rest := by
    cases rest with
    | nil => rfl
    | cons b rest => exact List.dropWhile_cons_of_neg (by simp [stops b rfl])
  rw [splitDigits, List.span_eq_takeWhile_dropWhile, List.takeWhile_append_of_pos all,
    List.dropWhile_append_of_pos all, takes, drops, List.append_nil]

theorem splitDigits_eq {bytes digits rest : Bytes} (h : splitDigits bytes = (digits, rest)) :
    bytes = digits ++ rest ∧ (∀ b ∈ digits, isDigit b = true) ∧ Stops rest := by
  rw [splitDigits, List.span_eq_takeWhile_dropWhile] at h
  obtain ⟨rfl, rfl⟩ := Prod.mk.inj h
  refine ⟨List.takeWhile_append_dropWhile.symm, fun b mem => List.mem_takeWhile_imp mem, ?_⟩
  intro b first
  have head := List.head?_dropWhile_not isDigit bytes
  rw [Option.mem_def.1 first] at head
  exact head

/-! ## Numbers -/

/-- Whether an exponent begins with a byte. -/
def isMark (b : UInt8) : Bool := b = byte 'e' || b = byte 'E'

/-- Whether a number may go on with a byte. -/
def continuesNumber (b : UInt8) : Bool := isDigit b || b = byte '.' || isMark b

/-- A number before these bytes is over. -/
def Ends (rest : Bytes) : Prop := ∀ b ∈ rest.head?, continuesNumber b = false

theorem Ends.stops {rest : Bytes} (h : Ends rest) : Stops rest := fun b first => by
  have bounded := h b first
  simp only [continuesNumber, Bool.or_eq_false_iff] at bounded
  exact bounded.1.1

theorem Ends.no_mark {rest : Bytes} (h : Ends rest) : ∀ b ∈ rest.head?, isMark b = false := by
  intro b first
  have bounded := h b first
  simp only [continuesNumber, Bool.or_eq_false_iff] at bounded
  exact bounded.2

/-- The sign at the front of an exponent, whether it is a minus, and what follows it. -/
def splitSign (bytes : Bytes) : Bool × Bytes :=
  match bytes with
  | sign :: more =>
    if sign = byte '+' then (false, more)
    else if sign = byte '-' then (true, more)
    else (false, bytes)
  | [] => (false, bytes)

/-- The number of some digits and the digits of an exponent. -/
def powered (negative : Bool) (digits : Nat) (tens : Int) (down : Bool) (power : Bytes) :
    Except Problem Number :=
  if exponentLimit < digitsValue power then
    if digits ≠ 0 && !down then .error .numberTooLarge else .ok (.double ⟨negative, .zero⟩)
  else
    double negative digits (if down then tens - digitsValue power else tens + digitsValue power)

theorem withExponent_plain {rest : Bytes} (h : ∀ b ∈ rest.head?, isMark b = false)
    (negative : Bool) (digits : Nat) (tens : Int) :
    withExponent negative digits tens rest =
      double negative digits tens >>= fun n => .ok (n, rest) := by
  cases rest with
  | nil => rfl
  | cons b rest =>
    have plain : ¬ (decide (b = byte 'e') || decide (b = byte 'E')) = true :=
      ne_true_of_eq_false (h b rfl)
    rw [withExponent.eq_def]
    dsimp only
    rw [if_neg plain]
    rfl

/-- A number from the digits of its exponent on. -/
def ofPower (negative : Bool) (digits : Nat) (tens : Int) (down : Bool) (bytes : Bytes) :
    Except Problem (Number × Bytes) :=
  match splitDigits bytes with
  | ([], []) => .error (.stopped .value)
  | ([], _ :: _) => .error .badNumber
  | (power, rest) =>
    if exponentLimit < digitsValue power then
      if digits ≠ 0 && !down then .error .numberTooLarge else .ok (.double ⟨negative, .zero⟩, rest)
    else do
      let n ← double negative digits
        (if down then tens - digitsValue power else tens + digitsValue power)
      return (n, rest)

theorem ofPower_eq_ok_iff {negative down : Bool} {digits : Nat} {tens : Int} {bytes rest : Bytes}
    {n : Number} : ofPower negative digits tens down bytes = .ok (n, rest) ↔
      ∃ power, power ≠ [] ∧ splitDigits bytes = (power, rest) ∧
        powered negative digits tens down power = .ok n := by
  cases split : splitDigits bytes with | mk power after => ?_
  cases power with
  | nil =>
    rw [ofPower, split]
    constructor
    · intro h
      cases after <;> cases h
    · rintro ⟨power, some, same, -⟩
      exact absurd (Prod.mk.inj same).1.symm some
  | cons first power =>
    -- there are digits, and whether the power they spell is too large is decided by `powered`
    have read : ofPower negative digits tens down bytes =
        powered negative digits tens down (first :: power) >>= fun n => .ok (n, after) := by
      rw [ofPower, split]
      dsimp only [powered]
      split
      · split <;> rfl
      · rfl
    rw [read, bind_eq_ok]
    constructor
    · rintro ⟨n', value, same⟩
      cases same
      exact ⟨_, List.cons_ne_nil _ _, rfl, value⟩
    · rintro ⟨_, -, same, value⟩
      cases same
      exact ⟨n, value, rfl⟩

theorem withExponent_mark {b : UInt8} (mark : isMark b = true) (negative : Bool) (digits : Nat)
    (tens : Int) (rest : Bytes) : withExponent negative digits tens (b :: rest) =
      ofPower negative digits tens (splitSign rest).1 (splitSign rest).2 := by
  have mark : (decide (b = byte 'e') || decide (b = byte 'E')) = true := mark
  rw [withExponent.eq_def]
  dsimp only
  rw [if_pos mark]
  rfl

/-- What may stand before the digits of an exponent, and whether it is a minus. -/
inductive Sign : Bytes → Bool → Prop
  | none : Sign [] false
  | plus : Sign [byte '+'] false
  | minus : Sign [byte '-'] true

theorem Sign.splitSign_append {sign power : Bytes} {down : Bool} (h : Sign sign down)
    (some : power ≠ []) (all : ∀ b ∈ power, isDigit b = true) (rest : Bytes) :
    splitSign (sign ++ (power ++ rest)) = (down, power ++ rest) := by
  cases h with
  | plus => rfl
  | minus => rfl
  | none =>
    cases power with
    | nil => exact absurd rfl some
    | cons b power =>
      have digit := all b List.mem_cons_self
      have plus : b ≠ byte '+' := by rintro rfl; cases digit
      have minus : b ≠ byte '-' := by rintro rfl; cases digit
      simp only [List.nil_append, List.cons_append, splitSign, if_neg plus, if_neg minus]

theorem splitSign_eq (bytes : Bytes) :
    ∃ sign, Sign sign (splitSign bytes).1 ∧ bytes = sign ++ (splitSign bytes).2 := by
  cases bytes with
  | nil => exact ⟨[], .none, rfl⟩
  | cons b more =>
    rw [splitSign]
    split
    · next plus => exact ⟨_, .plus, congrArg (· :: more) plus⟩
    split
    · next minus => exact ⟨_, .minus, congrArg (· :: more) minus⟩
    · exact ⟨[], .none, rfl⟩

/-- A reader that begins where digits have ended takes a piece of a text for a number, and it does
so wherever the number is over after the piece. -/
structure Takes (read : Bytes → Except Problem (Number × Bytes)) (bytes piece rest : Bytes)
    (n : Number) : Prop where
  text : bytes = piece ++ rest
  stops : Stops rest
  stays : ∀ more, Ends more → Stops (piece ++ more)
  takes : ∀ more, Ends more → read (piece ++ more) = .ok (n, more)

theorem withExponent_mark_takes {negative : Bool} {digits : Nat} {tens : Int} {b : UInt8}
    {after rest : Bytes} {n : Number} (mark : isMark b = true) (stops : Stops (b :: after))
    (h : withExponent negative digits tens (b :: after) = .ok (n, rest)) :
    ∃ piece, Takes (withExponent negative digits tens) (b :: after) (b :: piece) rest n := by
  rw [withExponent_mark mark, ofPower_eq_ok_iff] at h
  obtain ⟨power, some, split, value⟩ := h
  obtain ⟨sign, signed, text⟩ := splitSign_eq after
  obtain ⟨digitsText, all, stops'⟩ := splitDigits_eq split
  refine ⟨sign ++ power, by rw [text, digitsText]; simp, stops', fun _ _ => stops,
    fun more ends => ?_⟩
  rw [List.cons_append, List.append_assoc, withExponent_mark mark,
    signed.splitSign_append some all, ofPower_eq_ok_iff]
  exact ⟨power, some, splitDigits_append all ends.stops, value⟩

theorem withExponent_takes {negative : Bool} {digits : Nat} {tens : Int} {bytes rest : Bytes}
    {n : Number} (stops : Stops bytes)
    (h : withExponent negative digits tens bytes = .ok (n, rest)) :
    ∃ piece, Takes (withExponent negative digits tens) bytes piece rest n := by
  by_cases mark : ∃ b ∈ bytes.head?, isMark b = true
  · obtain ⟨b, first, mark⟩ := mark
    obtain ⟨after, rfl⟩ := List.head?_eq_some_iff.1 first
    obtain ⟨piece, takes⟩ := withExponent_mark_takes mark stops h
    exact ⟨_, takes⟩
  · rw [withExponent_plain (by simpa using mark), bind_eq_ok] at h
    obtain ⟨n', value, same⟩ := h
    cases same
    refine ⟨[], rfl, stops, fun _ ends => ends.stops, fun more ends => ?_⟩
    rw [List.nil_append, withExponent_plain ends.no_mark, value]
    rfl

/-- The digits of a whole number, without zeros in front. -/
structure Numeral (digits : Bytes) : Prop where
  nonempty : digits ≠ []
  all : ∀ b ∈ digits, isDigit b = true
  plain : digits.head? = some (byte '0') → digits.length = 1

/-- The number of digits that are not followed by a point or an exponent. -/
def wholeNumber (negative : Bool) (value dropped : Nat) : Except Problem Number :=
  if dropped ≠ 0 then double negative value dropped
  else if !negative then .ok (.natural value)
  else if value = 0 || Nat.pow 2 63 < value then double negative value 0
  else .ok (.negative value)

theorem whole_eq (negative : Bool) (value dropped : Nat) (rest : Bytes) :
    ofDigits.whole negative value dropped rest =
      wholeNumber negative value dropped >>= fun n => .ok (n, rest) := by
  unfold ofDigits.whole wholeNumber
  split
  · rfl
  split
  · rfl
  split <;> rfl

/-- A number of which the first digits were read. -/
def afterDigits (negative : Bool) (value dropped : Nat) (bytes : Bytes) :
    Except Problem (Number × Bytes) :=
  match bytes with
  | point :: afterPoint =>
    if point = byte '.' then
      match splitDigits afterPoint with
      | ([], []) => .error (.stopped .value)
      | ([], _ :: _) => .error .badNumber
      | (part, rest) =>
        let (digits, unread) := exactDigits value part
        withExponent negative digits (dropped - ((part.length - unread : Nat) : Int)) rest
    else if point = byte 'e' || point = byte 'E' then
      withExponent negative value dropped bytes
    else ofDigits.whole negative value dropped bytes
  | [] => ofDigits.whole negative value dropped bytes

theorem ofDigits_append {digits rest : Bytes} (numeral : Numeral digits) (stops : Stops rest)
    (negative : Bool) : ofDigits negative (digits ++ rest) =
      afterDigits negative (exactDigits 0 digits).1 (exactDigits 0 digits).2 rest := by
  rw [ofDigits, splitDigits_append numeral.all stops]
  cases digits with
  | nil => exact absurd rfl numeral.nonempty
  | cons first more =>
    have plain : ¬ (decide (first = byte '0') && !more.isEmpty) = true := by
      intro zero
      simp only [Bool.and_eq_true, decide_eq_true_eq] at zero
      have := numeral.plain (congrArg some zero.1)
      simp at this
      simp [this] at zero
    dsimp only
    rw [if_neg plain]
    cases rest <;> rfl

theorem exists_numeral {negative : Bool} {bytes rest : Bytes} {n : Number}
    (h : ofDigits negative bytes = .ok (n, rest)) :
    ∃ digits after, bytes = digits ++ after ∧ Numeral digits ∧ Stops after := by
  cases split : splitDigits bytes with | mk digits after => ?_
  obtain ⟨text, all, stops⟩ := splitDigits_eq split
  refine ⟨digits, after, text, ?_, stops⟩
  rw [ofDigits, split] at h
  cases digits with
  | nil => cases after <;> cases h
  | cons first more =>
    refine ⟨List.cons_ne_nil _ _, all, fun zero => ?_⟩
    dsimp only at h
    split at h
    · cases h
    · next plain =>
      obtain rfl : first = byte '0' := by simpa using zero
      simpa using plain

theorem afterDigits_plain {rest : Bytes}
    (h : ∀ b ∈ rest.head?, b ≠ byte '.' ∧ isMark b = false) (negative : Bool)
    (value dropped : Nat) : afterDigits negative value dropped rest =
      wholeNumber negative value dropped >>= fun n => .ok (n, rest) := by
  cases rest with
  | nil => exact whole_eq ..
  | cons b rest =>
    obtain ⟨point, mark⟩ := h b rfl
    have mark : ¬ (decide (b = byte 'e') || decide (b = byte 'E')) = true :=
      ne_true_of_eq_false mark
    rw [afterDigits, if_neg point, if_neg mark]
    exact whole_eq ..

theorem afterDigits_mark {b : UInt8} (mark : isMark b = true) (negative : Bool)
    (value dropped : Nat) (rest : Bytes) : afterDigits negative value dropped (b :: rest) =
      withExponent negative value dropped (b :: rest) := by
  have point : b ≠ byte '.' := by rintro rfl; cases mark
  have mark : (decide (b = byte 'e') || decide (b = byte 'E')) = true := mark
  rw [afterDigits, if_neg point, if_pos mark]

theorem afterDigits_point {part rest : Bytes} (some : part ≠ [])
    (all : ∀ b ∈ part, isDigit b = true) (stops : Stops rest) (negative : Bool)
    (value dropped : Nat) : afterDigits negative value dropped (byte '.' :: (part ++ rest)) =
      withExponent negative (exactDigits value part).1
        (dropped - ((part.length - (exactDigits value part).2 : Nat) : Int)) rest := by
  rw [afterDigits, if_pos rfl, splitDigits_append all stops]
  cases part with
  | nil => exact absurd rfl some
  | cons first more => rfl

theorem Ends.plain {rest : Bytes} (h : Ends rest) :
    ∀ b ∈ rest.head?, b ≠ byte '.' ∧ isMark b = false := by
  intro b first
  have bounded := h b first
  simp only [continuesNumber, Bool.or_eq_false_iff, decide_eq_false_iff_not] at bounded
  exact ⟨bounded.1.2, bounded.2⟩

/-- A point, the digits after it, and an exponent if there is one. -/
theorem afterDigits_point_takes {negative : Bool} {value dropped : Nat} {bytes rest : Bytes}
    {n : Number} (stops : Stops (byte '.' :: bytes))
    (h : afterDigits negative value dropped (byte '.' :: bytes) = .ok (n, rest)) :
    ∃ piece, Takes (afterDigits negative value dropped) (byte '.' :: bytes) piece rest n := by
  cases split : splitDigits bytes with | mk part after => ?_
  obtain ⟨rfl, all, stops'⟩ := splitDigits_eq split
  have some : part ≠ [] := by
    rintro rfl
    rw [afterDigits, if_pos rfl, split] at h
    cases after <;> cases h
  rw [afterDigits_point some all stops'] at h
  obtain ⟨piece, text, stops'', stays, takes⟩ := withExponent_takes stops' h
  refine ⟨byte '.' :: (part ++ piece), by rw [text]; simp, stops'', fun _ _ => stops,
    fun more ends => ?_⟩
  rw [List.cons_append, List.append_assoc, afterDigits_point some all (stays more ends)]
  exact takes more ends

theorem afterDigits_takes {negative : Bool} {value dropped : Nat} {bytes rest : Bytes}
    {n : Number} (stops : Stops bytes)
    (h : afterDigits negative value dropped bytes = .ok (n, rest)) :
    ∃ piece, Takes (afterDigits negative value dropped) bytes piece rest n := by
  by_cases plain : ∀ b ∈ bytes.head?, b ≠ byte '.' ∧ isMark b = false
  · rw [afterDigits_plain plain, bind_eq_ok] at h
    obtain ⟨n', value, same⟩ := h
    cases same
    refine ⟨[], rfl, stops, fun _ ends => ends.stops, fun more ends => ?_⟩
    rw [List.nil_append, afterDigits_plain ends.plain, value]
    rfl
  · cases bytes with
    | nil => exact absurd nofun plain
    | cons b after =>
      -- a point or a mark is taken with the piece, so the piece is not empty
      by_cases point : b = byte '.'
      · subst point
        exact afterDigits_point_takes stops h
      · have mark : isMark b = true := by simpa [point] using plain
        rw [afterDigits_mark mark] at h
        obtain ⟨piece, text, stops', stays, takes⟩ := withExponent_mark_takes mark stops h
        refine ⟨b :: piece, text, stops', stays, fun more ends => ?_⟩
        rw [List.cons_append, afterDigits_mark mark]
        exact takes more ends

theorem ofDigits_takes {negative : Bool} {bytes rest : Bytes} {n : Number}
    (h : ofDigits negative bytes = .ok (n, rest)) :
    ∃ piece, bytes = piece ++ rest ∧ Stops rest ∧
      ∀ more, Ends more → ofDigits negative (piece ++ more) = .ok (n, more) := by
  obtain ⟨digits, after, rfl, numeral, stops⟩ := exists_numeral h
  rw [ofDigits_append numeral stops] at h
  obtain ⟨piece, text, stops, stays, takes⟩ := afterDigits_takes stops h
  refine ⟨digits ++ piece, by rw [text, List.append_assoc], stops, fun more ends => ?_⟩
  rw [List.append_assoc, ofDigits_append numeral (stays more ends)]
  exact takes more ends

/-! ## Numbers without a sign, a point or an exponent -/

theorem double_isDouble {negative : Bool} {digits : Nat} {tens : Int} {n : Number}
    (h : double negative digits tens = .ok n) : ∃ d, n = .double d := by
  unfold double at h
  split at h <;> cases h
  exact ⟨_, rfl⟩

theorem withExponent_isDouble {negative : Bool} {digits : Nat} {tens : Int} {bytes rest : Bytes}
    {n : Number} (h : withExponent negative digits tens bytes = .ok (n, rest)) :
    ∃ d, n = .double d := by
  by_cases mark : ∃ b ∈ bytes.head?, isMark b = true
  · obtain ⟨b, first, mark⟩ := mark
    obtain ⟨after, rfl⟩ := List.head?_eq_some_iff.1 first
    rw [withExponent_mark mark, ofPower_eq_ok_iff] at h
    obtain ⟨power, -, -, value⟩ := h
    unfold powered at value
    split at value
    · split at value <;> cases value
      exact ⟨_, rfl⟩
    · exact double_isDouble value
  · rw [withExponent_plain (by simpa using mark), bind_eq_ok] at h
    obtain ⟨n', value, same⟩ := h
    cases same
    exact double_isDouble value

theorem wholeNumber_natural {negative : Bool} {value dropped n : Nat}
    (h : wholeNumber negative value dropped = .ok (.natural n)) :
    negative = false ∧ dropped = 0 ∧ value = n := by
  unfold wholeNumber at h
  split at h
  · obtain ⟨d, same⟩ := double_isDouble h
    cases same
  next none =>
  split at h
  · next notNegative =>
    cases h
    exact ⟨by simpa using notNegative, not_not.1 none, rfl⟩
  split at h
  · obtain ⟨d, same⟩ := double_isDouble h
    cases same
  · cases h

theorem afterDigits_natural {negative : Bool} {value dropped n : Nat} {bytes : Bytes}
    (h : afterDigits negative value dropped bytes = .ok (.natural n, [])) :
    bytes = [] ∧ negative = false ∧ dropped = 0 ∧ value = n := by
  by_cases plain : ∀ b ∈ bytes.head?, b ≠ byte '.' ∧ isMark b = false
  · rw [afterDigits_plain plain, bind_eq_ok] at h
    obtain ⟨n', read, same⟩ := h
    cases same
    exact ⟨rfl, wholeNumber_natural read⟩
  · exfalso
    unfold afterDigits at h
    split at h
    · split at h
      · split at h
        · cases h
        · cases h
        · obtain ⟨d, same⟩ := withExponent_isDouble h
          cases same
      split at h
      · obtain ⟨d, same⟩ := withExponent_isDouble h
        cases same
      · next point mark =>
        exact plain fun b first => by
          cases first
          exact ⟨point, Bool.eq_false_iff.2 mark⟩
    · exact plain nofun

theorem le_foldl_digits (digits : Bytes) (value : Nat) :
    value ≤ digits.foldl (fun n b => n * 10 + (b.toNat - 48)) value := by
  induction digits generalizing value with
  | nil => exact Nat.le_refl _
  | cons b digits ih =>
    have grows : value ≤ value * 10 + (b.toNat - 48) := by omega
    exact Nat.le_trans grows (ih _)

theorem exactDigits_eq_iff {digits : Bytes} {value n : Nat} (small : value ≤ wordLimit) :
    exactDigits value digits = (n, 0) ↔
      digits.foldl (fun n b => n * 10 + (b.toNat - 48)) value = n ∧ n ≤ wordLimit := by
  induction digits generalizing value with
  | nil =>
    simp only [exactDigits, Prod.mk.injEq, and_true, List.foldl_nil]
    exact ⟨fun same => ⟨same, same ▸ small⟩, And.left⟩
  | cons b digits ih =>
    simp only [exactDigits, List.foldl_cons]
    split
    · next large =>
      -- the value does not get smaller with more digits
      refine ⟨fun h => by simp at h, fun ⟨same, small⟩ => ?_⟩
      have grown := le_foldl_digits digits (value * 10 + (b.toNat - 48))
      omega
    · next fits => exact ih (Nat.not_lt.1 fits)

end Token
end PatchTrial.Json
