import PatchTrial.Decimal.Shortest

/-!
Numbers of a document: whole numbers that fit a machine word, and everything else in double
precision.
-/
namespace PatchTrial.Json

inductive Number
  /-- A whole number that is not negative. -/
  | natural (n : Nat)
  /-- A negative whole number, given by its size. -/
  | negative (n : Nat)
  /-- A number in double precision. -/
  | double (d : Decimal.Double)
  deriving DecidableEq, Repr

/-- How numbers in double precision are written. -/
structure NumberFormat where
  /-- The lowest and highest power of ten of a first digit that needs no exponent. -/
  plainLow : Int
  plainHigh : Int
  /-- The fewest digits of an exponent. -/
  exponentDigits : Nat

namespace Number

/-- Numbers from a hundred thousandth up to ten to the sixteenth are written without an exponent,
and an exponent has a sign and two digits at least. -/
def format : NumberFormat := ⟨-5, 15, 2⟩

/-- Digits with a point after the first `n`; a zero stands where a side would be empty. -/
def withPoint (digits : List Char) (n : Nat) : List Char :=
  let whole := digits.take n
  let part := digits.drop n
  whole ++ List.replicate (n - whole.length) '0' ++ '.' :: (if part.isEmpty then ['0'] else part)

def exponentText (f : NumberFormat) (tens : Int) : List Char :=
  let digits := Nat.toDigits 10 tens.natAbs
  (if tens < 0 then '-' else '+') :: List.replicate (f.exponentDigits - digits.length) '0' ++ digits

def sizeText (f : NumberFormat) (d : Decimal.Digits) : List Char :=
  if d.tens < f.plainLow || f.plainHigh < d.tens then
    (match d.digits with
      | [] => ['0']
      | [c] => [c]
      | c :: rest => c :: '.' :: rest) ++ 'e' :: exponentText f d.tens
  else if d.tens < 0 then
    '0' :: '.' :: List.replicate ((-d.tens).toNat - 1) '0' ++ d.digits
  else withPoint d.digits (d.tens.toNat + 1)

def doubleText (d : Decimal.Double) : String :=
  String.ofList ((if d.negative then ['-'] else []) ++ sizeText format d.size.shortest)

end Number
end PatchTrial.Json
