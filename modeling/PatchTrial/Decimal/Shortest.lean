import PatchTrial.Decimal.Double

/-!
The fewest decimal digits that read back as a number of double precision. All that lies nearer to
the number than to its neighbours reads back as the number; on the grid of `n` digits only the two
points beside it need to be tried, and the first grid with a point that reads back gives the
digits, the nearer point if both do.
-/
namespace PatchTrial.Decimal

/-- Decimal digits and the power of ten of the first of them. -/
structure Digits where
  digits : List Char
  tens : Int
  deriving DecidableEq, Repr

namespace Magnitude

/-- Whether a fraction reads back as a number: it lies within half a step of the number, where the
step below a power of two is half of the step above it, and the ends belong to numbers with an even
significand. -/
def readsBack (m : Magnitude) (num den : Nat) : Bool :=
  let x := m.fraction
  let unit : Nat × Nat :=
    if 0 ≤ m.exponent then (Nat.pow 2 m.exponent.toNat, 1) else (1, Nat.pow 2 (-m.exponent).toNat)
  let even := m.significand % 2 == 0
  let narrow := m.significand == Nat.pow 2 52 && m.exponent != leastExponent
  -- The number, the point and the ends over one denominator, all four times.
  let value := 4 * x.1 * unit.2 * den
  let point := 4 * num * x.2 * unit.2
  let step := unit.1 * x.2 * den
  let low := value - (if narrow then step else 2 * step)
  let high := value + 2 * step
  if even then low ≤ point && point ≤ high else low < point && point < high

/-- The power of ten of the first digit of a positive fraction, from a guess that is too low by no
more than the number of steps left. -/
def firstTens (num den : Nat) : Nat → Int → Int
  | 0, guess => guess
  | n + 1, guess =>
    let next := guess + 1
    let reached :=
      if 0 ≤ next then den * Nat.pow 10 next.toNat ≤ num else den ≤ num * Nat.pow 10 (-next).toNat
    if reached then firstTens num den n next else guess

/-- The point of the grid of `n` digits that reads back, if there is one: its digits. -/
def onGrid? (m : Magnitude) (first : Int) (n : Nat) : Option Nat :=
  let tens : Int := first - (n : Int) + 1
  let x := m.fraction
  let grid : Nat × Nat :=
    if 0 ≤ tens then (Nat.pow 10 tens.toNat, 1) else (1, Nat.pow 10 (-tens).toNat)
  let num := x.1 * grid.2
  let den := x.2 * grid.1
  let below := num / den
  let fits (d : Nat) : Bool := 0 < d && m.readsBack (d * grid.1) grid.2
  let nearer := roundDiv num den
  let other := if nearer = below then below + 1 else below
  if fits nearer then some nearer else if fits other then some other else none

/-- The first grid with a point that reads back, of those of `n` digits and more: its number of
digits, and the digits. Seventeen digits are always enough. -/
def shortestFrom (m : Magnitude) (first : Int) : Nat → Nat → Nat × Nat
  | 0, n => (n, (m.onGrid? first n).getD 0)
  | left + 1, n =>
    match m.onGrid? first n with
    | some digits => (n, digits)
    | none => shortestFrom m first left (n + 1)

def dropZeros (digits : List Char) : List Char :=
  (digits.reverse.dropWhile (· == '0')).reverse

/-- The shortest digits of a number. The upper point of a grid may have one digit more than the
grid. -/
def shortest (m : Magnitude) : Digits :=
  if m.significand = 0 then ⟨['0'], 0⟩
  else
    let x := m.fraction
    let guess : Int := (topBit x.1 x.2 * 30103) / 100000 - 1
    let first := firstTens x.1 x.2 3 guess
    let (n, value) := shortestFrom m first 16 1
    let digits := Nat.toDigits 10 value
    ⟨dropZeros digits, first + (digits.length : Int) - (n : Int)⟩

end Magnitude
end PatchTrial.Decimal
