/-!
Numbers of double precision: a sign and a significand of at most 53 bits, scaled by a power of two.
Every operation is exact arithmetic followed by one rounding to the nearest such number, of two
equally near ones to the one with an even significand.
-/
namespace PatchTrial.Decimal

/-- The size of a number of double precision: `significand * 2 ^ exponent`. -/
structure Magnitude where
  significand : Nat
  exponent : Int
  deriving DecidableEq, Repr

/-- A finite number of double precision. -/
structure Double where
  negative : Bool
  size : Magnitude
  deriving DecidableEq, Repr

/-- The quotient rounded to the nearest integer, a half to the even one. -/
def roundDiv (num den : Nat) : Nat :=
  let q := num / den
  let twice := 2 * (num % den)
  if den < twice || (den == twice && q % 2 == 1) then q + 1 else q

/-- The exponent of the smallest numbers. -/
def leastExponent : Int := -1074

namespace Magnitude

def zero : Magnitude := ⟨0, leastExponent⟩

/-- The value as a fraction. -/
def fraction (m : Magnitude) : Nat × Nat :=
  if 0 ≤ m.exponent then (m.significand * Nat.pow 2 m.exponent.toNat, 1)
  else (m.significand, Nat.pow 2 (-m.exponent).toNat)

/-- The exponent of the highest bit of a positive fraction. -/
def topBit (num den : Nat) : Int :=
  let guess : Int := (num.log2 : Int) - (den.log2 : Int)
  let reached :=
    if 0 ≤ guess then den * Nat.pow 2 guess.toNat ≤ num else den ≤ num * Nat.pow 2 (-guess).toNat
  if reached then guess else guess - 1

/-- The nearest number to a fraction; `none` if it is beyond the largest one. -/
def ofFraction? (num den : Nat) : Option Magnitude :=
  if num = 0 then some zero
  else
    let exponent := max (topBit num den - 52) leastExponent
    let significand :=
      if 0 ≤ exponent then roundDiv num (den * Nat.pow 2 exponent.toNat)
      else roundDiv (num * Nat.pow 2 (-exponent).toNat) den
    let m : Magnitude :=
      if significand = Nat.pow 2 53 then ⟨Nat.pow 2 52, exponent + 1⟩ else ⟨significand, exponent⟩
    if 971 < m.exponent then none else some m

def mul? (a b : Magnitude) : Option Magnitude :=
  let x := a.fraction
  let y := b.fraction
  ofFraction? (x.1 * y.1) (x.2 * y.2)

def div? (a b : Magnitude) : Option Magnitude :=
  let x := a.fraction
  let y := b.fraction
  ofFraction? (x.1 * y.2) (x.2 * y.1)

/-- The largest power of ten there is. -/
def mostTens : Nat := 308

/-- A number divided by a power of ten, in steps of the largest one. -/
def divTens? (m : Magnitude) (n : Nat) : Option Magnitude :=
  if n ≤ mostTens then do m.div? (← ofFraction? (Nat.pow 10 n) 1)
  else if m.significand = 0 then some zero
  else do divTens? (← m.div? (← ofFraction? (Nat.pow 10 mostTens) 1)) (n - mostTens)
termination_by n
decreasing_by simp only [mostTens] at *; omega

/-- The number of some digits, scaled by a power of ten; `none` if it is too large. -/
def ofDigits? (digits : Nat) (tens : Int) : Option Magnitude := do
  let m ← ofFraction? digits 1
  if tens < 0 then m.divTens? (-tens).toNat
  else if tens.toNat ≤ mostTens then m.mul? (← ofFraction? (Nat.pow 10 tens.toNat) 1)
  else if digits = 0 then some zero
  else none

end Magnitude
end PatchTrial.Decimal
