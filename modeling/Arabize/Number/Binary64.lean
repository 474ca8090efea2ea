import Arabize.Text.Basic

/-! # Binary floating point, exactly

A double is its sign and the two numbers of `significand * 2 ^ exponent`, an infinity, or
not a number.  `ofDecimal` rounds a decimal to the nearest double and settles a tie by
the even significand, all in exact arithmetic.
-/

namespace Arabize

inductive Binary64
  /-- `significand * 2 ^ exponent`, with the significand below `2 ^ 53` and as large as the
      least exponent allows. -/
  | finite (negative : Bool) (significand : Nat) (exponent : Int)
  | infinite (negative : Bool)
  | undefined
  deriving DecidableEq, Repr

namespace Binary64

/-- The least exponent; below it the doubles stop getting denser. -/
def minExponent : Int := -1074

def maxExponent : Int := 971

def twoTo (n : Nat) : Nat := Nat.pow 2 n

def tenTo (n : Nat) : Nat := Nat.pow 10 n

/-- The quotient of two natural numbers rounded to the nearest one, a tie to the even one. -/
def roundDiv (num den : Nat) : Nat :=
  let q := num / den
  let r := num % den
  if 2 * r < den then q else if den < 2 * r then q + 1 else q + q % 2

/-- The quotient `num / (den * 2 ^ e)` rounded to the nearest natural number. -/
def scaled (num den : Nat) (e : Int) : Nat :=
  if 0 ≤ e then roundDiv num (den * twoTo e.toNat) else roundDiv (num * twoTo (-e).toNat) den

/-- Whether `num / den` is at least `2 ^ e`. -/
def atLeastPower (num den : Nat) (e : Int) : Bool :=
  if 0 ≤ e then den * twoTo e.toNat ≤ num else den ≤ num * twoTo (-e).toNat

def ofFraction (negative : Bool) (num den : Nat) : Binary64 :=
  let guess : Int := (num.log2 : Int) - (den.log2 : Int)
  let top := if atLeastPower num den guess then guess else guess - 1
  let e := max (top - 52) minExponent
  let m := scaled num den e
  let (m, e) := if m = twoTo 53 then (twoTo 52, e + 1) else (m, e)
  if maxExponent < e then .infinite negative else .finite negative m e

/-- The nearest double to `digits * 10 ^ exponent`, where `digits` has `count` digits.
    Far past both ends of the range the answer is known without computing the power. -/
def ofDecimal (negative : Bool) (digits count : Nat) (exponent : Int) : Binary64 :=
  if digits = 0 then .finite negative 0 minExponent
  else if 400 < (count : Int) + exponent then .infinite negative
  else if (count : Int) + exponent < -400 then .finite negative 0 minExponent
  else if 0 ≤ exponent then ofFraction negative (digits * tenTo exponent.toNat) 1
  else ofFraction negative digits (tenTo (-exponent).toNat)

def isPositive : Binary64 → Bool
  | .finite negative m _ => !negative && m != 0
  | .infinite negative => !negative
  | .undefined => false

/-- Whether a double is zero, of either sign. -/
def isZero : Binary64 → Bool
  | .finite _ m _ => m == 0
  | _ => false

end Binary64

end Arabize
