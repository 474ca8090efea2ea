import Arabize.Number.Binary64

/-! # The shortest decimal that reads back

The reals that round to a double form an interval, which holds its ends exactly when the
significand is even.  For one, two, … seventeen digits the two decimals next to the
double are tried against the interval; the first count with a hit wins, of two hits the
nearer one, of two equally near the even one.  Everything is exact: interval, grid and
double are brought to one denominator.

`Layout` then fixes how digits and a point become text.
-/

namespace Arabize.Number

/-- A positive decimal: its digits read as a number, how many there are, and the place of
    the point, counted in digits from their left end. -/
structure Decimal where
  digits : Nat
  count : Nat
  point : Int
  deriving DecidableEq, Repr

/-- How many decimal digits a natural number has; zero has none. -/
def digitCount (n : Nat) : Nat := if n = 0 then 0 else digitCount (n / 10) + 1

/-- The integer `p` with `10 ^ (p - 1) ≤ num / den < 10 ^ p`, for a positive fraction. -/
def magnitude (num den : Nat) : Int :=
  if den ≤ num then digitCount (num / den) else 1 - (digitCount ((den - 1) / num) : Int)

/-- The fraction multiplied by a power of ten, which may be negative. -/
def timesPowerOfTen (num den : Nat) (k : Int) : Nat × Nat :=
  if 0 ≤ k then (num * Binary64.tenTo k.toNat, den) else (num, den * Binary64.tenTo (-k).toNat)

/-- The decimal of `n` digits next to `num / den` that lies within `below / den` and
    `above / den` of it (strictly so unless `closed`), if there is one. -/
def nearestOnGrid (num den below above : Nat) (closed : Bool) (p : Int) (n : Nat) :
    Option Decimal :=
  let (scaledNum, scaledDen) := timesPowerOfTen num den ((n : Int) - p)
  let (scaledBelow, _) := timesPowerOfTen below den ((n : Int) - p)
  let (scaledAbove, _) := timesPowerOfTen above den ((n : Int) - p)
  let low := scaledNum / scaledDen
  let gapLow := scaledNum % scaledDen
  let gapHigh := scaledDen - gapLow
  let hitLow := if closed then gapLow ≤ scaledBelow else gapLow < scaledBelow
  let hitHigh := if closed then gapHigh ≤ scaledAbove else gapHigh < scaledAbove
  -- The nearer of the two is taken; of two that are as near, the even one.
  let pickLow := hitLow && (!hitHigh || gapLow < gapHigh || (gapLow == gapHigh && low % 2 == 0))
  if pickLow then some ⟨low, n, p⟩
  else if hitHigh then
    -- Rounding up may carry into one more digit.
    if low + 1 = Binary64.tenTo n then some ⟨Binary64.tenTo (n - 1), n, p + 1⟩
    else some ⟨low + 1, n, p⟩
  else none

/-- The first count of digits from `n` on that has a hit, among the next `fuel` ones. -/
def searchGrids (num den below above : Nat) (closed : Bool) (p : Int) : Nat → Nat → Decimal
  | 0, n => ⟨0, n, p⟩
  | fuel + 1, n =>
    match nearestOnGrid num den below above closed p n with
    | some d => d
    | none => searchGrids num den below above closed p fuel (n + 1)

/-- The shortest decimal that rounds to `m * 2 ^ e`, for a positive significand. -/
def shortest (m : Nat) (e : Int) : Decimal :=
  let closed := m % 2 == 0
  let narrow := m = Binary64.twoTo 52 ∧ Binary64.minExponent < e
  -- in quarters of the unit in the last place, so that every half gap is whole
  let (num, den) :=
    if 0 ≤ e then (4 * m * Binary64.twoTo e.toNat, 4) else (4 * m, 4 * Binary64.twoTo (-e).toNat)
  let unit := if 0 ≤ e then Binary64.twoTo e.toNat else 1
  searchGrids num den (if narrow then unit else 2 * unit) (2 * unit) closed
    (magnitude num den) 17 1

/-- How a decimal is laid out: the range of places of the point that is written without an
    exponent. -/
structure Layout where
  /-- The least place of the point without an exponent. -/
  leastPoint : Int
  /-- The greatest place of the point without an exponent. -/
  greatestPoint : Int
  /-- The texts of positive infinity and of what is not a number. -/
  infinity : Text
  undefined : Text

def zeros (n : Nat) : Text := List.replicate n 0x30

/-- A number in decimal, filled up to a count of digits by leading zeros. -/
def paddedDigits (count n : Nat) : Text :=
  let t := Text.ofNat n
  zeros (count - t.length) ++ t

def Layout.decimal (l : Layout) (d : Decimal) : Text :=
  let ds := paddedDigits d.count d.digits
  let point : Text := "."
  if l.leastPoint ≤ d.point ∧ d.point ≤ l.greatestPoint then
    if d.point ≤ 0 then zeros 1 ++ point ++ zeros (-d.point).toNat ++ ds
    else if (d.count : Int) ≤ d.point then
      ds ++ zeros (d.point - d.count).toNat ++ point ++ zeros 1
    else ds.take d.point.toNat ++ point ++ ds.drop d.point.toNat
  else
    let mantissa := if d.count ≤ 1 then ds else ds.take 1 ++ point ++ ds.drop 1
    let exponent := d.point - 1
    let mark : Text := if exponent < 0 then "e-" else "e+"
    mantissa ++ mark ++ paddedDigits 2 exponent.natAbs

def sign (negative : Bool) : Text := if negative then "-" else ""

/-- A double as text: the shortest digits that read back. -/
def Layout.double (l : Layout) : Binary64 → Text
  | .undefined => l.undefined
  | .infinite negative => sign negative ++ l.infinity
  | .finite negative m e =>
    sign negative ++ (if m = 0 then ("0.0" : Text) else l.decimal (shortest m e))

end Arabize.Number
