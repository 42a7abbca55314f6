import Perception.Number.Power
import Perception.Number.Rounding

set_option autoImplicit false

/-! # The shortest decimal of a floating-point number

Of all decimals that read back as a given floating-point number, the shortest one, and the nearest
among those of that length. The number is `m · 2 ^ q`; the reals that round to it form an interval
around it that contains its ends exactly when `m` is even. For `1, 2, …, 17` digits the two
neighbours of the number on the decimal grid of that many digits are tested against the interval.
-/

namespace Perception.Number

/-- A positive decimal: `coefficient · 10 ^ exponent`. -/
structure Decimal where
  coefficient : Nat
  exponent : Int
  deriving Repr, DecidableEq

/-- The number of decimal digits before the point of `n / d`: the least `k` with `n / d < 10 ^ k`,
which may be negative. Starts from an estimate at most as large and steps up. -/
def magnitudeFrom : Nat → Nat → Nat → Int → Int
  | 0, _, _, k => k
  | fuel + 1, n, d, k =>
      let below : Bool := match k with
        | .ofNat e => n < d * powerOfTen e
        | .negSucc e => n * powerOfTen (e + 1) < d
      if below then k else magnitudeFrom fuel n d (k + 1)

/-- The least `k` with `n / d < 10 ^ k`, for a positive fraction. -/
def magnitude (n d : Nat) : Int :=
  let bits : Int := (n.log2 : Int) - (d.log2 : Int)
  magnitudeFrom 8 n d (Int.fdiv ((bits - 1) * 30103) 100000 - 1)

/-- `n / d` in units of `10 ^ e`, as a fraction. -/
def inUnits (n d : Nat) (e : Int) : Nat × Nat :=
  match e with
  | .ofNat k => (n, d * powerOfTen k)
  | .negSucc k => (n * powerOfTen (k + 1), d)

/-- Does the coefficient `c`, in units in which the number is `n / d`, lie in the interval that
reaches `lo / d` below and `hi / d` above the number? -/
def withinInterval (n d lo hi : Nat) (closed : Bool) (c : Nat) : Bool :=
  let x := c * d
  if x < n then (if closed then n - x ≤ lo else n - x < lo)
  else (if closed then x - n ≤ hi else x - n < hi)

/-- The candidate of `places` digits for the number `m · 2 ^ q`, if one lies in its interval. All
quantities are doubled twice so that halves and quarters of a unit in the last place are whole. -/
def candidate? (m : Nat) (q : Int) (k : Int) (places : Nat) : Option Decimal :=
  let narrow := m = 0x10000000000000 ∧ q ≠ -1074
  let e := k - places
  let (n4, d4) := fraction (4 * m) q
  let (h4, _) := fraction 2 q
  let (l4, _) := fraction (if narrow then 1 else 2) q
  let (n, d) := inUnits n4 (4 * d4) e
  let (hi, _) := inUnits h4 (4 * d4) e
  let (lo, _) := inUnits l4 (4 * d4) e
  let c := n / d
  let closed := m % 2 = 0
  let lower := 0 < c && withinInterval n d lo hi closed c
  let upper := withinInterval n d lo hi closed (c + 1)
  let r := n % d
  if lower && upper then
    if 2 * r < d || (2 * r = d && c % 2 = 0) then some ⟨c, e⟩ else some ⟨c + 1, e⟩
  else if lower then some ⟨c, e⟩
  else if upper then some ⟨c + 1, e⟩
  else none

/-- The candidate with the fewest places from `places` on, of at most `fuel` numbers of places. -/
def shortestFrom (m : Nat) (q : Int) (k : Int) : Nat → Nat → Decimal
  | 0, places => ⟨m, k - places⟩
  | fuel + 1, places => (candidate? m q k places).getD (shortestFrom m q k fuel (places + 1))

/-- The shortest decimal that reads back as the positive number `m · 2 ^ q`. -/
def shortest (m : Nat) (q : Int) : Decimal :=
  let (n, d) := fraction m q
  shortestFrom m q (magnitude n d) 17 1

end Perception.Number
