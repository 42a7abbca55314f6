import Perception.Number.Power

set_option autoImplicit false

/-! # Exact rounding

Quotients of natural numbers rounded to the nearest whole number, and binary floating-point numbers
taken apart into a sign, a whole number and a power of two, so that rounding is exact arithmetic.
-/

namespace Perception.Number

/-- `num / den` to the nearest whole number, a half to the even one. -/
def roundHalfEven (num den : Nat) : Nat :=
  let q := num / den
  let r := num % den
  if 2 * r < den then q
  else if den < 2 * r then q + 1
  else if q % 2 = 0 then q else q + 1

/-- What a binary floating-point number is: not a number, infinite, or `± m · 2 ^ q`. -/
inductive Parts
  | nan
  | infinite (negative : Bool)
  | finite (negative : Bool) (m : Nat) (q : Int)
  deriving Repr, DecidableEq

/-- The parts of a number of 52 fraction bits. -/
def parts (x : Float) : Parts :=
  let bits := x.toBits.toNat
  let negative := bits ≥ 0x8000000000000000
  let e : Nat := bits / 0x10000000000000 % 2048
  let f := bits % 0x10000000000000
  if e = 2047 then (if f = 0 then .infinite negative else .nan)
  else if e = 0 then .finite negative f (-1074)
  else .finite negative (f + 0x10000000000000) ((e : Int) - 1075)

def fraction (m : Nat) (q : Int) : Nat × Nat :=
  match q with
  | .ofNat k => (m * powerOfTwo k, 1)
  | .negSucc k => (m, powerOfTwo (k + 1))

/-- The whole part of a finite number, towards zero. -/
def truncate? (x : Float) : Option Int :=
  match parts x with
  | .finite negative m q =>
      let (n, d) := fraction m q
      some (if negative then -((n / d : Nat) : Int) else ((n / d : Nat) : Int))
  | _ => none

/-- Position of a number in the order of the reals, `none` for a number that is not one. Zero has
one position whatever its sign. -/
def orderKey? (x : Float) : Option Int :=
  let bits := x.toBits.toNat
  if bits / 0x10000000000000 % 2048 = 2047 ∧ bits % 0x10000000000000 ≠ 0 then none
  else if bits < 0x8000000000000000 then some (bits : Int)
  else some (-((bits - 0x8000000000000000 : Nat) : Int))

/-- The nearest floating-point number to a whole number, infinite if it is out of range. -/
def ofInt (i : Int) : Float :=
  if i.natAbs ≥ powerOfTwo 1025 then (if i < 0 then -(1.0 / 0.0) else 1.0 / 0.0)
  else if i < 0 then -(Float.ofNat i.natAbs) else Float.ofNat i.natAbs

/-- Is a whole number too large for the floating-point range once rounded? -/
def exceedsFloat (i : Int) : Bool := powerOfTwo 1024 - powerOfTwo 970 ≤ i.natAbs

end Perception.Number
