set_option autoImplicit false

/-! # Decimal and hexadecimal digits

Numbers in a text may be written with the decimal digits of any script: each script has ten
consecutive code points, so the code point of its zero says it all. Letters serve as digits only in
ASCII.
-/

namespace Perception.Text

/-- The code points of the digit zero, script by script. -/
def zeroDigits : List Nat := [
  0x30, 0x660, 0x6f0, 0x7c0, 0x966, 0x9e6, 0xa66, 0xae6, 0xb66, 0xbe6, 0xc66, 0xce6, 0xd66,
  0xde6, 0xe50, 0xed0, 0xf20, 0x1040, 0x1090, 0x17e0, 0x1810, 0x1946, 0x19d0, 0x1a80, 0x1a90,
  0x1b50, 0x1bb0, 0x1c40, 0x1c50, 0xa620, 0xa8d0, 0xa900, 0xa9d0, 0xa9f0, 0xaa50, 0xabf0,
  0xff10, 0x104a0, 0x10d30, 0x11066, 0x110f0, 0x11136, 0x111d0, 0x112f0, 0x11450, 0x114d0,
  0x11650, 0x116c0, 0x11730, 0x118e0, 0x11950, 0x11c50, 0x11d50, 0x11da0, 0x16a60, 0x16ac0,
  0x16b50, 0x1d7ce, 0x1d7d8, 0x1d7e2, 0x1d7ec, 0x1d7f6, 0x1e140, 0x1e2f0, 0x1e950, 0x1fbf0]

def decimalDigit? (c : Char) : Option Nat :=
  if c.toNat < 128 then
    if '0' ≤ c ∧ c ≤ '9' then some (c.toNat - 48) else none
  else
    (zeroDigits.find? fun z => z ≤ c.toNat && c.toNat ≤ z + 9).map fun z => c.toNat - z

/-- The value of an ASCII letter as a digit, `a` being ten, in either case. -/
def letterDigit? (c : Char) : Option Nat :=
  if 'a' ≤ c ∧ c ≤ 'z' then some (c.toNat - 87)
  else if 'A' ≤ c ∧ c ≤ 'Z' then some (c.toNat - 55)
  else none

def digit? (base : Nat) (c : Char) : Option Nat :=
  ((decimalDigit? c).orElse fun _ => letterDigit? c).filter (· < base)

/-- The lower-case digit with the given value below 36. -/
def digitChar (n : Nat) : Char :=
  if n < 10 then Char.ofNat (48 + n) else Char.ofNat (87 + n)

/-- The digits of a number in a base, most significant first; `0` for zero. -/
def digitsOf (base n : Nat) : List Char := Nat.toDigits base n

/-- The number that a list of digit values denotes, most significant first. -/
def ofDigitValues (base : Nat) (ds : List Nat) : Nat := ds.foldl (fun n d => n * base + d) 0

end Perception.Text
