import Perception.Failure
import Perception.Number.Read
import Perception.Text.Blank
import Perception.Colour.Basic

set_option autoImplicit false

/-! # Written colours

A colour is written with six or eight hexadecimal digits, after one of two marks or none. With six
digits it is solid.
-/

namespace Perception.Colour

/-- A character in lower case. Of other letters than the ASCII ones only their number matters, and
one of them has two characters in lower case. -/
def lower (c : Char) : List Char :=
  if c = Char.ofNat 0x130 then ['i', Char.ofNat 0x307] else [c.toLower]

def dropMark (mark cs : List Char) : List Char := (Text.after? mark cs).getD cs

/-- The alpha of a solid colour in a packed one. -/
def solid : Int := 0xFF000000

/-- The digits of a written colour: blanks and marks are cut off. -/
def digitsOf (written : String) : List Char :=
  dropMark ['0', 'x'] (dropMark ['#'] ((Text.trim written.toList).flatMap lower))

def read (written : String) : Outcome Int :=
  let digits := digitsOf written
  if digits.length ≠ 6 ∧ digits.length ≠ 8 then .error (.colourLength written)
  else match Number.readInt? 16 digits with
    | none => .error (.colourDigits written)
    | some n => .ok (if digits.length = 6 then bitOr n solid else n)

end Perception.Colour
