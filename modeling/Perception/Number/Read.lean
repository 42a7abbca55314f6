import Perception.Number.Rounding
import Perception.Text.Blank
import Perception.Text.Digit

set_option autoImplicit false

/-! # Numbers read from a text

Whole and fractional numbers as people type them: blanks around them, underscores between digits,
the decimal digits of any script, and the usual names for infinity and for what is not a number.
-/

namespace Perception.Number

open Perception.Text

/-- The longest decimal text of a whole number that is read. -/
def maxDigits : Nat := 4300

/-- A run of digits of a base, in which single underscores may stand between two digits. Gives the
values of the digits and what follows; `none` if no digit stands first. -/
def digitRun? (base : Nat) : List Char → Option (List Nat × List Char)
  | [] => none
  | [c] => (digit? base c).map fun d => ([d], [])
  | c :: '_' :: rest => do
      let d ← digit? base c
      match digitRun? base rest with
      | some (ds, more) => some (d :: ds, more)
      | none => some ([d], '_' :: rest)
  | c :: c' :: rest => do
      let d ← digit? base c
      match digitRun? base (c' :: rest) with
      | some (ds, more) => some (d :: ds, more)
      | none => some ([d], c' :: rest)

def splitSign : List Char → Bool × List Char
  | '-' :: rest => (true, rest)
  | '+' :: rest => (false, rest)
  | cs => (false, cs)

def baseMark? (base : Nat) : Option Char :=
  if base = 2 then some 'b' else if base = 8 then some 'o' else if base = 16 then some 'x' else none

/-- The text of a number after its optional mark, a zero and the letter of its base, which an
underscore may follow. -/
def dropMark (base : Nat) : List Char → List Char
  | '0' :: x :: rest =>
      if some x.toLower = baseMark? base then (match rest with | '_' :: more => more | _ => rest)
      else '0' :: x :: rest
  | cs => cs

/-- The blanks that may stand around a number, to which the four ASCII separators do not belong. -/
def isMargin (c : Char) : Bool := isBlank c && !(0x1c ≤ c.toNat && c.toNat ≤ 0x1f)

def dropMargins (cs : List Char) : List Char := trimWhile isMargin cs

/-- A whole number, blanks around it allowed. In base 2, 8 and 16 it may carry the mark of its base;
in other bases it has at most `maxDigits` digits. -/
def readInt? (base : Nat) (cs : List Char) : Option Int := do
  let (negative, body) := splitSign (dropMargins cs)
  let body := dropMark base body
  match digitRun? base body with
  | some (ds, []) =>
      if base = 10 ∧ ds.length > maxDigits then none
      else
        let n := ofDigitValues base ds
        some (if negative then -(n : Int) else (n : Int))
  | _ => none

/-- `n · 10 ^ e`, rounded to the nearest floating-point number. Exponents beyond the range of the
format give zero or infinity at once. -/
def ofDecimal (n : Nat) (e : Int) : Float :=
  if n = 0 then 0.0
  else
    let size : Int := (Nat.toDigits 10 n).length + e
    if size > 400 then 1.0 / 0.0
    else if size < -400 then 0.0
    else match e with
      | .ofNat k => Float.ofScientific n false k
      | .negSucc k => Float.ofScientific n true (k + 1)

/-- The exponent part of a number, zero if there is none. -/
def readExponent? : List Char → Option Int
  | [] => some 0
  | c :: rest =>
      if c = 'e' ∨ c = 'E' then
        let (negative, body) := splitSign rest
        match digitRun? 10 body with
        | some (ds, []) =>
            let n := ofDigitValues 10 ds
            some (if negative then -(n : Int) else (n : Int))
        | _ => none
      else none

/-- A number without sign: digits with an optional point and exponent. -/
def readUnsigned? (cs : List Char) : Option Float :=
  match digitRun? 10 cs with
  | some (whole, '.' :: rest) =>
      match digitRun? 10 rest with
      | some (places, tail) =>
          (readExponent? tail).map fun e =>
            ofDecimal (ofDigitValues 10 (whole ++ places)) (e - places.length)
      | none => (readExponent? rest).map fun e => ofDecimal (ofDigitValues 10 whole) e
  | some (whole, tail) => (readExponent? tail).map fun e => ofDecimal (ofDigitValues 10 whole) e
  | none =>
      match cs with
      | '.' :: rest =>
          match digitRun? 10 rest with
          | some (places, tail) =>
              (readExponent? tail).map fun e =>
                ofDecimal (ofDigitValues 10 places) (e - places.length)
          | none => none
      | _ => none

def readFloat? (cs : List Char) : Option Float := do
  let (negative, body) := splitSign (dropMargins cs)
  let name := String.ofList (body.map Char.toLower)
  let x ←
    if name = "inf" ∨ name = "infinity" then some (1.0 / 0.0)
    else if name = "nan" then some (0.0 / 0.0)
    else readUnsigned? body
  some (if negative then -x else x)

end Perception.Number
