import Perception.Number.Power
import Perception.Number.Shortest

set_option autoImplicit false

/-! # Written numbers

The three ways in which a floating-point number is written: the shortest text that reads back
(`Number.text`), six significant digits (`Number.general`) and a fixed number of places
(`Number.fixed`).
-/

namespace Perception.Number

def digitChars (n : Nat) : List Char := Nat.toDigits 10 n

def intChars (i : Int) : List Char :=
  if i < 0 then '-' :: digitChars i.natAbs else digitChars i.natAbs

def dropZeros (ds : List Char) : List Char := (ds.reverse.dropWhile (· = '0')).reverse

/-- An exponent with its sign and at least two digits. -/
def exponentChars (e : Int) : List Char :=
  let ds := digitChars e.natAbs
  (if e < 0 then '-' else '+') :: (if ds.length < 2 then '0' :: ds else ds)

/-- The digits `ds` of `0.ds · 10 ^ point`, written with an exponent. -/
def scientificChars (ds : List Char) (point : Int) : List Char :=
  match ds with
  | [] => []
  | d :: rest => d :: (if rest.isEmpty then [] else '.' :: rest) ++ 'e' :: exponentChars (point - 1)

/-- The digits `ds` of `0.ds · 10 ^ point`, written with a point; `whole` is what follows the digits
of a whole number. -/
def positionalChars (whole : List Char) (ds : List Char) (point : Int) : List Char :=
  if point ≤ 0 then '0' :: '.' :: List.replicate (-point).toNat '0' ++ ds
  else
    let p := point.toNat
    if ds.length ≤ p then ds ++ List.replicate (p - ds.length) '0' ++ whole
    else ds.take p ++ '.' :: ds.drop p

/-- A number in the shortest form that reads back: with a point if the first digit stands at
`10 ^ -4` to `10 ^ 15`, else with an exponent; whole numbers end in `.0`. -/
def chars (x : Float) : List Char :=
  match parts x with
  | .nan => ['n', 'a', 'n']
  | .infinite negative => (if negative then ['-'] else []) ++ ['i', 'n', 'f']
  | .finite negative m q =>
      let body :=
        if m = 0 then ['0', '.', '0']
        else
          let dec := shortest m q
          let full := digitChars dec.coefficient
          let point := dec.exponent + full.length
          let ds := dropZeros full
          if -4 < point ∧ point ≤ 16 then positionalChars ['.', '0'] ds point
          else scientificChars ds point
      if negative then '-' :: body else body

/-- A number in the shortest form that reads back. -/
def text (x : Float) : String := String.ofList (chars x)

def intText (i : Int) : String := String.ofList (intChars i)

/-- `n / d` rounded to `places` significant digits, with the number of digits before the point. -/
def significant (places : Nat) (n d : Nat) : Nat × Int :=
  let k := magnitude n d
  let (a, b) := inUnits n d (k - places)
  let c := roundHalfEven a b
  if c = powerOfTen places then (powerOfTen (places - 1), k + 1) else (c, k)

/-- A number to six significant digits without zeros at the end, with an exponent if that is below
`-4` or above `5`. -/
def general (x : Float) : String :=
  match parts x with
  | .nan => "nan"
  | .infinite negative => if negative then "-inf" else "inf"
  | .finite negative m q =>
      let body :=
        if m = 0 then ['0']
        else
          let (n, d) := fraction m q
          let (c, point) := significant 6 n d
          let ds := dropZeros (digitChars c)
          if -4 < point ∧ point ≤ 6 then positionalChars [] ds point else scientificChars ds point
      String.ofList (if negative then '-' :: body else body)

/-- A number with the given number of places after the point, a half to the even neighbour. -/
def fixed (places : Nat) (x : Float) : String :=
  match parts x with
  | .nan => "nan"
  | .infinite negative => if negative then "-inf" else "inf"
  | .finite negative m q =>
      let (n, d) := fraction m q
      let c := roundHalfEven (n * powerOfTen places) d
      let ds := digitChars c
      let ds := List.replicate (places + 1 - ds.length) '0' ++ ds
      let body := ds.take (ds.length - places) ++ '.' :: ds.drop (ds.length - places)
      String.ofList (if negative then '-' :: body else body)

end Perception.Number
