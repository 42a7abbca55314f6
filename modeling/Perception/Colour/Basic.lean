import Perception.Failure
import Perception.Number.Power

set_option autoImplicit false

/-! # Colours

A colour has four bytes: red, green, blue and how solid it is. The packed form of a colour is the
whole number `0xAARRGGBB`, of which only the low 32 bits count.
-/

namespace Perception

/-- Red, green, blue and alpha, which is 255 for a solid colour and 0 for a clear one. -/
structure Rgba where
  r : UInt8
  g : UInt8
  b : UInt8
  a : UInt8
  deriving DecidableEq, Repr, Inhabited

namespace Rgba

def clear : Rgba := ⟨0, 0, 0, 0⟩

/-- Byte `k` of a whole number in two's complement. -/
def byteOf (k : Nat) (n : Int) : UInt8 :=
  UInt8.ofNat ((n / (Number.powerOfTwo (8 * k) : Int)) % 256).toNat

/-- The colour whose four bytes are those of a number, red lowest. -/
def ofPacked (n : Int) : Rgba := ⟨byteOf 0 n, byteOf 1 n, byteOf 2 n, byteOf 3 n⟩

/-- The colour that the low 32 bits of a packed number name. -/
def ofArgb (n : Int) : Rgba := ⟨byteOf 2 n, byteOf 1 n, byteOf 0 n, byteOf 3 n⟩

def toArgb (c : Rgba) : Nat :=
  c.a.toNat * 0x1000000 + c.r.toNat * 0x10000 + c.g.toNat * 0x100 + c.b.toNat

def toList (c : Rgba) : List UInt8 := [c.r, c.g, c.b, c.a]

end Rgba

namespace Colour

def bitOr : Int → Int → Int
  | .ofNat m, .ofNat n => .ofNat (m ||| n)
  | .ofNat m, .negSucc n => .negSucc (n - (n &&& m))
  | .negSucc m, .ofNat n => .negSucc (m - (m &&& n))
  | .negSucc m, .negSucc n => .negSucc (m &&& n)

/-- Packs components of any size: each is moved to its place and the bits are joined. -/
def pack (r g b a : Int) : Int :=
  bitOr (bitOr (bitOr (a * 0x1000000) (r * 0x10000)) (g * 0x100)) b

/-- Whole numbers and truth values, which bits can be taken of. -/
def bits (d : Datum) : Outcome Int :=
  match d with
  | .int i => .ok i
  | .bool b => .ok (if b then 1 else 0)
  | _ => .error (.plain .type)

/-- Packs the first components of a list: red, green, blue, and alpha if there is one. A text is the
list of its characters, none of which is a number. -/
def packList (d : Datum) : Outcome Int := do
  let items ← match d with
    | .list xs => pure xs
    | .text s => pure (s.toList.map fun _ => Datum.null)
    | _ => throw (.plain .type)
  match items with
  | r :: g :: b :: rest => do
      let a ← match rest with
        | a :: _ => bits a
        | [] => pure 255
      let r ← bits r
      let g ← bits g
      let b ← bits b
      return pack r g b a
  | _ => throw (.plain .value)

def unpack (d : Datum) : Outcome Rgba := (bits d).map Rgba.ofArgb

/-- A byte from any whole number, cut off at the ends of its range. -/
def clip (i : Int) : UInt8 := UInt8.ofNat (max 0 (min 255 i)).toNat

end Colour

end Perception
