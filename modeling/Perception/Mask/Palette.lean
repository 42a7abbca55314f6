import Perception.Colour.Basic
import Perception.Datum.Number
import Perception.Mask.Basic
import Perception.Random.Generator

set_option autoImplicit false

/-! # Palettes

A palette has one random colour for each class of a mask, all equally transparent. Class `i` takes
its red, green and blue from the low bytes of draws `3 i + 1` to `3 i + 3`, so a class keeps its
colour when classes are added after it, and palettes drawn one after another use consecutive draws.
-/

namespace Perception

/-- How transparent colours are asked to be, from 0 for solid to 1 for clear. -/
inductive Transparency
  | level (x : Float)
  | whole (i : Int)
  | truth (b : Bool)
  /-- Something that is no number. -/
  | unfit

namespace Transparency

def ofDatum : Datum → Transparency
  | .float x => level x
  | .int i => whole i
  | .bool b => truth b
  | _ => unfit

/-- The alpha of colours so transparent: the rest to one, in parts of 255, rounded. -/
def alphaOf (x : Float) : UInt8 :=
  UInt8.ofNat ((Number.truncate? ((1.0 - x) * 255.0 + 0.5)).getD 0).toNat

def alpha : Transparency → Outcome UInt8
  | level x =>
      if 0.0 ≤ x ∧ x ≤ 1.0 then .ok (alphaOf x)
      else .error (.transparencyOutside (Number.text x))
  | whole i =>
      if 0 ≤ i ∧ i ≤ 1 then .ok (alphaOf (if i = 0 then 0.0 else 1.0))
      else .error (.transparencyOutside (Number.intText i))
  | truth b => .ok (alphaOf (if b then 1.0 else 0.0))
  | unfit => .error (.plain .type)

end Transparency

namespace Mask

/-- Colours from draws, three to a colour. -/
def coloursOf (alpha : UInt8) : List UInt32 → List Rgba
  | r :: g :: b :: rest => ⟨r.toUInt8, g.toUInt8, b.toUInt8, alpha⟩ :: coloursOf alpha rest
  | _ => []

/-- One colour for each class, and the generator after them. -/
def palette (m : Mask) (t : Transparency) (g : Random.Generator) :
    Outcome (Array Rgba) × Random.Generator :=
  match t.alpha with
  | .error e => (.error e, g)
  | .ok alpha =>
      let (ws, g) := g.take (3 * m.classes.length)
      (.ok (coloursOf alpha ws).toArray, g)

end Mask

end Perception
