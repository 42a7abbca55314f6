import Perception.Image.Basic
import Perception.NdArray.Tensor

set_option autoImplicit false

/-! # Arrays of fractions

Arrays whose elements are fractions of 32 bits, as pictures are turned into before a model sees
them. A smaller array acts on each part of a larger one that it fits: its extents, aligned at the
last one, are those of the larger array or one (`Reals.spread?`).
-/

namespace Perception

/-- A shape and fractions, row by row. -/
structure Reals where
  shape : List Nat
  values : Array Float32

namespace Reals

def toNdArray (a : Reals) : NdArray :=
  ⟨.real 32, a.shape, a.values.map fun x => .float x.toFloat⟩

def ofNdArray (a : NdArray) : Reals :=
  ⟨a.shape, a.elements.map fun d => match d with
    | .float x => x.toFloat32
    | _ => 0.0⟩

/-- The bytes of a pixel that each channel of the mode holds. -/
def channelsOf (m : Mode) (p : Rgba) : List UInt8 :=
  match m with
  | .grey => [p.r]
  | .greyAlpha => [p.r, p.a]
  | .rgb => [p.r, p.g, p.b]
  | _ => [p.r, p.g, p.b, p.a]

/-- A picture as fractions of full brightness, one channel after another. -/
def ofImage (im : Image) : Reals :=
  let count := (channelsOf im.mode Rgba.clear).length
  let plane (c : Nat) : List Float32 := im.pixels.cells.toList.map fun p =>
    ((channelsOf im.mode p).getD c 0).toFloat32 / 255.0
  ⟨[count, im.height, im.width], ((List.range count).flatMap plane).toArray⟩

/-- Where the element of a smaller array stands that acts on the element at `i` of a larger one.
Both shapes are given from the last extent on. -/
def placeIn : List Nat → List Nat → Nat → Nat
  | n :: large, m :: small, i =>
      (if m = 1 then 0 else i % n) + m * placeIn large small (i / n)
  | _, _, _ => 0

/-- Does a smaller array fit a larger one? Both shapes are given from the last extent on. -/
def fits : List Nat → List Nat → Bool
  | _, [] => true
  | [], _ :: _ => false
  | n :: large, m :: small => (m = 1 || m = n) && fits large small

/-- Combines each element with that of a smaller array which acts on it, if that fits. -/
def spread? (f : Float32 → Float32 → Float32) (a b : Reals) : Option Reals :=
  let large := a.shape.reverse
  let small := b.shape.reverse
  if fits large small then
    some { a with
      values := a.values.mapIdx fun i x => f x (b.values.getD (placeIn large small i) 0) }
  else none

/-- An array of one extent as one that acts on whole channels. -/
def perChannel (a : Reals) : Reals :=
  match a.shape with
  | [n] => { a with shape := [n, 1, 1] }
  | _ => a

/-- Takes the means away and divides by the deviations, none of which may be zero. -/
def normalize (mean deviation : Datum) (a : Reals) : Outcome Reals := do
  let m := ofNdArray (← NdArray.tensorOf (some (.real 32)) mean)
  let s := ofNdArray (← NdArray.tensorOf (some (.real 32)) deviation)
  if s.values.any fun x => x == 0.0 then throw (.plain .value)
  match spread? (· - ·) a m.perChannel with
  | none => throw (.plain .runtime)
  | some a =>
      match spread? (· / ·) a s.perChannel with
      | none => throw (.plain .runtime)
      | some a => return a

end Reals

end Perception
