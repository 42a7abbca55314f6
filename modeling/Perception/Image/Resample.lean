import Perception.Image.Basic
import Perception.Number.Rounding

set_option autoImplicit false

/-! # Images of another size

An image is brought to another size in two passes, along the rows and then along the columns; a pass
that changes no extent is left out. Each new pixel is a weighted sum of the pixels around its place,
with weights of 22 fractional bits, rounded to bytes after each pass. Colours with alpha are weighed
by how solid they are.
-/

namespace Perception.Image

/-- A weighing function: how far it reaches and what weight it gives at a distance. -/
structure Kernel where
  reach : Float
  weight : Float → Float

def Kernel.linear : Kernel :=
  ⟨1.0, fun x => let x := x.abs; if x < 1.0 then 1.0 - x else 0.0⟩

/-- Weights of a cubic curve that dips below zero on both sides. -/
def Kernel.cubic : Kernel :=
  ⟨2.0, fun x =>
    let x := x.abs
    if x < 1.0 then ((-0.5 + 2.0) * x - (-0.5 + 3.0)) * x * x + 1.0
    else if x < 2.0 then (((x - 5.0) * x + 8.0) * x - 4.0) * -0.5
    else 0.0⟩

/-- The whole part of a number, zero for what has none. -/
def whole (x : Float) : Int := (Number.truncate? x).getD 0

/-- A weight in units of `2 ^ -22`, a half away from zero. -/
def fixedWeight (w : Float) : Int :=
  if w < 0.0 then whole (-0.5 + w * 4194304.0) else whole (0.5 + w * 4194304.0)

/-- The first old place that new place `x` draws on, and the weights from there on, when `old`
places become `new` ones. -/
def taps (k : Kernel) (old new x : Nat) : Nat × Array Int :=
  let scale := Float.ofNat old / Float.ofNat new
  let stretch := if scale < 1.0 then 1.0 else scale
  let support := k.reach * stretch
  let center := (Float.ofNat x + 0.5) * scale
  let shrink := 1.0 / stretch
  let first := (max 0 (whole (center - support + 0.5))).toNat
  let last := (min (old : Int) (whole (center + support + 0.5))).toNat
  let ws := (List.range (last - first)).map fun i =>
    k.weight ((Float.ofNat (i + first) - center + 0.5) * shrink)
  let total := ws.foldl (· + ·) 0.0
  let ws := if total == 0.0 then ws else ws.map (· / total)
  (first, (ws.map fixedWeight).toArray)

/-- A sum of bytes with weights in units of `2 ^ -22`, rounded to a byte. -/
def settleSum (s : Int) : UInt8 := Colour.clip ((s + 0x200000) / 0x400000)

/-- The weighted sum of the pixels that `at` gives for consecutive places. -/
def weighted (pixel : Nat → Rgba) (first : Nat) (ws : Array Int) : Rgba :=
  let step (acc : (Int × Int) × (Int × Int)) (i : Nat) : (Int × Int) × (Int × Int) :=
    let w := ws.getD i 0
    let p := pixel (first + i)
    ((acc.1.1 + w * p.r.toNat, acc.1.2 + w * p.g.toNat),
      (acc.2.1 + w * p.b.toNat, acc.2.2 + w * p.a.toNat))
  let s := (List.range ws.size).foldl step ((0, 0), (0, 0))
  ⟨settleSum s.1.1, settleSum s.1.2, settleSum s.2.1, settleSum s.2.2⟩

def stretchRows (k : Kernel) (width : Nat) (g : Grid Rgba) : Grid Rgba :=
  if width = g.width then g
  else
    let table := ((List.range width).map (taps k g.width width)).toArray
    Grid.ofFn width g.height fun x y =>
      let (first, ws) := table.getD x (0, #[])
      weighted (fun i => g.cells.getD (y * g.width + i) Rgba.clear) first ws

def stretchColumns (k : Kernel) (height : Nat) (g : Grid Rgba) : Grid Rgba :=
  if height = g.height then g
  else
    let table := ((List.range height).map (taps k g.height height)).toArray
    Grid.ofFn g.width height fun x y =>
      let (first, ws) := table.getD y (0, #[])
      weighted (fun i => g.cells.getD (i * g.width + x) Rgba.clear) first ws

/-- The image in another size, which must have places. An image without places becomes one of zero
bytes. -/
def resize (k : Kernel) (width height : Nat) (im : Image) : Outcome Image :=
  if im.size = (width, height) then .ok im
  else if width = 0 ∨ height = 0 then .error (.plain .value)
  else
    let passes (g : Grid Rgba) : Grid Rgba := stretchColumns k height (stretchRows k width g)
    if im.mode = .rgba ∨ im.mode = .greyAlpha then
      .ok (im.redrawn ((passes (im.pixels.map Rgba.premultiply)).map Rgba.unpremultiply))
    else .ok (im.redrawn (passes im.pixels))

end Perception.Image
