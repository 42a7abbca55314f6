import Perception.Image.Drawing

set_option autoImplicit false

/-! # Filled images

An image that has one colour everywhere. The colour is a whole number or a list of components, and
what it means depends on the mode: where a pixel is a single byte, it is a brightness; where a pixel
has several bytes, a lone number holds all of them, the first one lowest (`Image.fillPixel`).
-/

namespace Perception.Image

def numberInk (m : Mode) (n : Int) : Rgba :=
  match m with
  | .grey | .palette | .bilevel => ⟨Colour.clip n, 0, 0, 0⟩
  | .real32 => .ofPacked (Number.ofInt n).toFloat32.toBits.toNat
  | .whole16 => ⟨Rgba.byteOf 0 n, Rgba.byteOf 1 n, 0, 0⟩
  | _ => .ofPacked n

def componentCounts : Mode → List Nat
  | .grey | .palette | .bilevel | .whole32 | .real32 | .whole16 => []
  | .greyAlpha | .paletteAlpha | .greyPremultiplied => [2]
  | _ => [3, 4]

/-- A colour of several components, cut off at the ends of a byte; without alpha it is solid. -/
def componentInk : List Int → Rgba
  | [l, a] => ⟨Colour.clip l, Colour.clip l, Colour.clip l, Colour.clip a⟩
  | [r, g, b] => ⟨Colour.clip r, Colour.clip g, Colour.clip b, 255⟩
  | [r, g, b, a] => ⟨Colour.clip r, Colour.clip g, Colour.clip b, Colour.clip a⟩
  | _ => Rgba.clear

/-- The pixel of a new palette whose first entry is a colour of three or four bytes. -/
def paletteInk (ds : List Datum) : Outcome Rgba := do
  let ns ← ds.mapM Colour.bits
  if ns.length ≠ 3 ∧ ns.length ≠ 4 then throw (.plain .type)
  if ns.any fun n => n < 0 || 255 < n then throw (.plain .value)
  if ns.length = 4 ∧ ns.getLast? ≠ some 255 then throw (.plain .value)
  return Rgba.clear

def fillPixel (m : Mode) (colour : Datum) : Outcome Rgba :=
  let lone (d : Datum) : Outcome Rgba := do
    let n ← Colour.bits d
    if fitsLongWord n then return numberInk m n else throw (.plain .overflow)
  match colour with
  | .null => .ok Rgba.clear
  | .list [d] => lone d
  | .list ds =>
      if m = .palette then paletteInk ds
      else if (componentCounts m).contains ds.length then do
        let ns ← ds.mapM Colour.bits
        if componentsFit ns then return componentInk ns else throw (.plain .overflow)
      else throw (.plain .type)
  | d => lone d

def filled (mode : String) (width height : Int) (colour : Datum) : Outcome Image :=
  if width < 0 ∨ height < 0 then .error (.plain .value)
  else match Mode.ofName? mode with
    | none => .error (.plain .value)
    | some m => (fillPixel m colour).map (blank m width.toNat height.toNat)

end Perception.Image
