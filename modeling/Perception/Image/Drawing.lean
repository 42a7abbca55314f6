import Perception.Image.Basic
import Perception.NdArray.Basic

set_option autoImplicit false

/-! # Drawing on images

Laying one image over another (`Image.overlay`) and replacing the pixels of a region
(`Image.pasteRegion`). Both give the image as it is afterwards and leave the size and the mode as
they are; both refuse images that are not in colour.
-/

namespace Perception.Image

/-- One pixel laid over another in an image of mode `m`: without alpha in the image the overlay's
alpha is a mere weight. -/
def layPixel (m : Mode) (s d : Rgba) : Rgba :=
  match m with
  | .rgba => s.composite d
  | _ => Rgba.blend s.a s d

def checkDrawable (im : Image) : Outcome Unit :=
  if im.mode.isDrawable then .ok () else .error (.notDrawable im.mode.name)

/-- The image with another one, of the same size, laid on top of it. -/
def overlay (im top : Image) : Outcome Image := do
  checkDrawable im
  if h : top.size = im.size then
    let layer := (top.convert .rgba).pixels
    return im.redrawn (Grid.zipWith (layPixel im.mode) layer im.pixels ((size_convert _ top).trans h))
  else throw (.overlaySize top.size im.size)

inductive Fill
  | colour (c : Rgba)
  | picture (im : Image)

/-- The image with the pixels of a region replaced, each by the colour or by the pixel that the
filling image has there. -/
def fillRegion (im : Image) (region : Grid Bool) (fill : Fill) (h : region.size = im.size) :
    Outcome Image :=
  match fill with
  | .colour c =>
      .ok (im.redrawn (Grid.zipWith (fun chosen p => if chosen then c else p) region im.pixels h))
  | .picture source =>
      if hs : source.size = im.size then
        let chosen := Grid.zipWith (fun c p => (c, p)) region (source.convert im.mode).pixels
          (h.trans (hs.symm.trans (size_convert im.mode source).symm))
        .ok (im.redrawn (Grid.zipWith (fun (c, s) p => if c then s else p) chosen im.pixels h))
      else .error (.fillSize source.size im.size)

/-- The image with the pixels of a region replaced. -/
def pasteRegion (im : Image) (region : Grid Bool) (fill : Fill) : Outcome Image := do
  checkDrawable im
  if h : region.size = im.size then fillRegion im region fill h
  else throw (.regionShape [region.height, region.width] im.size)

/-- A filling given loosely: an image, or the numbers of a colour. -/
inductive LooseFill
  | picture (im : Image)
  | numbers (d : Datum)

/-- The components that a loose value lists: the items of a list, the characters of a text, the keys
of a record. -/
def components (d : Datum) : Outcome (List Datum) :=
  match d with
  | .list xs => .ok xs
  | .text s => .ok (s.toList.map fun c => .text (String.singleton c))
  | .record es => .ok (es.map Prod.fst)
  | _ => .error (.plain .type)

/-- Does a whole number fit in 32 bits, as the later components of a colour must? -/
def fitsWord (i : Int) : Bool := -0x80000000 ≤ i && i < 0x80000000

/-- Does a whole number fit in 64 bits, as the first component of a colour must? -/
def fitsLongWord (i : Int) : Bool := -0x8000000000000000 ≤ i && i < 0x8000000000000000

def componentsFit : List Int → Bool
  | [] => true
  | first :: rest => fitsLongWord first && rest.all fitsWord

/-- The colour that whole numbers name on an image of mode `m`: three or four components, cut off at
the ends of a byte, or a single number that packs all four from its low byte up. An image without
alpha looks at three only. -/
def inkOf (m : Mode) (components : List Int) : Outcome Rgba :=
  let components := if components.length = 3 then components ++ [255] else components
  let components := if m = .rgba then components else components.take 3
  let fitting (c : Rgba) : Outcome Rgba :=
    if componentsFit components then .ok c else .error (.plain .overflow)
  match components with
  | [n] => fitting (.ofPacked n)
  | [r, g, b] => fitting ⟨Colour.clip r, Colour.clip g, Colour.clip b, 255⟩
  | [r, g, b, a] => fitting ⟨Colour.clip r, Colour.clip g, Colour.clip b, Colour.clip a⟩
  | _ => .error (.plain .type)

def LooseFill.settle (m : Mode) : LooseFill → Outcome Fill
  | picture im => .ok (.picture im)
  | numbers d => do
      let items ← components d
      let ints ← items.mapM Datum.toInt
      (inkOf m ints).map .colour

/-- The image with the pixels of a region replaced, where the region is an array whose elements
count as chosen or not and the filling is given loosely. -/
def pasteArray (im : Image) (region : ArrayLike) (fill : LooseFill) : Outcome Image := do
  checkDrawable im
  let a ← region.toNdArrayAs .bool
  let refuse : Outcome Image := throw (.regionShape a.shape im.size)
  if a.shape = [im.height, im.width] then
    match Grid.ofArray? im.width im.height (a.elements.map Datum.isTruthy) with
    | some g => do
        let f ← match fill with
          | .picture source =>
              if source.size = im.size then pure (.picture source)
              else throw (.fillSize source.size im.size)
          | f => f.settle im.mode
        pasteRegion im g f
    | none => refuse
  else refuse

end Perception.Image
