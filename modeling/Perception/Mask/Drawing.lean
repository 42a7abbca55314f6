import Perception.Image.Drawing
import Perception.Image.OfArray
import Perception.Image.Resample
import Perception.Mask.Palette

set_option autoImplicit false

/-! # Drawing masks

A mask is shown as an image of its own (`Mask.toImage`), highlighted on an image (`Mask.draw`), or
one class at a time (`Mask.drawClass`). Drawing takes place in steps: where a later step fails the
earlier ones stay, so `Mask.draw` gives the image as it is afterwards beside the outcome.
-/

namespace Perception.Mask

/-- The colour of each pixel's class. -/
def layer (m : Mask) (colours : Array Rgba) : Grid Rgba :=
  m.cells.map fun c => colours.getD c Rgba.clear

def toImage (m : Mask) (colours : Array Rgba) : Image := .ofGrid .rgba (m.layer colours)

def imageTransparency : Float := 0.0

def toRandomImage (m : Mask) (t : Transparency) (g : Random.Generator) :
    Outcome Image × Random.Generator :=
  let (colours?, g) := m.palette t g
  (colours?.map m.toImage, g)

/-- The mask as an image, with a table of bytes that has a row for each class. -/
def toImageBy (m : Mask) (table : NdArray) : Outcome Image :=
  let bytes := table.elements.map fun d => UInt8.ofNat (d.int?.getD 0).toNat
  let classAt (x y : Nat) : Nat := (m.cells.get? x y).getD 0
  match table.shape with
  | rows :: rest =>
      if m.cells.cells.any fun c => rows ≤ c then .error (.plain .index)
      else match rest with
        | [] => Image.ofRows m.width m.height 1 fun x y _ => bytes.getD (classAt x y) 0
        | [n] =>
            if n = 1 then .error (.plain .type)
            else Image.ofRows m.width m.height n fun x y c => bytes.getD (classAt x y * n + c) 0
        | _ => .error (.plain .type)
  | [] => .error (.plain .index)

def checkSize (m : Mask) (im : Image) : Outcome Unit :=
  if im.size = m.size then .ok () else .error (.maskSize im.size m.size)

/-- What class 0 is replaced with: nothing, a colour, or an image. -/
inductive Background
  | none
  | fill (f : Image.LooseFill)

/-- The background that a loose value asks for: a whole number is a packed colour. -/
def Background.ofDatum : Datum → Background
  | .null => none
  | .int i => fill (.numbers (.list ((Rgba.ofArgb i).toList.map fun b => .int b.toNat)))
  | .bool b =>
      fill (.numbers (.list ((Rgba.ofArgb (if b then 1 else 0)).toList.map fun b => .int b.toNat)))
  | d => fill (.numbers d)

def backgroundRegion (m : Mask) : Grid Bool := m.cells.map (· == 0)

/-- The colour of each pixel's class, clear for class 0. -/
def foreground (m : Mask) (colours : Array Rgba) : Grid Rgba :=
  m.cells.map fun c => if c = 0 then Rgba.clear else colours.getD c Rgba.clear

/-- The filling in the size of the image. -/
def fitFill (im : Image) : Image.LooseFill → Outcome Image.Fill
  | .picture source => (source.resize .cubic im.width im.height).map .picture
  | f => f.settle im.mode

/-- Highlights every class on an image with the given colours. With a background, the pixels of
class 0 become the background and are not coloured. -/
def drawWith (m : Mask) (im : Image) (colours : Array Rgba) (background : Background) :
    Image × Outcome Unit :=
  match background with
  | .none =>
      match im.overlay (.ofGrid .rgba (m.layer colours)) with
      | .ok drawn => (drawn, .ok ())
      | .error e => (im, .error e)
  | .fill f =>
      match im.overlay (.ofGrid .rgba (m.foreground colours)) with
      | .error e => (im, .error e)
      | .ok drawn =>
          match fitFill drawn f >>= drawn.pasteRegion m.backgroundRegion with
          | .ok filled => (filled, .ok ())
          | .error e => (drawn, .error e)

/-- The outcome of drawing: the image and the generator afterwards, and whether it succeeded. -/
structure Drawn where
  image : Image
  generator : Random.Generator
  outcome : Outcome Unit

def highlightTransparency : Float := 0.5

/-- Highlights every class on an image with random colours. -/
def draw (m : Mask) (im : Image) (t : Transparency) (background : Background)
    (g : Random.Generator) : Drawn :=
  match m.checkSize im with
  | .error e => ⟨im, g, .error e⟩
  | .ok () =>
      match m.palette t g with
      | (.error e, g) => ⟨im, g, .error e⟩
      | (.ok colours, g) =>
          let (im, outcome) := m.drawWith im colours background
          ⟨im, g, outcome⟩

def drawClass (m : Mask) (im : Image) (chosen : Nat → Bool) (c : Rgba) : Outcome Image := do
  m.checkSize im
  im.overlay (.ofGrid .rgba (m.cells.map fun k => if chosen k then c else Rgba.clear))

/-- Which classes equal a loosely given class number? -/
def classChooser (d : Datum) (c : Nat) : Bool := Datum.sameKey d (.int c)

/-- The colour that a loose value names for a class: a packed number, four bytes, or one byte for
all four. -/
def classColour (d : Datum) : Outcome Rgba :=
  match d with
  | .int i => .ok (Rgba.ofArgb i)
  | .bool b => .ok (Rgba.ofArgb (if b then 1 else 0))
  | d => do
      let a ← NdArray.ofNestedAs (.unsigned 8) d
      let bs := a.elements.map fun e => UInt8.ofNat (e.int?.getD 0).toNat
      let at4 (i : Nat) : UInt8 := bs.getD (if bs.size = 1 then 0 else i) 0
      let c : Rgba := ⟨at4 0, at4 1, at4 2, at4 3⟩
      if a.shape = [] ∨ a.shape = [1] ∨ a.shape = [4] ∨ a.shape = [1, 1] ∨ a.shape = [1, 4] then
        return c
      else throw (.plain .value)

/-- The image with one class highlighted, class and colour being given loosely. -/
def drawLooseClass (m : Mask) (im : Image) (chosen colour : Datum) : Outcome Image := do
  m.checkSize im
  let c ← classColour colour
  m.drawClass im (classChooser chosen) c

end Perception.Mask
