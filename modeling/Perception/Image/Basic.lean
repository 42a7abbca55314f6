import Perception.Colour.Blend
import Perception.Image.Grid
import Perception.Number.Power
import Perception.Text.Utf8

set_option autoImplicit false

/-! # Images

An image is a grid of pixels in some mode. Every pixel has four slots; a mode that stores fewer of
them keeps the others at fixed values (`Mode.canon`), which are those the pixel has as a colour:
grey pixels have equal red, green and blue, and pixels without alpha are solid. So converting a grey
or colour image to full colour leaves its pixels as they are. The modes that cannot be drawn on or
read only occur as they were made; their slots hold the bytes they store.
-/

namespace Perception

/-- What the bytes of a pixel mean. -/
inductive Mode
  | grey
  | greyAlpha
  | rgb
  | rgba
  | bilevel
  | palette
  | paletteAlpha
  | rgbPadded
  | cmyk
  | ycbcr
  | lab
  | hsv
  | greyPremultiplied
  | rgbPremultiplied
  | whole32
  | real32
  | whole16
  deriving DecidableEq, Repr

namespace Mode

def name : Mode → String
  | grey => "L"
  | greyAlpha => "LA"
  | rgb => "RGB"
  | rgba => "RGBA"
  | bilevel => "1"
  | palette => "P"
  | paletteAlpha => "PA"
  | rgbPadded => "RGBX"
  | cmyk => "CMYK"
  | ycbcr => "YCbCr"
  | lab => "LAB"
  | hsv => "HSV"
  | greyPremultiplied => "La"
  | rgbPremultiplied => "RGBa"
  | whole32 => "I"
  | real32 => "F"
  | whole16 => "I;16"

def all : List Mode :=
  [grey, greyAlpha, rgb, rgba, bilevel, palette, paletteAlpha, rgbPadded, cmyk, ycbcr, lab, hsv,
    greyPremultiplied, rgbPremultiplied, whole32, real32, whole16]

def ofName? (s : String) : Option Mode := all.find? fun m => m.name = s

/-- Fills the slots that a mode does not store. -/
def canon (m : Mode) (p : Rgba) : Rgba :=
  match m with
  | grey => ⟨p.r, p.r, p.r, 255⟩
  | greyAlpha => ⟨p.r, p.r, p.r, p.a⟩
  | rgb => ⟨p.r, p.g, p.b, 255⟩
  | _ => p

@[simp] theorem canon_canon (m : Mode) (p : Rgba) : m.canon (m.canon p) = m.canon p := by
  cases m <;> rfl

def isDrawable (m : Mode) : Bool := m = rgb || m = rgba

def hasAlpha (m : Mode) : Bool := m = rgba || m = greyAlpha

def takesKey (m : Mode) : Bool := m = grey || m = rgb || m = bilevel

/-- The bytes a pixel of the mode is stored in. -/
def stored (m : Mode) (p : Rgba) : List UInt8 :=
  match m with
  | grey | palette => [p.r]
  | greyAlpha | greyPremultiplied | paletteAlpha => [p.r, p.a]
  | rgb | ycbcr | hsv => [p.r, p.g, p.b]
  | lab => [p.r, p.g ^^^ 0x80, p.b ^^^ 0x80]
  | whole16 => [p.r, p.g]
  | bilevel => [p.r]
  | rgba | rgbPadded | cmyk | rgbPremultiplied | whole32 | real32 => [p.r, p.g, p.b, p.a]

end Mode

/-- A grid of pixels in a mode, with the slots that the mode does not store at fixed values. Of what
a file says of a picture beside that only the key is kept: the colour, alpha apart, whose pixels turn
clear when the image is given an alpha channel. -/
structure Image where
  mode : Mode
  pixels : Grid Rgba
  canonical : ∀ p ∈ pixels.cells, mode.canon p = p
  key : Option Rgba
  keyed : mode.takesKey = false → key = none

namespace Image

/-- The image of a mode with the given pixels, as far as the mode stores them. It has no key. -/
def ofGrid (m : Mode) (g : Grid Rgba) : Image where
  mode := m
  pixels := g.map m.canon
  canonical := by
    intro p hp
    simp only [Grid.map, Array.mem_map] at hp
    obtain ⟨q, _, rfl⟩ := hp
    exact m.canon_canon q
  key := none
  keyed _ := rfl

/-- The image with other pixels. Its mode and its key stay. -/
def redrawn (im : Image) (g : Grid Rgba) : Image :=
  { ofGrid im.mode g with key := im.key, keyed := im.keyed }

def width (im : Image) : Nat := im.pixels.width

def height (im : Image) : Nat := im.pixels.height

def size (im : Image) : Size := im.pixels.size

@[simp] theorem mode_ofGrid (m : Mode) (g : Grid Rgba) : (ofGrid m g).mode = m := rfl

@[simp] theorem size_ofGrid (m : Mode) (g : Grid Rgba) : (ofGrid m g).size = g.size := rfl

@[simp] theorem key_ofGrid (m : Mode) (g : Grid Rgba) : (ofGrid m g).key = none := rfl

@[simp] theorem mode_redrawn (im : Image) (g : Grid Rgba) : (im.redrawn g).mode = im.mode := rfl

@[simp] theorem size_redrawn (im : Image) (g : Grid Rgba) : (im.redrawn g).size = g.size := rfl

@[simp] theorem key_redrawn (im : Image) (g : Grid Rgba) : (im.redrawn g).key = im.key := rfl

def blank (m : Mode) (width height : Nat) (p : Rgba) : Image :=
  ofGrid m (Grid.replicate width height p)

/-- How bright a colour is: red, green and blue count 299, 587 and 114 parts in a thousand. -/
def brightness (p : Rgba) : UInt8 :=
  UInt8.ofNat ((p.r.toNat * 19595 + p.g.toNat * 38470 + p.b.toNat * 7471 + 0x8000) >>> 16)

/-- A pixel of an ink mode as a colour: each ink takes away from white, and black from all. -/
def ofInks (p : Rgba) : Rgba :=
  let light (c : UInt8) : UInt8 :=
    let k := 255 - p.a.toNat
    Colour.clip ((k : Int) - (div255 (c.toNat * k) : Nat))
  ⟨light p.r, light p.g, light p.b, 255⟩

/-- The four bytes of a pixel as one number, the first byte lowest. -/
def word (p : Rgba) : Nat := Bytes.toNatLE p.toList

/-- A fraction as a brightness, cut off at the ends of a byte. -/
def brightnessOfReal (x : Float32) : UInt8 := if x ≥ 255.0 then 255 else x.toUInt8

def greyPixel (l : UInt8) : Rgba := ⟨l, l, l, 255⟩

/-- A pixel of a mode as a colour. Palettes are black throughout. -/
def colourOf (m : Mode) (p : Rgba) : Rgba :=
  match m with
  | .grey | .greyAlpha | .rgb | .rgba => p
  | .bilevel => greyPixel p.r
  | .palette => greyPixel 0
  | .paletteAlpha => ⟨0, 0, 0, p.a⟩
  | .cmyk => ofInks p
  | .greyPremultiplied => ⟨p.r, p.r, p.r, p.a⟩
  | .rgbPremultiplied => p.unpremultiply
  | .whole32 => greyPixel (Colour.clip (Int.bmod (word p) 0x100000000))
  | .real32 => greyPixel (brightnessOfReal (Float32.ofBits (UInt32.ofNat (word p))))
  | .whole16 => greyPixel (if p.g = 0 then p.r else 255)
  | _ => { p with a := 255 }

def isKeyed (im : Image) (c : Rgba) : Bool :=
  im.key.any fun k => c.r = k.r && c.g = k.g && c.b = k.b

/-- A pixel of the image as a colour with alpha. Pixels in the colour of the key are clear. -/
def fullColour (im : Image) (p : Rgba) : Rgba :=
  let c := colourOf im.mode p
  if im.isKeyed c then { c with a := 0 } else c

/-- The key of the image in another mode, if that takes one. -/
def keyIn (m : Mode) (im : Image) : Option Rgba :=
  if m.takesKey then im.key.map fun k => if m = .grey then greyPixel (brightness k) else k
  else none

theorem keyIn_eq_none {m : Mode} (h : m.takesKey = false) (im : Image) : im.keyIn m = none := by
  rw [keyIn, h, if_neg Bool.false_ne_true]

def convert (m : Mode) (im : Image) : Image :=
  if im.mode = m then im
  else
    let colour (p : Rgba) : Rgba :=
      let c := im.fullColour p
      if (m = .grey ∨ m = .greyAlpha) ∧ ¬(im.mode = .grey ∨ im.mode = .greyAlpha) then
        { c with r := brightness c }
      else c
    { ofGrid m (im.pixels.map colour) with
      key := im.keyIn m
      keyed := fun h => keyIn_eq_none h im }

@[simp] theorem mode_convert (m : Mode) (im : Image) : (im.convert m).mode = m := by
  unfold convert
  split
  · assumption
  · rfl

@[simp] theorem size_convert (m : Mode) (im : Image) : (im.convert m).size = im.size := by
  unfold convert
  split <;> rfl

/-- Eight two-level pixels to a byte, each row starting a new one; the first pixel is on top. -/
def packBits : Nat → List UInt8 → Bytes
  | 0, _ => []
  | _, [] => []
  | fuel + 1, row =>
      let byte := (row.take 8).zipIdx.foldl
        (fun n (c, i) => if c = 0 then n else n + Number.powerOfTwo (7 - i)) 0
      UInt8.ofNat byte :: packBits fuel (row.drop 8)

def bytes (im : Image) : Bytes :=
  match im.mode with
  | .bilevel => im.pixels.rows.flatMap fun row => packBits row.length (row.map Rgba.r)
  | m => im.pixels.cells.toList.flatMap m.stored

/-- The pixels that row-major bytes stand for, a number of them for each pixel. -/
def pixelsOfBytes : Nat → Mode → Bytes → List Rgba
  | 0, _, _ => []
  | fuel + 1, m, bs =>
      match m, bs with
      | .grey, l :: rest => ⟨l, l, l, 255⟩ :: pixelsOfBytes fuel m rest
      | .greyAlpha, l :: a :: rest => ⟨l, l, l, a⟩ :: pixelsOfBytes fuel m rest
      | .rgb, r :: g :: b :: rest => ⟨r, g, b, 255⟩ :: pixelsOfBytes fuel m rest
      | .rgba, r :: g :: b :: a :: rest => ⟨r, g, b, a⟩ :: pixelsOfBytes fuel m rest
      | _, _ => []

/-- The image of a mode and size whose row-major bytes are given, `none` if their number does not
fit. -/
def ofBytes? (m : Mode) (width height : Nat) (bs : Bytes) : Option Image :=
  (Grid.ofArray? width height (pixelsOfBytes (width * height) m bs).toArray).map (ofGrid m)

end Image

end Perception
