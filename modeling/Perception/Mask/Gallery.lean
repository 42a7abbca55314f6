import Perception.Mask.Plot

set_option autoImplicit false

/-! # Images that are changed in place

Images are kept at places, and one that is drawn on is changed where it is kept. The image that
replaces class 0 of a mask may be a kept one, the one that is drawn on among them: it is looked at
when the other classes are highlighted already (`Gallery.draw`). A plot is drawn on a copy, which is
kept at a place of its own (`Gallery.plot`).
-/

namespace Perception

/-- Images, each kept at its place, and the generator that colours are drawn from. -/
structure Gallery where
  images : List Image
  generator : Random.Generator

/-- Computations in a gallery, which may fail. What they changed before failing stays changed. -/
abbrev GalleryM := ExceptT Failure (StateM Gallery)

namespace Gallery

def image (place : Nat) : GalleryM Image := fun s =>
  match s.images[place]? with
  | some im => (.ok im, s)
  | none => (.error (.plain .index), s)

/-- Keeps one more image, and gives its place. -/
def keep (im : Image) : GalleryM Nat := fun s =>
  (.ok s.images.length, { s with images := s.images ++ [im] })

def change (place : Nat) (f : Image → Outcome Image) : GalleryM Unit := do
  match f (← image place) with
  | .ok w => modify fun s => { s with images := s.images.set place w }
  | .error e => throw e

def palette (m : Mask) (t : Transparency) : GalleryM (Array Rgba) := fun s =>
  let (colours, g) := m.palette t s.generator
  (colours, { s with generator := g })

/-- What class 0 is replaced with: nothing, something that is handed over, or the image at a
place. -/
inductive Background
  | none
  | given (f : Image.LooseFill)
  | kept (place : Nat)

/-- Replaces the places of class 0. -/
def paste (m : Mask) (place : Nat) (f : Image.LooseFill) : GalleryM Unit :=
  change place fun im => Mask.fitFill im f >>= im.pasteRegion m.backgroundRegion

/-- Highlights all classes but the first, and replaces the places of class 0 with what is there to
replace them with by then. -/
def drawFilled (m : Mask) (place : Nat) (colours : Array Rgba) (filling : GalleryM Image.LooseFill) :
    GalleryM Unit := do
  change place fun im => im.overlay (.ofGrid .rgba (m.foreground colours))
  paste m place (← filling)

def draw (m : Mask) (place : Nat) (t : Transparency) (background : Background) :
    GalleryM Unit := do
  if let .error e := m.checkSize (← image place) then throw e
  let colours ← palette m t
  match background with
  | .none => change place fun im => im.overlay (.ofGrid .rgba (m.layer colours))
  | .given f => drawFilled m place colours (pure f)
  | .kept source => drawFilled m place colours (return .picture (← image source))

/-- Plots a mask on the image at a place, and gives the place of the canvas. -/
def plot (m : Mask) (place : Nat) (t : Transparency) : GalleryM Nat := do
  let colours ← palette m t
  let canvas ← keep ((← image place).convert .rgba)
  change canvas fun im => .ok (Plot.canvasOf im (m.layer colours))
  return canvas

end Gallery

end Perception
