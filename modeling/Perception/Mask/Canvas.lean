import Perception.Mask.Drawing

set_option autoImplicit false

/-! # Drawing stroke by stroke

A canvas is an image that is drawn on again and again, with the randomness that palettes come from.
A stroke is one operation on it. Where a stroke fails, the canvas is as the operation leaves it, and
the next stroke goes on from there.
-/

namespace Perception

/-- An image that is drawn on, and the generator of palettes. -/
structure Canvas where
  image : Image
  generator : Random.Generator

inductive Stroke
  | overlay (top : Image)
  | paste (region : ArrayLike) (fill : Image.LooseFill)
  | drawClass (m : Mask) (chosen colour : Datum)
  | draw (m : Mask) (t : Transparency) (background : Mask.Background)

namespace Canvas

/-- Takes over the image that an operation makes, if it makes one. -/
def accept (c : Canvas) : Outcome Image → Canvas × Outcome Unit
  | .ok im => ({ c with image := im }, .ok ())
  | .error e => (c, .error e)

/-- The canvas after a stroke, and whether the stroke succeeded. -/
def apply (c : Canvas) : Stroke → Canvas × Outcome Unit
  | .overlay top => c.accept (c.image.overlay top)
  | .paste region fill => c.accept (c.image.pasteArray region fill)
  | .drawClass m chosen colour => c.accept (m.drawLooseClass c.image chosen colour)
  | .draw m t background =>
      let d := m.draw c.image t background c.generator
      (⟨d.image, d.generator⟩, d.outcome)

/-- What each of some strokes leads to, one after the other. -/
def trace (c : Canvas) : List Stroke → List (Canvas × Outcome Unit)
  | [] => []
  | s :: ss => c.apply s :: trace (c.apply s).1 ss

end Canvas

end Perception
