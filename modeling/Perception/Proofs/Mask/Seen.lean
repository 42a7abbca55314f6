import Perception.Proofs.Image.Places
import Perception.Proofs.Mask.Background

set_option autoImplicit false

/-! # What is seen of a mask

Every pixel of a mask that is drawn on an image in full colour: the colour of its class laid over
the image, or the background in the places of class 0 (`Mask.drawWith_seen`). In random colours
these follow from the generator, the number of classes and the transparency (`Mask.draw_seen`).
-/

namespace Perception.Mask

open Image

/-- What is seen where a class is drawn on a pixel: its colour laid over the pixel, or the
background, if there is one and the class is the first. -/
def seen (colours : Array Rgba) (background : Option Rgba) (c : Nat) (p : Rgba) : Rgba :=
  match background with
  | some b => if c = 0 then b else (colours.getD c Rgba.clear).composite p
  | none => (colours.getD c Rgba.clear).composite p

/-- A background that is given as a colour, if there is one. -/
def Background.ofColour (background : Option Rgba) : Background :=
  background.elim .none fun b => .ofDatum b.toDatum

variable {m : Mask} {im w : Image} {x y c : Nat} {p : Rgba}

/-- What the image under a layer has at a place. -/
theorem get?_shade (hmode : im.mode = .rgba) (h : im.size = m.size) (f : Nat → Rgba)
    (hc : m.cells.get? x y = some c) (hp : im.pixels.get? x y = some p) :
    (m.shade im h f).pixels.get? x y = some ((f c).composite p) := by
  rw [m.pixels_shade hmode h h.symm]
  exact Grid.get?_zipWith hc hp

/-- What an image has at a place once a region is replaced by a colour. -/
theorem get?_pasteRegion_colour {region : Grid Bool} {b : Rgba} {chosen : Bool}
    (hmode : im.mode = .rgba) (hpasted : im.pasteRegion region (.colour b) = .ok w)
    (hchosen : region.get? x y = some chosen) (hp : im.pixels.get? x y = some p) :
    w.pixels.get? x y = some (if chosen then b else p) := by
  obtain ⟨-, -, -, hpixel⟩ := pasteRegion_spec hpasted
  rw [hpixel, hchosen, hp, Fill.at?, hmode]
  cases chosen <;> rfl

/-- **What is seen of a mask** on an image in full colour. -/
theorem drawWith_seen (hmode : im.mode = .rgba) (h : im.size = m.size) (colours : Array Rgba)
    (background : Option Rgba) :
    ∃ w, m.drawWith im colours (.ofColour background) = (w, .ok ()) ∧ w.mode = .rgba ∧
      w.size = im.size ∧
      ∀ x y c p, m.cells.get? x y = some c → im.pixels.get? x y = some p →
        w.pixels.get? x y = some (seen colours background c p) := by
  have hd : im.mode.isDrawable = true := by
    rw [hmode]
    rfl
  cases background with
  | none =>
      refine ⟨_, drawWith_none hd h colours, hmode, h.symm, ?_⟩
      intro x y c p hc hp
      exact get?_shade hmode h _ hc hp
  | some b =>
      have hfit : fitFill im (.numbers b.toDatum) = .ok (.colour b) := by
        show (LooseFill.numbers b.toDatum).settle im.mode = _
        rw [settle_bytes, if_pos hmode]
      obtain ⟨w, hw, hpasted, hwmode, hwsize⟩ := drawWith_fit hd h colours hfit
      refine ⟨w, hw, hwmode.trans hmode, hwsize, ?_⟩
      intro x y c p hc hp
      -- the other classes are laid first, then class 0 is replaced
      have hlaid := get?_shade hmode h (foregroundColour colours) hc hp
      have hchosen : m.backgroundRegion.get? x y = some (c == 0) := by
        rw [backgroundRegion, Grid.get?_map, hc]
        rfl
      rw [get?_pasteRegion_colour ((m.mode_shade h _).trans hmode) hpasted hchosen hlaid]
      by_cases hzero : c = 0
      · simp [seen, hzero]
      · simp [seen, foregroundColour, hzero]

/-- **What is seen of a mask** that is drawn in random colours. -/
theorem draw_seen (hmode : im.mode = .rgba) (h : im.size = m.size) {t : Transparency}
    {alpha : UInt8} (halpha : t.alpha = .ok alpha) (background : Option Rgba) (g : Random.Generator) :
    ∃ w g', m.draw im t (.ofColour background) g = ⟨w, g', .ok ()⟩ ∧ w.mode = .rgba ∧
      w.size = im.size ∧
      ∀ x y c p, m.cells.get? x y = some c → im.pixels.get? x y = some p →
        w.pixels.get? x y = some
          (seen (coloursOf alpha (g.take (3 * m.classes.length)).1).toArray background c p) := by
  have hpalette : m.palette t g
      = (.ok (coloursOf alpha (g.take (3 * m.classes.length)).1).toArray,
        (g.take (3 * m.classes.length)).2) := by
    rw [palette, halpha]
  obtain ⟨w, hw, hseen⟩ := drawWith_seen hmode h
    (coloursOf alpha (g.take (3 * m.classes.length)).1).toArray background
  refine ⟨w, (g.take (3 * m.classes.length)).2, ?_, hseen⟩
  rw [draw_palette_ok h hpalette, hw]

end Perception.Mask
