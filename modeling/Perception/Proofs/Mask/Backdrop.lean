import Perception.Proofs.Drawing.Solid
import Perception.Proofs.Mask.Gallery

set_option autoImplicit false

/-! # What replaces class 0

A mask that is drawn with a background shows the background where class 0 is, and everywhere else
what is shown without one (`Mask.draw_backdrop`). The background is a packed colour, a colour of
three or four bytes, or an image (`Mask.Backdrop`), the image that is drawn on among them.

Two steps add up to that. The first colours the other classes as drawing without a background does
(`shade_foreground`), and the second replaces class 0 only (`pasteRegion_spec`).
-/

namespace Perception.Mask

open Image

inductive Backdrop
  /-- A whole number that packs a colour. -/
  | packed (n : Int)
  /-- Red, green and blue. -/
  | solid (r g b : UInt8)
  | colour (c : Rgba)
  | picture (source : Image)

namespace Backdrop

def toBackground : Backdrop → Background
  | packed n => .ofDatum (.int n)
  | solid r g b => .ofDatum (.list [.int r.toNat, .int g.toNat, .int b.toNat])
  | colour c => .ofDatum c.toDatum
  | picture source => .fill (.picture source)

/-- A picture must have the size of the image. -/
def Suits (im : Image) : Backdrop → Prop
  | picture source => source.size = im.size
  | _ => True

/-- The pixel of a background at a place, as far as a mode stores it. -/
def at? (m : Mode) (x y : Nat) : Backdrop → Option Rgba
  | packed n => some (m.canon (.ofArgb n))
  | solid r g b => some ⟨r, g, b, 255⟩
  | colour c => some (m.canon c)
  | picture source => (source.convert m).pixels.get? x y

end Backdrop

variable {m : Mask} {im : Image} {b : Backdrop}

/-- Three bytes name their colour, which is solid. -/
theorem settle_three {mode : Mode} (hmode : mode = .rgb ∨ mode = .rgba) (r g b : UInt8) :
    (LooseFill.numbers (.list [.int r.toNat, .int g.toNat, .int b.toNat])).settle mode
      = .ok (.colour ⟨r, g, b, 255⟩) := by
  have hfit := componentsFit_bytes r [g, b]
  simp only [List.map_cons, List.map_nil] at hfit
  refine (inkOf_solid hmode (Or.inl rfl)).trans ?_
  rw [solidInk, if_pos hfit, clip_byte, clip_byte, clip_byte]

/-- What a mode stores of a colour does not depend on whether its alpha is looked at. -/
theorem at?_ite {mode : Mode} (hmode : mode = .rgb ∨ mode = .rgba) (c : Rgba) (x y : Nat) :
    (Fill.colour (if mode = .rgba then c else { c with a := 255 })).at? mode x y
      = some (mode.canon c) := by
  rcases hmode with rfl | rfl <;> rfl

/-- **A background that suits an image fits it**, and has its own pixels at all places. -/
theorem fitFill_backdrop (hd : im.mode.isDrawable = true) (hb : b.Suits im) :
    ∃ f fill, b.toBackground = .fill f ∧ fitFill im f = .ok fill ∧
      ∀ x y, fill.at? im.mode x y = b.at? im.mode x y := by
  have hmode := mode_of_isDrawable hd
  cases b with
  | packed n =>
      exact ⟨_, _, rfl, settle_bytes im.mode (Rgba.ofArgb n), fun x y => at?_ite hmode _ x y⟩
  | solid r g b =>
      refine ⟨_, _, rfl, settle_three hmode r g b, fun x y => ?_⟩
      rcases hmode with hmode | hmode <;> rw [hmode] <;> rfl
  | colour c => exact ⟨_, _, rfl, settle_bytes im.mode c, fun x y => at?_ite hmode c x y⟩
  | picture source => exact ⟨_, _, rfl, fitFill_of_size hb, fun _ _ => rfl⟩

/-- The other classes look the same with a background and without one. -/
theorem shade_foreground (h : im.size = m.size) (colours : Array Rgba) {x y c : Nat}
    (hc : m.cells.get? x y = some c) (hne : c ≠ 0) :
    (m.shade im h (foregroundColour colours)).pixels.get? x y
      = (m.shade im h fun c => colours.getD c Rgba.clear).pixels.get? x y := by
  obtain ⟨p, hp⟩ : ∃ p, im.pixels.get? x y = some p := Grid.exists_get? h.symm hc
  rw [get?_shade_of_get? h _ hc hp, get?_shade_of_get? h _ hc hp, foregroundColour, if_neg hne]

/-- Drawing with a background and without one, in the same colours. -/
theorem drawWith_backdrop (hd : im.mode.isDrawable = true) (h : im.size = m.size)
    (colours : Array Rgba) (hb : b.Suits im) :
    ∃ w v, m.drawWith im colours b.toBackground = (w, .ok ()) ∧
      m.drawWith im colours .none = (v, .ok ()) ∧ w.mode = im.mode ∧ w.size = im.size ∧
      ∀ x y c, m.cells.get? x y = some c →
        w.pixels.get? x y = if c = 0 then b.at? im.mode x y else v.pixels.get? x y := by
  obtain ⟨f, fill, hf, hfit, hat⟩ := fitFill_backdrop hd hb
  obtain ⟨w, hw, hpasted, hmode, hsize⟩ := drawWith_fit hd h colours hfit
  obtain ⟨-, -, -, hpixel⟩ := pasteRegion_spec hpasted
  refine ⟨w, _, hf ▸ hw, drawWith_none hd h colours, hmode, hsize, fun x y c hc => ?_⟩
  have hchosen : m.backgroundRegion.get? x y = some true ↔ c = 0 := by
    rw [get?_backgroundRegion, hc, Option.map_some, Option.some.injEq, beq_iff_eq]
  rw [hpixel]
  by_cases hzero : c = 0
  · rw [if_pos (hchosen.mpr hzero), if_pos hzero, mode_shade, hat]
  · rw [if_neg fun h => hzero (hchosen.mp h), if_neg hzero]
    exact shade_foreground h colours hc hzero

/-- The image that is drawn on has, as a background, its own pixels. -/
theorem at?_self (im : Image) (x y : Nat) :
    (Backdrop.picture im).at? im.mode x y = im.pixels.get? x y := by
  rw [Backdrop.at?, show im.convert im.mode = im from if_pos rfl]

/-- **A background replaces class 0 exactly, and changes nothing else.** Where class 0 is, the image
that is drawn on has the pixel of the background afterwards, which is its own pixel if it is its own
background; elsewhere it has what it has when the mask is drawn without a background, from the same
randomness. A packed number stands for the colour that it packs. And so it is in place, where the
background may be kept beside the image or be the image. -/
theorem draw_backdrop (hd : im.mode.isDrawable = true) (h : im.size = m.size) {t : Transparency}
    (ht : t.IsProper) (g : Random.Generator) (hb : b.Suits im) :
    ∃ w v g', m.draw im t b.toBackground g = ⟨w, g', .ok ()⟩ ∧
      m.draw im t .none g = ⟨v, g', .ok ()⟩ ∧ w.mode = im.mode ∧ w.size = im.size ∧
      (∀ x y c, m.cells.get? x y = some c →
        w.pixels.get? x y = if c = 0 then b.at? im.mode x y else v.pixels.get? x y) ∧
      (b = .picture im → ∀ x y, m.cells.get? x y = some 0 →
        w.pixels.get? x y = im.pixels.get? x y) ∧
      (∀ n, b = .packed n →
        m.draw im t (Backdrop.colour (.ofArgb n)).toBackground g = ⟨w, g', .ok ()⟩) ∧
      ∀ (images : List Image) (place : Nat) (background : Gallery.Background),
        images[place]? = some im → background.Is images b.toBackground →
        (Gallery.draw m place t background).run ⟨images, g⟩
          = (.ok (), ⟨images.set place w, g'⟩) := by
  obtain ⟨colours, g', hpalette, -⟩ := m.palette_of_isProper ht g
  -- both drawings take the same colours, and differ in the backdrop only
  obtain ⟨w, v, hw, hv, hmode, hsize, hpixel⟩ := drawWith_backdrop hd h colours hb
  have hdraw : m.draw im t b.toBackground g = ⟨w, g', .ok ()⟩ := by
    rw [draw_palette_ok h hpalette, hw]
  refine ⟨w, v, g', hdraw, ?_, hmode, hsize, hpixel, ?_, ?_, ?_⟩
  · rw [draw_palette_ok h hpalette, hv]
  · rintro rfl x y hc
    rw [hpixel x y 0 hc, if_pos rfl, at?_self]
  · rintro n rfl
    exact hdraw
  · intro images place background hplace his
    have hrun := Gallery.run_draw (s := ⟨images, g⟩) (m := m) hplace his t
    rw [hdraw] at hrun
    exact hrun

theorem draw_backdrop_hill :
    hillImage.mode.isDrawable = true ∧ hillImage.size = hillMask.size ∧
      (Transparency.level 0.5).IsProper ∧ (Backdrop.picture hillImage).Suits hillImage ∧
      ∃ w v g', hillMask.draw hillImage (.level 0.5) (.fill (.picture hillImage)) hillGenerator
          = ⟨w, g', .ok ()⟩ ∧
        hillMask.draw hillImage (.level 0.5) .none hillGenerator = ⟨v, g', .ok ()⟩ ∧
        w.pixels.get? 0 0 = hillImage.pixels.get? 0 0 ∧ w.pixels.get? 1 0 = v.pixels.get? 1 0 ∧
        (Gallery.draw hillMask 0 (.level 0.5) (.kept 0)).run ⟨[hillImage], hillGenerator⟩
          = (.ok (), ⟨[w], g'⟩) := by
  have hproper : (Transparency.level 0.5).IsProper := ⟨by decide +kernel, by decide +kernel⟩
  have hsuits : (Backdrop.picture hillImage).Suits hillImage := rfl
  have hsize : hillImage.size = hillMask.size := rfl
  obtain ⟨w, v, g', hw, hv, -, -, hpixel, hself, -, hplace⟩ :=
    draw_backdrop rfl hsize hproper hillGenerator hsuits
  refine ⟨rfl, hsize, hproper, hsuits, w, v, g', hw, hv, hself rfl 0 0 rfl, ?_, ?_⟩
  · exact (hpixel 1 0 1 rfl).trans (if_neg Nat.one_ne_zero)
  · exact hplace [hillImage] 0 (.kept 0) rfl (.kept rfl)

end Perception.Mask
