import Perception.Image.Drawing
import Perception.Proofs.Colour.Blend
import Perception.Proofs.Image.Grid

set_option autoImplicit false

/-! # What drawing gives

For each operation on images, when it succeeds and what the image is then. Later proofs use these
equations and do not open the operations.
-/

namespace Perception.Image

theorem ext {a b : Image} (hm : a.mode = b.mode) (hp : a.pixels = b.pixels)
    (hk : a.key = b.key) : a = b := by
  cases a
  cases b
  cases hm
  cases hp
  cases hk
  rfl

/-! ## Modes -/

theorem mode_of_isDrawable {m : Mode} (h : m.isDrawable = true) : m = .rgb ∨ m = .rgba := by
  simpa [Mode.isDrawable] using h

theorem pixels_ofGrid_rgba (g : Grid Rgba) : (ofGrid .rgba g).pixels = g :=
  Grid.map_id_of_forall fun _ _ => rfl

theorem convert_of_mode {im : Image} {m : Mode} (h : im.mode = m) : im.convert m = im := if_pos h

/-- A pixel that is in full colour already. -/
theorem fullColour_rgba {im : Image} (h : im.mode = .rgba) (p : Rgba) : im.fullColour p = p := by
  have hkey : im.key = none := im.keyed (by rw [h]; rfl)
  simp [fullColour, isKeyed, hkey, h, colourOf]

/-- **The image in full colour** has each pixel in full colour. -/
theorem pixels_convert_rgba (im : Image) :
    (im.convert .rgba).pixels = im.pixels.map im.fullColour := by
  by_cases h : im.mode = .rgba
  · rw [convert_of_mode h, Grid.map_id_of_forall fun p _ => fullColour_rgba h p]
  · rw [convert, if_neg h]
    show (im.pixels.map _).map id = _
    rw [Grid.map_map]
    rfl

/-- **Without alpha** its pixels are those in full colour, made solid. -/
theorem pixels_convert_rgb (im : Image) :
    (im.convert .rgb).pixels = (im.convert .rgba).pixels.map Mode.rgb.canon := by
  rw [pixels_convert_rgba, Grid.map_map]
  by_cases h : im.mode = .rgb
  · rw [convert_of_mode h]
    refine (Grid.map_id_of_forall fun p hp => ?_).symm
    have hcanon : Mode.rgb.canon p = p := h ▸ im.canonical p hp
    have hcolour : colourOf im.mode p = p := by rw [h]; rfl
    unfold fullColour
    rw [hcolour]
    dsimp only
    split
    · exact hcanon
    · exact hcanon
  · rw [convert, if_neg h]
    show (im.pixels.map _).map _ = _
    rw [Grid.map_map]
    rfl

theorem checkDrawable_of_isDrawable {im : Image} (h : im.mode.isDrawable = true) :
    im.checkDrawable = .ok () := by
  rw [checkDrawable, if_pos h]

/-! ## Laying an image over another -/

/-- A clear pixel laid over another changes nothing. -/
theorem layPixel_clear {m : Mode} {s : Rgba} (hs : s.a = 0) (d : Rgba) : layPixel m s d = d := by
  cases m with
  | rgba => exact Rgba.composite_clear d hs
  | _ =>
      show Rgba.blend s.a s d = d
      rw [hs, Rgba.blend_zero]

theorem overlay_not_drawable {im : Image} (hd : ¬im.mode.isDrawable = true) (top : Image) :
    im.overlay top = .error (.notDrawable im.mode.name) := by
  rw [overlay, checkDrawable, if_neg hd]
  rfl

theorem overlay_eq {im top : Image} (hd : im.mode.isDrawable = true) (h : top.size = im.size) :
    im.overlay top
      = .ok (im.redrawn (Grid.zipWith (layPixel im.mode) (top.convert .rgba).pixels im.pixels
          ((size_convert .rgba top).trans h))) := by
  rw [overlay, checkDrawable_of_isDrawable hd]
  exact dif_pos h

theorem overlay_size_ne {im top : Image} (hd : im.mode.isDrawable = true)
    (h : top.size ≠ im.size) : im.overlay top = .error (.overlaySize top.size im.size) := by
  rw [overlay, checkDrawable_of_isDrawable hd]
  exact dif_neg h

/-! ## Replacing the pixels of a region -/

theorem pasteRegion_not_drawable {im : Image} (hd : ¬im.mode.isDrawable = true)
    (region : Grid Bool) (fill : Fill) :
    im.pasteRegion region fill = .error (.notDrawable im.mode.name) := by
  rw [pasteRegion, checkDrawable, if_neg hd]
  rfl

theorem pasteRegion_colour {im : Image} {region : Grid Bool} {c : Rgba}
    (hd : im.mode.isDrawable = true) (h : region.size = im.size) :
    im.pasteRegion region (.colour c)
      = .ok (im.redrawn
          (Grid.zipWith (fun chosen p => if chosen then c else p) region im.pixels h)) := by
  rw [pasteRegion, checkDrawable_of_isDrawable hd]
  exact dif_pos h

/-- The pixels that a filling image has in a region, beside the choice of the region. -/
def choices (im : Image) (region : Grid Bool) (source : Image) (h : region.size = im.size)
    (hs : source.size = im.size) : Grid (Bool × Rgba) :=
  Grid.zipWith (fun c p => (c, p)) region (source.convert im.mode).pixels
    (h.trans (hs.symm.trans (size_convert im.mode source).symm))

theorem pasteRegion_picture {im : Image} {region : Grid Bool} {source : Image}
    (hd : im.mode.isDrawable = true) (h : region.size = im.size) (hs : source.size = im.size) :
    im.pasteRegion region (.picture source)
      = .ok (im.redrawn
          (Grid.zipWith (fun (c, s) p => if c then s else p) (choices im region source h hs)
            im.pixels h)) := by
  rw [pasteRegion, checkDrawable_of_isDrawable hd]
  refine (dif_pos h).trans ?_
  exact dif_pos hs

theorem pasteRegion_fill_ne {im : Image} {region : Grid Bool} {source : Image}
    (hd : im.mode.isDrawable = true) (h : region.size = im.size) (hs : source.size ≠ im.size) :
    im.pasteRegion region (.picture source) = .error (.fillSize source.size im.size) := by
  rw [pasteRegion, checkDrawable_of_isDrawable hd]
  refine (dif_pos h).trans ?_
  exact dif_neg hs

theorem pasteRegion_size_ne {im : Image} {region : Grid Bool} (fill : Fill)
    (hd : im.mode.isDrawable = true) (h : region.size ≠ im.size) :
    im.pasteRegion region fill = .error (.regionShape [region.height, region.width] im.size) := by
  rw [pasteRegion, checkDrawable_of_isDrawable hd]
  exact dif_neg h

theorem pasteArray_not_drawable {im : Image} (hd : ¬im.mode.isDrawable = true)
    (array : ArrayLike) (fill : LooseFill) :
    im.pasteArray array fill = .error (.notDrawable im.mode.name) := by
  rw [pasteArray, checkDrawable, if_neg hd]
  rfl

end Perception.Image
