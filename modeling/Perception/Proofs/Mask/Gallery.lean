import Perception.Mask.Gallery
import Perception.Proofs.Mask.Background
import Perception.Proofs.Mask.Places

set_option autoImplicit false

/-! # Drawing in place

Drawing on an image where it is kept does what `Mask.draw` does, and leaves all other images alone
(`Gallery.run_draw`), also where the background is kept in the gallery and even where it is the image
that is drawn on: the places of class 0 are not coloured in the first step, so the image still has
its own pixels there (`Mask.paste_drawn`). A plot only adds its canvas (`Gallery.run_plot`).
-/

namespace Perception

open Outcome Image

namespace Mask

variable {m : Mask} {im w : Image} {x y c : Nat}

/-! ## Places of class 0 -/

/-- What an image under a layer has at a place. -/
theorem get?_shade_of_get? (h : im.size = m.size) (f : Nat → Rgba) {p : Rgba}
    (hc : m.cells.get? x y = some c) (hp : im.pixels.get? x y = some p) :
    (m.shade im h f).pixels.get? x y = some (im.mode.canon (layPixel im.mode (f c) p)) := by
  rw [m.pixels_shade rfl h h.symm]
  exact Grid.get?_zipWith hc hp

/-- Classes that are not coloured keep their pixels. -/
theorem get?_shade_of_clear (h : im.size = m.size) {f : Nat → Rgba}
    (hc : m.cells.get? x y = some c) (hf : (f c).a = 0) :
    (m.shade im h f).pixels.get? x y = im.pixels.get? x y := by
  obtain ⟨p, hp⟩ : ∃ p, im.pixels.get? x y = some p := Grid.exists_get? h.symm hc
  rw [get?_shade_of_get? h f hc hp, layPixel_clear hf, canon_of_get? hp, hp]

theorem get?_backgroundRegion (m : Mask) (x y : Nat) :
    m.backgroundRegion.get? x y = (m.cells.get? x y).map (· == 0) :=
  Grid.get?_map _ m.cells x y

/-- **An image as its own background** is left as the other classes are highlighted on it, whether
it is taken as it was before that or as it is then. -/
theorem paste_drawn (hd : im.mode.isDrawable = true) (h : im.size = m.size)
    (colours : Array Rgba) {source : Image}
    (hsource : source = im ∨ source = m.shade im h (foregroundColour colours)) :
    (m.shade im h (foregroundColour colours)).pasteRegion m.backgroundRegion (.picture source)
      = .ok (m.shade im h (foregroundColour colours)) := by
  have hsize : source.size = im.size := by
    rcases hsource with rfl | rfl
    · rfl
    · exact (m.size_shade h _).trans h.symm
  have hmode : source.mode = im.mode := by
    rcases hsource with rfl | rfl <;> rfl
  have hregion : m.backgroundRegion.size = (m.shade im h (foregroundColour colours)).size :=
    (m.size_shade h _).symm
  obtain ⟨w, hw⟩ : ∃ w, (m.shade im h (foregroundColour colours)).pasteRegion m.backgroundRegion
      (.picture source) = .ok w :=
    ⟨_, pasteRegion_picture (m.isDrawable_shade hd h _) hregion
      ((hsize.trans h).trans (m.size_shade h _).symm)⟩
  obtain ⟨hwmode, hwsize, hwkey, hpixel⟩ := pasteRegion_spec hw
  rw [hw]
  refine congrArg Except.ok (eq_of_keptAt fun x y => ⟨⟨hwmode, hwsize, ?_⟩, hwkey⟩)
  rw [hpixel, Fill.at?, get?_backgroundRegion]
  split
  · -- class 0 was not coloured, so the image has the same pixel before and after
    next hzero =>
      obtain ⟨c, hc, hc0⟩ := Option.map_eq_some_iff.mp hzero
      have hconvert : source.convert (m.shade im h (foregroundColour colours)).mode = source :=
        if_pos hmode
      rw [hconvert]
      rcases hsource with rfl | rfl
      · refine (get?_shade_of_clear h hc ?_).symm
        rw [foregroundColour, if_pos (beq_iff_eq.mp hc0)]
        rfl
      · rfl
  · rfl

/-- So it makes no difference when an image is looked at that is its own background. -/
theorem fill_drawn (h : im.size = m.size) {colours : Array Rgba}
    (hw : im.overlay (.ofGrid .rgba (m.foreground colours)) = .ok w) :
    (fitFill w (.picture w) >>= w.pasteRegion m.backgroundRegion)
      = fitFill w (.picture im) >>= w.pasteRegion m.backgroundRegion := by
  by_cases hd : im.mode.isDrawable = true
  · have hlaid : im.overlay (.ofGrid .rgba (m.foreground colours))
        = .ok (m.shade im h (foregroundColour colours)) := overlay_classes hd h _
    obtain rfl : m.shade im h (foregroundColour colours) = w :=
      Except.ok.inj (hlaid.symm.trans hw)
    rw [fitFill_of_size rfl, fitFill_of_size (h.trans (m.size_shade h _).symm)]
    exact (paste_drawn hd h colours (Or.inr rfl)).trans
      (paste_drawn hd h colours (Or.inl rfl)).symm
  · rw [overlay_not_drawable hd] at hw
    cases hw

end Mask

namespace Gallery

variable {s : Gallery} {place : Nat} {im w : Image} {m : Mask}

/-! ## Steps -/

theorem run_image (h : s.images[place]? = some im) : (image place).run s = (.ok im, s) := by
  unfold image
  simp only [ExceptT.run, h]

theorem run_palette {t : Transparency} {o : Outcome (Array Rgba)} {g : Random.Generator}
    (h : m.palette t s.generator = (o, g)) :
    (palette m t).run s = (o, { s with generator := g }) := by
  show ((m.palette t s.generator).1, { s with generator := (m.palette t s.generator).2 }) = _
  rw [h]

theorem run_change_ok {f : Image → Outcome Image} (h : s.images[place]? = some im)
    (hf : f im = .ok w) :
    (change place f).run s = (.ok (), { s with images := s.images.set place w }) := by
  unfold change
  rw [run_bind_ok (run_image h), hf]
  rfl

theorem run_change_error {f : Image → Outcome Image} {e : Failure}
    (h : s.images[place]? = some im) (hf : f im = .error e) :
    (change place f).run s = (.error e, s) := by
  unfold change
  rw [run_bind_ok (run_image h), hf]
  rfl

/-- What a background in a gallery is, as images are now. -/
inductive Background.Is (images : List Image) : Background → Mask.Background → Prop
  | none : Is images .none .none
  | given (f : LooseFill) : Is images (.given f) (.fill f)
  | kept {source : Nat} {im : Image} (h : images[source]? = some im) :
      Is images (.kept source) (.fill (.picture im))

/-! ## Drawing -/

theorem set_same (h : s.images[place]? = some im) : s.images.set place im = s.images := by
  obtain ⟨hlt, rfl⟩ := List.getElem?_eq_some_iff.mp h
  exact List.set_getElem_self hlt

theorem getElem?_set (h : s.images[place]? = some im) (w : Image) :
    (s.images.set place w)[place]? = some w :=
  List.getElem?_set_self (List.getElem?_eq_some_iff.mp h).1

/-- Highlighting and replacing in place, where what class 0 is replaced with may have changed with
the image, if that makes no difference. -/
theorem run_drawFilled {colours : Array Rgba} {filling : GalleryM LooseFill} {f : LooseFill}
    (h : s.images[place]? = some im)
    (hfilling : ∀ drawn, im.overlay (.ofGrid .rgba (m.foreground colours)) = .ok drawn →
      ∃ f', filling.run { s with images := s.images.set place drawn }
          = (.ok f', { s with images := s.images.set place drawn }) ∧
        (Mask.fitFill drawn f' >>= drawn.pasteRegion m.backgroundRegion)
          = Mask.fitFill drawn f >>= drawn.pasteRegion m.backgroundRegion) :
    (drawFilled m place colours filling).run s
      = ((m.drawWith im colours (.fill f)).2,
        { s with images := s.images.set place (m.drawWith im colours (.fill f)).1 }) := by
  unfold drawFilled
  rw [Mask.drawWith]
  cases hlaid : im.overlay (.ofGrid .rgba (m.foreground colours)) with
  | error e =>
      rw [run_bind_error (run_change_error h hlaid), set_same h]
  | ok drawn =>
      obtain ⟨f', hrun, hsame⟩ := hfilling drawn hlaid
      rw [run_bind_ok (run_change_ok h hlaid), run_bind_ok hrun, paste]
      dsimp only
      have hdrawn := getElem?_set h drawn
      cases hfilled : Mask.fitFill drawn f >>= drawn.pasteRegion m.backgroundRegion with
      | error e => rw [run_change_error hdrawn (hsame.trans hfilled)]
      | ok filled => rw [run_change_ok hdrawn (hsame.trans hfilled), List.set_set]

/-- **Drawing in place** changes the image at its place as drawing changes the image by itself, ends
alike, and leaves all other images alone, also where the background is one of the images. -/
theorem run_draw {b : Background} {background : Mask.Background} (h : s.images[place]? = some im)
    (hb : b.Is s.images background) (t : Transparency) :
    (draw m place t b).run s
      = ((m.draw im t background s.generator).outcome,
        ⟨s.images.set place (m.draw im t background s.generator).image,
          (m.draw im t background s.generator).generator⟩) := by
  unfold draw
  rw [run_bind_ok (run_image h)]
  by_cases hsize : im.size = m.size
  · -- the palette is drawn first, and moves the generator also if drawing fails later
    rcases hpalette : m.palette t s.generator with ⟨o, g⟩
    have hdrawn := run_palette hpalette
    rw [Mask.checkSize_of_eq hsize]
    cases o with
    | error e =>
        rw [Mask.draw_palette_error hsize hpalette, set_same h]
        exact run_bind_error hdrawn
    | ok colours =>
        rw [Mask.draw_palette_ok hsize hpalette]
        refine (run_bind_ok hdrawn).trans ?_
        have h' : ({ s with generator := g } : Gallery).images[place]? = some im := h
        cases hb with
        | none =>
            dsimp only
            rw [Mask.drawWith]
            cases hlaid : im.overlay (.ofGrid .rgba (m.layer colours)) with
            | error e =>
                rw [run_change_error h' hlaid]
                dsimp only
                rw [set_same h]
            | ok drawn => rw [run_change_ok h' hlaid]
        | given f => exact run_drawFilled h' fun drawn _ => ⟨f, rfl, rfl⟩
        | @kept source original hsource =>
            refine run_drawFilled h' fun drawn hlaid => ?_
            by_cases hself : source = place
            · -- the image has been highlighted when it is looked at
              subst hself
              obtain rfl : original = im := Option.some.inj (hsource.symm.trans h)
              have hkept := getElem?_set h drawn
              refine ⟨.picture drawn, run_bind_ok (run_image hkept), ?_⟩
              exact Mask.fill_drawn hsize hlaid
            · -- another image is as it was
              have hkept : (s.images.set place drawn)[source]? = some original := by
                rw [List.getElem?_set_ne (Ne.symm hself), hsource]
              refine ⟨.picture original, ?_, rfl⟩
              exact run_bind_ok (run_image hkept)
  · rw [Mask.checkSize_of_ne hsize, Mask.draw_size_ne hsize, set_same h]
    rfl

/-! ## Plotting -/

theorem canvasOf_convert (im : Image) (layer : Grid Rgba) :
    Plot.canvasOf (im.convert .rgba) layer = Plot.canvasOf im layer := by
  rw [Plot.canvasOf, convert_of_mode (mode_convert .rgba im), Plot.canvasOf]

/-- **Plotting in place** adds the canvas and leaves all images alone. -/
theorem run_plot (h : s.images[place]? = some im) {t : Transparency} {colours : Array Rgba}
    {g : Random.Generator} (hpalette : m.palette t s.generator = (.ok colours, g)) :
    (plot m place t).run s
      = (.ok s.images.length, ⟨s.images ++ [Plot.canvasOf im (m.layer colours)], g⟩) := by
  have h' : ({ s with generator := g } : Gallery).images[place]? = some im := h
  have hcanvas : (s.images ++ [im.convert .rgba])[s.images.length]? = some (im.convert .rgba) :=
    List.getElem?_concat_length
  have hset : (s.images ++ [im.convert .rgba]).set s.images.length
      (Plot.canvasOf im (m.layer colours)) = s.images ++ [Plot.canvasOf im (m.layer colours)] := by
    rw [List.set_append_right _ _ (Nat.le_refl _), Nat.sub_self, List.set_cons_zero]
  have hkeep : (keep (im.convert .rgba)).run { s with generator := g }
      = (.ok s.images.length, ⟨s.images ++ [im.convert .rgba], g⟩) := rfl
  have hchange : (change s.images.length fun im => .ok (Plot.canvasOf im (m.layer colours))).run
      ⟨s.images ++ [im.convert .rgba], g⟩
        = (.ok (), ⟨s.images ++ [Plot.canvasOf im (m.layer colours)], g⟩) := by
    have hcanvas' : (⟨s.images ++ [im.convert .rgba], g⟩ : Gallery).images[s.images.length]?
        = some (im.convert .rgba) := hcanvas
    rw [run_change_ok (f := fun im => .ok (Plot.canvasOf im (m.layer colours))) hcanvas' rfl]
    dsimp only
    rw [canvasOf_convert, hset]
  unfold plot
  rw [run_bind_ok (run_palette hpalette), run_bind_ok (run_image h'), run_bind_ok hkeep,
    run_bind_ok hchange]
  rfl

end Gallery

end Perception
