import Perception.Proofs.Image.Drawing
import Perception.Proofs.Outcome

set_option autoImplicit false

/-! # What drawing does at a place

What an image that was drawn on has at a place is read off what the image and the things drawn on it
had at that place (`Image.overlay_spec`, `Image.pasteRegion_spec`). Two facts follow for each
operation. It leaves a place alone that it does not select (`Image.overlay_frame`,
`Image.pasteArray_frame`). And it makes images that are the same at a place out of images that were,
if what is drawn on them shows the same there (`Image.SameAt.overlay`, `Image.SameAt.pasteArray`).
-/

namespace Perception

/-- The places that an array of two dimensions chooses: those of its elements that count as true. -/
def ArrayLike.chosen? (region : ArrayLike) : Option (Grid Bool) :=
  match region.toNdArrayAs .bool with
  | .error _ => none
  | .ok a =>
      match a.shape with
      | [height, width] => Grid.ofArray? width height (a.elements.map Datum.isTruthy)
      | _ => none

namespace Image

variable {x y : Nat} {im w a b top : Image}

/-! ## Pixels -/

theorem get?_ofGrid (m : Mode) (g : Grid Rgba) (x y : Nat) :
    (ofGrid m g).pixels.get? x y = (g.get? x y).map m.canon :=
  Grid.get?_map m.canon g x y

theorem canon_of_get? {p : Rgba} (h : im.pixels.get? x y = some p) : im.mode.canon p = p :=
  im.canonical p (Grid.mem_of_get? h)

theorem get?_redrawn (im : Image) (g : Grid Rgba) (x y : Nat) :
    (im.redrawn g).pixels.get? x y = (g.get? x y).map im.mode.canon :=
  Grid.get?_map im.mode.canon g x y

/-! ## Images that are the same at a place -/

/-- Images with the same mode, the same size and the same pixel at a place. -/
structure SameAt (x y : Nat) (a b : Image) : Prop where
  mode : a.mode = b.mode
  size : a.size = b.size
  pixel : a.pixels.get? x y = b.pixels.get? x y

/-- An image that has at a place what another one had, and its key. -/
structure KeptAt (x y : Nat) (w im : Image) : Prop extends SameAt x y w im where
  key : w.key = im.key

theorem KeptAt.refl (x y : Nat) (im : Image) : KeptAt x y im im := ⟨⟨rfl, rfl, rfl⟩, rfl⟩

theorem KeptAt.trans {c : Image} (hab : KeptAt x y a b) (hbc : KeptAt x y b c) : KeptAt x y a c :=
  ⟨⟨hab.mode.trans hbc.mode, hab.size.trans hbc.size, hab.pixel.trans hbc.pixel⟩,
    hab.key.trans hbc.key⟩

/-- What an image keeps everywhere is the image. -/
theorem eq_of_keptAt (h : ∀ x y, KeptAt x y a b) : a = b := by
  have hpixels : a.pixels = b.pixels := Grid.ext_get? (h 0 0).size fun x y => (h x y).pixel
  exact ext (h 0 0).mode hpixels (h 0 0).key

theorem sameAt_ofGrid (m : Mode) {g g' : Grid Rgba} (hs : g.size = g'.size)
    (h : g.get? x y = g'.get? x y) : SameAt x y (ofGrid m g) (ofGrid m g') := by
  refine ⟨rfl, hs, ?_⟩
  rw [get?_ofGrid, get?_ofGrid, h]

/-- Images of the same size that show the same colour at a place, in whatever mode they are. -/
structure ShowsAt (x y : Nat) (a b : Image) : Prop where
  size : a.size = b.size
  colour : (a.convert .rgba).pixels.get? x y = (b.convert .rgba).pixels.get? x y

/-- Images that are the same at a place show the same there if they have one key. -/
theorem SameAt.showsAt (h : SameAt x y a b) (hk : a.key = b.key) : ShowsAt x y a b := by
  refine ⟨h.size, ?_⟩
  have hcolour : a.fullColour = b.fullColour := by
    funext p
    rw [fullColour, fullColour, isKeyed, isKeyed, h.mode, hk]
  rw [pixels_convert_rgba, pixels_convert_rgba, Grid.get?_map, Grid.get?_map, h.pixel, hcolour]

/-- They show the same in every mode that can be drawn on. -/
theorem ShowsAt.convert (h : ShowsAt x y a b) {m : Mode} (hm : m.isDrawable = true) :
    (a.convert m).pixels.get? x y = (b.convert m).pixels.get? x y := by
  rcases mode_of_isDrawable hm with rfl | rfl
  · rw [pixels_convert_rgb, pixels_convert_rgb, Grid.get?_map, Grid.get?_map, h.colour]
  · exact h.colour

/-! ## Laying an image over another -/

/-- **What an image has at a place once another is laid over it.** -/
theorem overlay_spec (h : im.overlay top = .ok w) :
    w.mode = im.mode ∧ w.size = im.size ∧ w.key = im.key ∧ top.size = im.size ∧
      ∀ x y, w.pixels.get? x y = ((top.convert .rgba).pixels.get? x y).bind fun s =>
        (im.pixels.get? x y).map fun d => im.mode.canon (layPixel im.mode s d) := by
  by_cases hd : im.mode.isDrawable = true
  · by_cases hs : top.size = im.size
    · rw [overlay_eq hd hs] at h
      cases h
      refine ⟨rfl, (size_convert .rgba top).trans hs, rfl, hs, fun x y => ?_⟩
      refine (get?_redrawn im _ x y).trans ?_
      have hcell := Grid.get?_zipWith_eq (layPixel im.mode) (top.convert .rgba).pixels im.pixels
        ((size_convert .rgba top).trans hs) x y
      refine (congrArg (Option.map im.mode.canon) hcell).trans ?_
      cases (top.convert .rgba).pixels.get? x y with
      | none => rfl
      | some s => cases im.pixels.get? x y <;> rfl
    · rw [overlay_size_ne hd hs] at h
      cases h
  · rw [overlay_not_drawable hd] at h
    cases h

/-- **Where the image on top is clear** nothing changes. -/
theorem overlay_frame (h : im.overlay top = .ok w)
    (hclear : ∀ s, (top.convert .rgba).pixels.get? x y = some s → s.a = 0) : KeptAt x y w im := by
  obtain ⟨hmode, hsize, hkey, htop, hpixel⟩ := overlay_spec h
  refine ⟨⟨hmode, hsize, (hpixel x y).trans ?_⟩, hkey⟩
  have hconverted : (top.convert .rgba).pixels.size = im.pixels.size :=
    (size_convert .rgba top).trans htop
  rcases Grid.get?_cases hconverted x y with
    ⟨hnone, hnone'⟩ | ⟨s, p, hs, hp⟩
  · rw [hnone, hnone', Option.bind_none]
  · rw [hs, hp, Option.bind_some, Option.map_some, layPixel_clear (hclear s hs), canon_of_get? hp]

/-- **Images that show the same at a place**, laid over images that are the same there, succeed
alike. -/
theorem SameAt.overlay {top' : Image} (h : SameAt x y a b) (htop : ShowsAt x y top top') :
    Outcome.Related (SameAt x y) (a.overlay top) (b.overlay top') := by
  by_cases hd : a.mode.isDrawable = true
  · have hd' : b.mode.isDrawable = true := h.mode ▸ hd
    by_cases hs : top.size = a.size
    · have hs' : top'.size = b.size := htop.size.symm.trans (hs.trans h.size)
      obtain ⟨w, hw⟩ : ∃ w, a.overlay top = .ok w := ⟨_, overlay_eq hd hs⟩
      obtain ⟨w', hw'⟩ : ∃ w', b.overlay top' = .ok w' := ⟨_, overlay_eq hd' hs'⟩
      obtain ⟨hmode, hsize, -, -, hpixel⟩ := overlay_spec hw
      obtain ⟨hmode', hsize', -, -, hpixel'⟩ := overlay_spec hw'
      rw [hw, hw']
      refine .ok ⟨?_, ?_, ?_⟩
      · rw [hmode, hmode', h.mode]
      · rw [hsize, hsize', h.size]
      · rw [hpixel, hpixel', htop.colour, h.mode, h.pixel]
    · have hs' : top'.size ≠ b.size := by
        rw [← htop.size, ← h.size]
        exact hs
      rw [overlay_size_ne hd hs, overlay_size_ne hd' hs', htop.size, h.size]
      exact .error _
  · have hd' : ¬b.mode.isDrawable = true := h.mode ▸ hd
    rw [overlay_not_drawable hd, overlay_not_drawable hd', h.mode]
    exact .error _

/-! ## Replacing the pixels of a region -/

variable {region region' : Grid Bool} {fill fill' : Fill}

/-- The pixel that a filling has at a place for an image of mode `m`. -/
def Fill.at? (m : Mode) (x y : Nat) : Fill → Option Rgba
  | colour c => some (m.canon c)
  | picture source => (source.convert m).pixels.get? x y

/-- An image of the right size has a pixel to fill in wherever there is one to replace. -/
theorem exists_of_convert {source : Image} (hs : source.size = im.size) {p : Rgba}
    (hp : im.pixels.get? x y = some p) :
    ∃ q, (source.convert im.mode).pixels.get? x y = some q ∧ im.mode.canon q = q := by
  have hconverted : im.pixels.size = (source.convert im.mode).pixels.size :=
    ((size_convert im.mode source).trans hs).symm
  obtain ⟨q, hq⟩ := Grid.exists_get? hconverted hp
  exact ⟨q, hq, mode_convert im.mode source ▸ canon_of_get? hq⟩

/-- **What an image has at a place once a region is replaced**: the pixel of the filling in the
region, and what it had elsewhere. -/
theorem pasteRegion_spec (h : im.pasteRegion region fill = .ok w) :
    w.mode = im.mode ∧ w.size = im.size ∧ w.key = im.key ∧
      ∀ x y, w.pixels.get? x y
        = if region.get? x y = some true then fill.at? im.mode x y else im.pixels.get? x y := by
  by_cases hd : im.mode.isDrawable = true
  · by_cases hr : region.size = im.size
    · cases fill with
      | colour c =>
          rw [pasteRegion_colour hd hr] at h
          cases h
          refine ⟨rfl, hr, rfl, fun x y => (get?_redrawn im _ x y).trans ?_⟩
          have hcell := Grid.get?_zipWith_eq (fun chosen p => if chosen then c else p) region
            im.pixels hr x y
          -- a place outside of the image has no pixel on either side
          refine (congrArg (Option.map im.mode.canon) hcell).trans ?_
          rcases Grid.get?_cases hr x y with ⟨hnone, hpixel⟩ | ⟨chosen, p, hsome, hpixel⟩
          · simp [hnone, hpixel]
          · cases chosen <;> simp [hsome, hpixel, canon_of_get? hpixel, Fill.at?]
      | picture source =>
          by_cases hs : source.size = im.size
          · rw [pasteRegion_picture hd hr hs] at h
            cases h
            refine ⟨rfl, hr, rfl, fun x y => (get?_redrawn im _ x y).trans ?_⟩
            have hchoice : (choices im region source hr hs).get? x y = _ :=
              Grid.get?_zipWith_eq _ region (source.convert im.mode).pixels _ x y
            refine (congrArg (Option.map im.mode.canon)
              (Grid.get?_zipWith_eq _ (choices im region source hr hs) im.pixels hr x y)).trans ?_
            rw [hchoice]
            rcases Grid.get?_cases hr x y with ⟨hnone, hpixel⟩ | ⟨chosen, p, hsome, hpixel⟩
            · simp [hnone, hpixel]
            · obtain ⟨q, hq, hcanon⟩ := exists_of_convert hs hpixel
              cases chosen <;> simp [hsome, hpixel, hq, canon_of_get? hpixel, hcanon, Fill.at?]
          · rw [pasteRegion_fill_ne hd hr hs] at h
            cases h
    · rw [pasteRegion_size_ne fill hd hr] at h
      cases h
  · rw [pasteRegion_not_drawable hd] at h
    cases h

/-- **Outside of a region** nothing changes. -/
theorem pasteRegion_frame (h : im.pasteRegion region fill = .ok w)
    (hx : region.get? x y ≠ some true) : KeptAt x y w im := by
  obtain ⟨hmode, hsize, hkey, hpixel⟩ := pasteRegion_spec h
  refine ⟨⟨hmode, hsize, ?_⟩, hkey⟩
  rw [hpixel, if_neg hx]

/-- An image that is put in a region of itself stays as it is. -/
theorem pasteRegion_self (h : im.pasteRegion region (.picture im) = .ok w) : w = im := by
  obtain ⟨hmode, hsize, hkey, hpixel⟩ := pasteRegion_spec h
  refine eq_of_keptAt fun x y => ⟨⟨hmode, hsize, ?_⟩, hkey⟩
  rw [hpixel, Fill.at?, convert_of_mode rfl, ite_self]

/-- Fillings that show the same at a place: one colour, or images that do. -/
inductive Fill.ShowsAt (x y : Nat) : Fill → Fill → Prop
  | colour (c : Rgba) : ShowsAt x y (.colour c) (.colour c)
  | picture {source source' : Image} (h : source.ShowsAt x y source') :
      ShowsAt x y (.picture source) (.picture source')

theorem Fill.ShowsAt.at? (h : fill.ShowsAt x y fill') {m : Mode} (hm : m.isDrawable = true) :
    fill.at? m x y = fill'.at? m x y := by
  cases h with
  | colour c => rfl
  | picture hsource => exact hsource.convert hm

theorem SameAt.pasted {w' : Image} (hd : a.mode.isDrawable = true) (h : SameAt x y a b)
    (hregion : region.get? x y = region'.get? x y) (hfill : fill.ShowsAt x y fill')
    (hw : a.pasteRegion region fill = .ok w) (hw' : b.pasteRegion region' fill' = .ok w') :
    SameAt x y w w' := by
  obtain ⟨hmode, hsize, -, hpixel⟩ := pasteRegion_spec hw
  obtain ⟨hmode', hsize', -, hpixel'⟩ := pasteRegion_spec hw'
  refine ⟨?_, ?_, ?_⟩
  · rw [hmode, hmode', h.mode]
  · rw [hsize, hsize', h.size]
  · rw [hpixel, hpixel', hregion, hfill.at? hd, h.mode, h.pixel]

/-- **Regions that choose alike at a place** are replaced alike with fillings that show the same
there. -/
theorem SameAt.pasteRegion (h : SameAt x y a b) (hsize : region.size = region'.size)
    (hregion : region.get? x y = region'.get? x y) (hfill : fill.ShowsAt x y fill') :
    Outcome.Related (SameAt x y) (a.pasteRegion region fill) (b.pasteRegion region' fill') := by
  by_cases hd : a.mode.isDrawable = true
  · have hd' : b.mode.isDrawable = true := h.mode ▸ hd
    by_cases hr : region.size = a.size
    · have hr' : region'.size = b.size := hsize.symm.trans (hr.trans h.size)
      -- it is enough to know that both succeed
      have hboth {w w' : Image} (hw : a.pasteRegion region fill = .ok w)
          (hw' : b.pasteRegion region' fill' = .ok w') :
          Outcome.Related (SameAt x y) (a.pasteRegion region fill)
            (b.pasteRegion region' fill') := by
        rw [hw, hw']
        exact .ok (h.pasted hd hregion hfill hw hw')
      cases hfill with
      | colour c => exact hboth (pasteRegion_colour hd hr) (pasteRegion_colour hd' hr')
      | @picture source source' hsource =>
          by_cases hs : source.size = a.size
          · have hs' : source'.size = b.size := hsource.size.symm.trans (hs.trans h.size)
            exact hboth (pasteRegion_picture hd hr hs) (pasteRegion_picture hd' hr' hs')
          · have hs' : source'.size ≠ b.size := by
              rw [← hsource.size, ← h.size]
              exact hs
            rw [pasteRegion_fill_ne hd hr hs, pasteRegion_fill_ne hd' hr' hs', hsource.size, h.size]
            exact .error _
    · have hr' : region'.size ≠ b.size := by
        rw [← hsize, ← h.size]
        exact hr
      have hwidth : region.width = region'.width := congrArg Prod.fst hsize
      have hheight : region.height = region'.height := congrArg Prod.snd hsize
      rw [pasteRegion_size_ne _ hd hr, pasteRegion_size_ne _ hd' hr', hwidth, hheight, h.size]
      exact .error _
  · have hd' : ¬b.mode.isDrawable = true := h.mode ▸ hd
    rw [pasteRegion_not_drawable hd, pasteRegion_not_drawable hd', h.mode]
    exact .error _

/-! ## Regions and fillings given loosely -/

variable {array array' : ArrayLike} {loose loose' : LooseFill}

/-- What an array chooses are its elements that count as true, in rows. -/
theorem exists_of_chosen? {region : Grid Bool} (h : array.chosen? = some region) :
    ∃ chosen, array.toNdArrayAs .bool = .ok chosen ∧ chosen.shape = [region.height, region.width] ∧
      Grid.ofArray? region.width region.height (chosen.elements.map Datum.isTruthy)
        = some region := by
  unfold ArrayLike.chosen? at h
  cases hchosen : array.toNdArrayAs .bool with
  | error e =>
      rw [hchosen] at h
      cases h
  | ok chosen =>
      rw [hchosen] at h
      dsimp only at h
      split at h
      · next height width hshape =>
          obtain ⟨hw, hh⟩ := Grid.size_of_ofArray? h
          exact ⟨chosen, rfl, by rw [hshape, hw, hh], by rw [hw, hh, h]⟩
      · cases h

/-- **Pasting comes down to replacing a region**: the places that the array chooses, by what the
filling settles to. -/
theorem pasteArray_eq (hd : im.mode.isDrawable = true) (hc : array.chosen? = some region)
    (hs : region.size = im.size) :
    im.pasteArray array loose = loose.settle im.mode >>= im.pasteRegion region := by
  obtain ⟨chosen, hchosen, hshape, hgrid⟩ := exists_of_chosen? hc
  have hw : region.width = im.width := congrArg Prod.fst hs
  have hh : region.height = im.height := congrArg Prod.snd hs
  rw [hw, hh] at hshape hgrid
  rw [pasteArray, checkDrawable_of_isDrawable hd, hchosen]
  refine (if_pos hshape).trans ?_
  rw [hgrid]
  cases loose with
  | numbers d => rfl
  | picture source =>
      by_cases hsource : source.size = im.size
      · simp only [if_pos hsource]
        rfl
      · simp only [if_neg hsource]
        exact (pasteRegion_fill_ne hd hs hsource).symm

/-- Where pasting succeeds, the array chooses places of the image and the filling settles. -/
theorem exists_of_pasteArray_ok (h : im.pasteArray array loose = .ok w) :
    ∃ region fill, array.chosen? = some region ∧ loose.settle im.mode = .ok fill ∧
      im.pasteRegion region fill = .ok w := by
  by_cases hd : im.mode.isDrawable = true
  · have hopen := h
    unfold pasteArray at hopen
    obtain ⟨-, -, hopen⟩ := Outcome.exists_of_bind_ok hopen
    obtain ⟨chosen, hchosen, hopen⟩ := Outcome.exists_of_bind_ok hopen
    by_cases hshape : chosen.shape = [im.height, im.width]
    · rw [if_pos hshape] at hopen
      cases hgrid : Grid.ofArray? im.width im.height (chosen.elements.map Datum.isTruthy) with
      | none =>
          rw [hgrid] at hopen
          cases hopen
      | some region =>
          have hregion : array.chosen? = some region := by
            rw [ArrayLike.chosen?, hchosen]
            dsimp only
            rw [hshape]
            exact hgrid
          obtain ⟨hw, hh⟩ := Grid.size_of_ofArray? hgrid
          rw [pasteArray_eq hd hregion (Prod.ext hw hh)] at h
          obtain ⟨fill, hfill, h⟩ := Outcome.exists_of_bind_ok h
          exact ⟨region, fill, hregion, hfill, h⟩
    · rw [if_neg hshape] at hopen
      cases hopen
  · rw [pasteArray_not_drawable hd] at h
    cases h

/-- **Where the array does not choose** nothing changes. -/
theorem pasteArray_frame (h : im.pasteArray array loose = .ok w)
    (hx : ∀ region, array.chosen? = some region → region.get? x y ≠ some true) :
    KeptAt x y w im := by
  obtain ⟨region, fill, hregion, -, hpasted⟩ := exists_of_pasteArray_ok h
  exact pasteRegion_frame hpasted (hx region hregion)

/-- An image that is pasted onto itself stays as it is. -/
theorem pasteArray_self (h : im.pasteArray array (.picture im) = .ok w) : w = im := by
  obtain ⟨region, fill, -, hfill, hpasted⟩ := exists_of_pasteArray_ok h
  cases hfill
  exact pasteRegion_self hpasted

inductive LooseFill.ShowsAt (x y : Nat) : LooseFill → LooseFill → Prop
  | numbers (d : Datum) : ShowsAt x y (.numbers d) (.numbers d)
  | picture {source source' : Image} (h : source.ShowsAt x y source') :
      ShowsAt x y (.picture source) (.picture source')

theorem LooseFill.ShowsAt.settle (h : loose.ShowsAt x y loose') (m : Mode) :
    Outcome.Related (Fill.ShowsAt x y) (loose.settle m) (loose'.settle m) := by
  cases h with
  | picture hsource => exact .ok (.picture hsource)
  | numbers d =>
      cases hsettled : (LooseFill.numbers d).settle m with
      | error e => exact .error e
      | ok fill =>
          obtain ⟨items, -, hitems⟩ := Outcome.exists_of_bind_ok hsettled
          obtain ⟨ints, -, hints⟩ := Outcome.exists_of_bind_ok hitems
          obtain ⟨c, -, rfl⟩ := Outcome.exists_of_map_ok hints
          exact .ok (.colour c)

/-- **Arrays that choose alike at a place** are pasted alike with fillings that show the same
there. -/
theorem SameAt.pasteArray (h : SameAt x y a b) (hc : array.chosen? = some region)
    (hc' : array'.chosen? = some region') (hs : region.size = a.size)
    (hsize : region.size = region'.size) (hregion : region.get? x y = region'.get? x y)
    (hfill : loose.ShowsAt x y loose') :
    Outcome.Related (SameAt x y) (a.pasteArray array loose) (b.pasteArray array' loose') := by
  by_cases hd : a.mode.isDrawable = true
  · have hd' : b.mode.isDrawable = true := h.mode ▸ hd
    have hs' : region'.size = b.size := hsize.symm.trans (hs.trans h.size)
    rw [pasteArray_eq hd hc hs, pasteArray_eq hd' hc' hs', h.mode]
    exact (hfill.settle b.mode).bind fun _ _ hf => h.pasteRegion hsize hregion hf
  · have hd' : ¬b.mode.isDrawable = true := h.mode ▸ hd
    rw [pasteArray_not_drawable hd, pasteArray_not_drawable hd', h.mode]
    exact .error _

end Image

end Perception
