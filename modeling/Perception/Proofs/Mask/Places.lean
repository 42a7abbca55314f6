import Perception.Proofs.Drawing.ClassByClass
import Perception.Proofs.Image.Places

set_option autoImplicit false

/-! # What drawing masks does at a place

Drawing a mask lays the colour of a place's class over the place, and replaces the places of class 0
if there is a background. So a place is left alone whose class has a clear colour and is not replaced
(`Mask.drawLooseClass_frame`, `Mask.draw_frame`), and images that are the same at a place are drawn
on alike there (`Mask.SameAt.drawLooseClass`, `Mask.SameAt.draw`).
-/

namespace Perception.Mask

open Image

variable {x y : Nat} {im w a b : Image} {m m' : Mask}

/-! ## Layers of colours -/

/-- Where the colour of the class is clear, a layer of colours changes nothing. -/
theorem overlay_layer_frame {f : Nat → Rgba} (h : im.overlay (.ofGrid .rgba (m.cells.map f)) = .ok w)
    (hclear : ∀ k, m.cells.get? x y = some k → (f k).a = 0) : w.KeptAt x y im := by
  refine overlay_frame h fun s hs => ?_
  rw [pixels_convert_ofGrid, Grid.get?_map, Option.map_eq_some_iff] at hs
  obtain ⟨k, hk, rfl⟩ := hs
  exact hclear k hk

theorem a_of_mem_coloursOf {alpha : UInt8} {draws : List UInt32} {c : Rgba}
    (h : c ∈ coloursOf alpha draws) : c.a = alpha := by
  induction draws using coloursOf.induct with
  | case1 r g b rest ih =>
      rw [coloursOf, List.mem_cons] at h
      rcases h with rfl | h
      · rfl
      · exact ih h
  | case2 draws hshort =>
      rw [coloursOf] at h
      · cases h
      · exact hshort

/-- The colours of a palette have the alpha of the transparency. -/
theorem a_of_palette {t : Transparency} {g g' : Random.Generator} {colours : Array Rgba}
    (h : m.palette t g = (.ok colours, g')) :
    ∃ alpha, t.alpha = .ok alpha ∧ ∀ c ∈ colours, c.a = alpha := by
  unfold palette at h
  cases halpha : t.alpha with
  | error e =>
      rw [halpha] at h
      cases h
  | ok alpha =>
      rw [halpha] at h
      cases h
      exact ⟨alpha, rfl, fun c hc => a_of_mem_coloursOf (List.mem_toArray.mp hc)⟩

/-- Nothing has more alpha than the colours it is looked up in. -/
theorem a_getD {colours : Array Rgba} (h : ∀ c ∈ colours, c.a = 0) (k : Nat) :
    (colours.getD k Rgba.clear).a = 0 := by
  unfold Array.getD
  split
  · exact h _ (Array.getElem_mem _)
  · rfl

/-! ## Places that are left alone -/

/-- **Drawing a class** leaves the places of other classes alone, and all if its colour is clear. -/
theorem drawLooseClass_frame {chosen colour : Datum} (h : m.drawLooseClass im chosen colour = .ok w)
    (hx : ∀ k c, m.cells.get? x y = some k → classChooser chosen k = true →
      classColour colour = .ok c → c.a = 0) : w.KeptAt x y im := by
  by_cases hsize : im.size = m.size
  · cases hc : classColour colour with
    | error e =>
        rw [drawLooseClass, checkSize_of_eq hsize, hc] at h
        cases h
    | ok c =>
        rw [drawLooseClass_of_size hsize chosen hc, drawClass_of_size hsize] at h
        refine overlay_layer_frame h fun k hk => ?_
        by_cases hchosen : classChooser chosen k = true
        · rw [if_pos hchosen]
          exact hx k c hk hchosen hc
        · rw [if_neg hchosen]
          rfl
  · rw [drawLooseClass, checkSize_of_ne hsize] at h
    cases h

/-- **Drawing in given colours** leaves the places of clear classes alone, except for those that the
background replaces. -/
theorem drawWith_frame {colours : Array Rgba} {background : Background}
    (hx : ∀ k, m.cells.get? x y = some k →
      (colours.getD k Rgba.clear).a = 0 ∧ (k = 0 → background = .none)) :
    (m.drawWith im colours background).1.KeptAt x y im := by
  cases background with
  | none =>
      unfold drawWith
      cases hlaid : im.overlay (.ofGrid .rgba (m.layer colours)) with
      | error e => exact .refl x y im
      | ok drawn => exact overlay_layer_frame hlaid fun k hk => (hx k hk).1
  | fill f =>
      unfold drawWith
      cases hlaid : im.overlay (.ofGrid .rgba (m.foreground colours)) with
      | error e => exact .refl x y im
      | ok drawn =>
          have hdrawn : drawn.KeptAt x y im := by
            refine overlay_layer_frame hlaid fun k hk => ?_
            rw [if_neg fun hzero => Background.noConfusion ((hx k hk).2 hzero)]
            exact (hx k hk).1
          dsimp only
          cases hfilled : fitFill drawn f >>= drawn.pasteRegion m.backgroundRegion with
          | error e => exact hdrawn
          | ok filled =>
              obtain ⟨fill, -, hpasted⟩ := Outcome.exists_of_bind_ok hfilled
              refine (pasteRegion_frame hpasted fun hregion => ?_).trans hdrawn
              -- a place of the region is one of class 0, which is replaced
              rw [backgroundRegion, Grid.get?_map, Option.map_eq_some_iff] at hregion
              obtain ⟨k, hk, hzero⟩ := hregion
              cases (hx k hk).2 (beq_iff_eq.mp hzero)

/-- **Drawing in random colours** leaves the places alone that are not replaced, if the colours are
clear. -/
theorem draw_frame {t : Transparency} {background : Background} (g : Random.Generator)
    (hx : ∀ k, m.cells.get? x y = some k →
      (∀ alpha, t.alpha = .ok alpha → alpha = 0) ∧ (k = 0 → background = .none)) :
    (m.draw im t background g).image.KeptAt x y im := by
  by_cases hsize : im.size = m.size
  · rcases hpalette : m.palette t g with ⟨palette, g'⟩
    cases palette with
    | error e =>
        rw [draw_palette_error hsize hpalette]
        exact .refl x y im
    | ok colours =>
        rw [draw_palette_ok hsize hpalette]
        refine drawWith_frame fun k hk => ⟨?_, (hx k hk).2⟩
        obtain ⟨alpha, halpha, hcolours⟩ := a_of_palette hpalette
        obtain rfl := (hx k hk).1 alpha halpha
        exact a_getD hcolours k
  · rw [draw_size_ne hsize]
    exact .refl x y im

/-! ## Places that are the same -/

/-- Masks of one size with as many classes, and the same class at a place. -/
structure SameAt (x y : Nat) (m m' : Mask) : Prop where
  size : m.size = m'.size
  classes : m.classes.length = m'.classes.length
  cell : m.cells.get? x y = m'.cells.get? x y

/-- Backgrounds that show the same at a place: none, the same numbers, or images of the given size
that do. -/
inductive Background.SameAt (size : Size) (x y : Nat) : Background → Background → Prop
  | none : SameAt size x y .none .none
  | numbers (d : Datum) : SameAt size x y (.fill (.numbers d)) (.fill (.numbers d))
  | picture {source source' : Image} (hsize : source.size = size) (h : source.ShowsAt x y source') :
      SameAt size x y (.fill (.picture source)) (.fill (.picture source'))

/-- Two images after the same operation, with its outcomes: the same at a place. -/
def SameResultAt (x y : Nat) (r r' : Image × Outcome Unit) : Prop :=
  r.1.SameAt x y r'.1 ∧ r.2 = r'.2

theorem SameAt.layer (h : m.SameAt x y m') (f : Nat → Rgba) :
    (ofGrid .rgba (m.cells.map f)).ShowsAt x y (ofGrid .rgba (m'.cells.map f)) := by
  refine ⟨h.size, ?_⟩
  rw [pixels_convert_ofGrid, pixels_convert_ofGrid, Grid.get?_map, Grid.get?_map, h.cell]

/-- A palette follows from the number of classes. -/
theorem SameAt.palette (h : m.SameAt x y m') (t : Transparency) (g : Random.Generator) :
    m.palette t g = m'.palette t g := by
  rw [Mask.palette, Mask.palette, h.classes]

/-- **Images that are the same at a place** stay so where a class is drawn. -/
theorem SameAt.drawLooseClass (hm : m.SameAt x y m') (h : a.SameAt x y b) (chosen colour : Datum) :
    Outcome.Related (Image.SameAt x y) (m.drawLooseClass a chosen colour)
      (m'.drawLooseClass b chosen colour) := by
  by_cases hsize : a.size = m.size
  · have hsize' : b.size = m'.size := h.size.symm.trans (hsize.trans hm.size)
    cases hc : classColour colour with
    | error e =>
        rw [Mask.drawLooseClass, Mask.drawLooseClass, checkSize_of_eq hsize,
          checkSize_of_eq hsize', hc]
        exact .error e
    | ok c =>
        rw [drawLooseClass_of_size hsize chosen hc, drawLooseClass_of_size hsize' chosen hc,
          drawClass_of_size hsize, drawClass_of_size hsize']
        exact h.overlay (hm.layer _)
  · have hsize' : b.size ≠ m'.size := by
      rw [← h.size, ← hm.size]
      exact hsize
    rw [Mask.drawLooseClass, Mask.drawLooseClass, checkSize_of_ne hsize, checkSize_of_ne hsize',
      h.size, hm.size]
    exact .error _

/-- An image that has the right size is taken as it is. -/
theorem fitFill_of_size {source : Image} (h : source.size = im.size) :
    fitFill im (.picture source) = .ok (.picture source) := by
  have hresize : source.resize .cubic im.width im.height = .ok source := if_pos h
  rw [fitFill, hresize]
  rfl

/-- Fillings that show the same at a place do so when they are made to fit. -/
theorem sameAt_fitFill {f f' : LooseFill}
    (hf : Background.SameAt a.size x y (.fill f) (.fill f')) (h : a.SameAt x y b) :
    Outcome.Related (Fill.ShowsAt x y) (fitFill a f) (fitFill b f') := by
  cases hf with
  | numbers d =>
      show Outcome.Related _ ((LooseFill.numbers d).settle a.mode)
        ((LooseFill.numbers d).settle b.mode)
      rw [h.mode]
      exact (LooseFill.ShowsAt.numbers d).settle b.mode
  | @picture source source' hsize hsource =>
      have hsize' : source'.size = b.size := hsource.size.symm.trans (hsize.trans h.size)
      rw [fitFill_of_size hsize, fitFill_of_size hsize']
      exact .ok (.picture hsource)

/-- The places of class 0 are replaced alike with backgrounds that show the same at a place. -/
theorem SameAt.fillBackground (hm : m.SameAt x y m') (h : a.SameAt x y b) {f f' : LooseFill}
    (hf : Background.SameAt a.size x y (.fill f) (.fill f')) :
    Outcome.Related (Image.SameAt x y) (fitFill a f >>= a.pasteRegion m.backgroundRegion)
      (fitFill b f' >>= b.pasteRegion m'.backgroundRegion) := by
  have hregion : m.backgroundRegion.get? x y = m'.backgroundRegion.get? x y := by
    rw [backgroundRegion, backgroundRegion, Grid.get?_map, Grid.get?_map, hm.cell]
  exact (sameAt_fitFill hf h).bind fun _ _ hfill => h.pasteRegion hm.size hregion hfill

/-- **Images that are the same at a place** stay so where a mask is drawn in given colours. -/
theorem SameAt.drawWith (hm : m.SameAt x y m') (h : a.SameAt x y b) (colours : Array Rgba)
    {background background' : Background} (hb : background.SameAt a.size x y background') :
    SameResultAt x y (m.drawWith a colours background) (m'.drawWith b colours background') := by
  cases background with
  | none =>
      cases hb
      have hlaid : Outcome.Related _ (a.overlay (.ofGrid .rgba (m.layer colours)))
        (b.overlay (.ofGrid .rgba (m'.layer colours))) := h.overlay (hm.layer _)
      unfold Mask.drawWith
      generalize a.overlay _ = r at hlaid ⊢
      generalize b.overlay _ = r' at hlaid ⊢
      cases hlaid with
      | error e => exact ⟨h, rfl⟩
      | ok hdrawn => exact ⟨hdrawn, rfl⟩
  | fill f =>
      obtain ⟨f', rfl⟩ : ∃ f', background' = .fill f' := by cases hb <;> exact ⟨_, rfl⟩
      have hlaid : Outcome.Related _ (a.overlay (.ofGrid .rgba (m.foreground colours)))
        (b.overlay (.ofGrid .rgba (m'.foreground colours))) := h.overlay (hm.layer _)
      unfold Mask.drawWith
      cases ha : a.overlay (.ofGrid .rgba (m.foreground colours)) with
      | error e =>
          rw [ha] at hlaid
          generalize b.overlay _ = r' at hlaid ⊢
          cases hlaid
          exact ⟨h, rfl⟩
      | ok drawn =>
          obtain ⟨-, hsize, -⟩ := overlay_spec ha
          rw [ha] at hlaid
          generalize b.overlay _ = r' at hlaid ⊢
          cases hlaid with
          | @ok _ drawn' hdrawn =>
              -- the background is put on images that are the same at the place once more
              have hfilled := hm.fillBackground hdrawn (hsize ▸ hb)
              dsimp only
              generalize fitFill drawn f >>= _ = r at hfilled ⊢
              generalize fitFill drawn' f' >>= _ = r' at hfilled ⊢
              cases hfilled with
              | error e => exact ⟨hdrawn, rfl⟩
              | ok hpasted => exact ⟨hpasted, rfl⟩

/-- Two masks drawn: the same at a place, with the same outcome and the same generator after it. -/
structure Drawn.SameAt (x y : Nat) (d d' : Drawn) : Prop where
  image : d.image.SameAt x y d'.image
  generator : d.generator = d'.generator
  outcome : d.outcome = d'.outcome

/-- **Images that are the same at a place** stay so where a mask is drawn in random colours. -/
theorem SameAt.draw (hm : m.SameAt x y m') (h : a.SameAt x y b) (t : Transparency)
    {background background' : Background} (hb : background.SameAt a.size x y background')
    (g : Random.Generator) :
    (m.draw a t background g).SameAt x y (m'.draw b t background' g) := by
  by_cases hsize : a.size = m.size
  · have hsize' : b.size = m'.size := h.size.symm.trans (hsize.trans hm.size)
    rcases hpalette : m.palette t g with ⟨palette, g'⟩
    have hpalette' : m'.palette t g = (palette, g') := (hm.palette t g).symm.trans hpalette
    cases palette with
    | error e =>
        rw [draw_palette_error hsize hpalette, draw_palette_error hsize' hpalette']
        exact ⟨h, rfl, rfl⟩
    | ok colours =>
        rw [draw_palette_ok hsize hpalette, draw_palette_ok hsize' hpalette']
        obtain ⟨himage, houtcome⟩ := hm.drawWith h colours hb
        exact ⟨himage, rfl, houtcome⟩
  · have hsize' : b.size ≠ m'.size := by
      rw [← h.size, ← hm.size]
      exact hsize
    rw [draw_size_ne hsize, draw_size_ne hsize', h.size, hm.size]
    exact ⟨h, rfl, rfl⟩

end Perception.Mask
