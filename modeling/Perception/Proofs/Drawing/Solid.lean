import Mathlib.Data.List.Forall2
import Perception.Mask.Canvas
import Perception.Proofs.Colour.Blend
import Perception.Proofs.Mask.Drawing

set_option autoImplicit false

/-! # Drawing with and without alpha

An image without alpha and its solid twin in full colour stay alike, whatever solid strokes are made
on both (`trace_alike`): the red, green and blue of every pixel are the same, and the twin stays
solid. Strokes may be made of anything that is laid over the image, and of solid fillings
(`Stroke.IsSolid`).

The two images blend by different formulas, which agree over solid pixels
(`Rgba.composite_of_solid`). That all pixels stay solid is what carries the induction over the
strokes.

The conversion of an image that has a key is clear where the image has the colour of the key, so it
is no twin (`trace_keyed`). Therefore the images and the fillings without alpha have no key here.
-/

namespace Perception

/-! ## Solid fillings -/

namespace Image

/-- Images that have neither alpha nor a key. -/
def IsPlain (im : Image) : Prop := (im.mode = .grey ∨ im.mode = .rgb) ∧ im.key = none

/-- Plain images, or three components, or four of which the last is 255. -/
def LooseFill.IsSolid : LooseFill → Prop
  | picture im => im.IsPlain
  | numbers d => ∃ items ints r g b, components d = .ok items ∧ items.mapM Datum.toInt = .ok ints ∧
      (ints = [r, g, b] ∨ ints = [r, g, b, 255])

def Fill.IsSolid : Fill → Prop
  | colour c => c.a = 255
  | picture im => im.IsPlain

end Image

/-- The background is coloured like any class, or replaced with something solid. -/
def Mask.Background.IsSolid : Mask.Background → Prop
  | none => True
  | fill f => f.IsSolid

/-- Nothing else than what is laid over the image has an alpha. -/
def Stroke.IsSolid : Stroke → Prop
  | .overlay _ => True
  | .paste _ fill => fill.IsSolid
  | .drawClass _ _ _ => True
  | .draw _ _ background => background.IsSolid

namespace Image

/-! ## Images alike -/

/-- An image without alpha, and one with alpha that has the same pixels and so is solid. -/
structure Alike (a b : Image) : Prop where
  plain : a.mode = .rgb
  full : b.mode = .rgba
  pixels : b.pixels = a.pixels

theorem a_of_mem {im : Image} (hm : im.mode = .grey ∨ im.mode = .rgb) {p : Rgba}
    (hp : p ∈ im.pixels.cells) : p.a = 255 := by
  have hcanon := im.canonical p hp
  rcases hm with hm | hm
  · rw [hm] at hcanon
    rw [← hcanon]
    rfl
  · rw [hm] at hcanon
    rw [← hcanon]
    rfl

theorem canon_of_solid {p : Rgba} (h : p.a = 255) : Mode.rgb.canon p = p := by
  show (⟨p.r, p.g, p.b, 255⟩ : Rgba) = p
  rw [← h]

theorem canon_of_mem {im : Image} (hm : im.mode = .grey ∨ im.mode = .rgb) {p : Rgba}
    (hp : p ∈ im.pixels.cells) : Mode.rgb.canon p = p :=
  canon_of_solid (a_of_mem hm hp)

theorem Alike.size {a b : Image} (h : Alike a b) : b.size = a.size := by
  rw [Image.size, h.pixels, Image.size]

/-- Images alike that are redrawn stay alike if the new pixels are the same up to alpha, which is
255 on the side that has one. -/
theorem Alike.redrawn {a b : Image} (h : Alike a b) {g g' : Grid Rgba}
    (hg : g.map Mode.rgb.canon = g') : Alike (a.redrawn g) (b.redrawn g') := by
  refine ⟨h.plain, h.full, ?_⟩
  show g'.map b.mode.canon = g.map a.mode.canon
  rw [h.plain, h.full, hg]
  exact Grid.map_id_of_forall fun _ _ => rfl

/-- Conversions of plain images keep all pixels. -/
theorem IsPlain.pixels_convert {im : Image} {m : Mode} (h : im.IsPlain)
    (hm : m = .rgb ∨ m = .rgba) : (im.convert m).pixels = im.pixels := by
  obtain ⟨him, hkey⟩ := h
  have hfull : (im.convert .rgba).pixels = im.pixels := by
    rw [pixels_convert_rgba]
    refine Grid.map_id_of_forall fun p _ => ?_
    rcases him with h | h <;> simp [fullColour, isKeyed, hkey, colourOf, h]
  rcases hm with rfl | rfl
  · rw [pixels_convert_rgb, hfull]
    exact Grid.map_id_of_forall fun p hp => canon_of_mem him hp
  · exact hfull

/-- An image without alpha and its conversion are alike if there is no key. -/
theorem alike_convert {im : Image} (him : im.mode = .rgb) (hkey : im.key = none) :
    Alike im (im.convert .rgba) :=
  ⟨him, mode_convert .rgba im, IsPlain.pixels_convert ⟨Or.inr him, hkey⟩ (Or.inr rfl)⟩

/-! ## Outcomes alike -/

/-- Both operations fail for the same reason, or both make images, which are alike. -/
inductive AlikeOutcome : Outcome Image → Outcome Image → Prop
  | ok {a b : Image} (h : Alike a b) : AlikeOutcome (.ok a) (.ok b)
  | error (e : Failure) : AlikeOutcome (.error e) (.error e)

theorem Alike.isDrawable {a b : Image} (h : Alike a b) :
    a.mode.isDrawable = true ∧ b.mode.isDrawable = true := by
  rw [h.plain, h.full]
  exact ⟨rfl, rfl⟩

/-- **Laying an image over two images alike.** -/
theorem Alike.overlay {a b : Image} (h : Alike a b) (top : Image) :
    AlikeOutcome (a.overlay top) (b.overlay top) := by
  obtain ⟨hda, hdb⟩ := h.isDrawable
  by_cases hs : top.size = a.size
  · have hs' : top.size = b.size := hs.trans h.size.symm
    rw [overlay_eq hda hs, overlay_eq hdb hs']
    refine .ok (h.redrawn ((Grid.map_zipWith _ _ _ _ _).trans ?_))
    refine Grid.zipWith_congr rfl h.pixels.symm fun s _ d hd => ?_
    -- over a solid pixel both formulas give the same
    have ha : d.a = 255 := a_of_mem (Or.inr h.plain) hd
    rw [h.plain, h.full]
    exact (Rgba.composite_of_solid s ha).symm
  · have hs' : top.size ≠ b.size := fun e => hs (e.trans h.size)
    rw [overlay_size_ne hda hs, overlay_size_ne hdb hs', h.size]
    exact .error _

/-- **Replacing a region of two images alike** with something solid. -/
theorem Alike.pasteRegion {a b : Image} (h : Alike a b) (region : Grid Bool) {fill : Fill}
    (hfill : fill.IsSolid) :
    AlikeOutcome (a.pasteRegion region fill) (b.pasteRegion region fill) := by
  obtain ⟨hda, hdb⟩ := h.isDrawable
  by_cases hr : region.size = a.size
  · have hr' : region.size = b.size := hr.trans h.size.symm
    cases fill with
    | colour c =>
        have hc : Mode.rgb.canon c = c := canon_of_solid hfill
        rw [pasteRegion_colour hda hr, pasteRegion_colour hdb hr']
        refine .ok (h.redrawn ((Grid.map_zipWith _ _ _ _ _).trans ?_))
        refine Grid.zipWith_congr rfl h.pixels.symm fun chosen _ p hp => ?_
        have hp' : Mode.rgb.canon p = p := canon_of_mem (Or.inr h.plain) hp
        cases chosen with
        | false => exact hp'
        | true => exact hc
    | picture source =>
        by_cases hs : source.size = a.size
        · have hs' : source.size = b.size := hs.trans h.size.symm
          rw [pasteRegion_picture hda hr hs, pasteRegion_picture hdb hr' hs']
          refine .ok (h.redrawn ((Grid.map_zipWith _ _ _ _ _).trans ?_))
          -- the filling keeps its pixels in either mode
          have hpix : (source.convert a.mode).pixels = (source.convert b.mode).pixels := by
            rw [hfill.pixels_convert (Or.inl h.plain), hfill.pixels_convert (Or.inr h.full)]
          have hchoices : choices a region source hr hs = choices b region source hr' hs' :=
            Grid.zipWith_congr rfl hpix fun _ _ _ _ => rfl
          refine Grid.zipWith_congr hchoices h.pixels.symm fun chosen hchosen p hp => ?_
          obtain ⟨c, _, s, hs, rfl⟩ := Grid.mem_zipWith hchosen
          rw [hfill.pixels_convert (Or.inl h.plain)] at hs
          have hp' : Mode.rgb.canon p = p := canon_of_mem (Or.inr h.plain) hp
          have hs' : Mode.rgb.canon s = s := canon_of_mem hfill.1 hs
          cases c with
          | false => exact hp'
          | true => exact hs'
        · have hs' : source.size ≠ b.size := fun e => hs (e.trans h.size)
          rw [pasteRegion_fill_ne hda hr hs, pasteRegion_fill_ne hdb hr' hs', h.size]
          exact .error _
  · have hr' : region.size ≠ b.size := fun e => hr (e.trans h.size)
    rw [pasteRegion_size_ne fill hda hr, pasteRegion_size_ne fill hdb hr', h.size]
    exact .error _

/-! ## Fillings given loosely -/

def solidInk (r g b : Int) : Outcome Fill :=
  if componentsFit [r, g, b] then .ok (.colour ⟨Colour.clip r, Colour.clip g, Colour.clip b, 255⟩)
  else .error (.plain .overflow)

theorem isSolid_of_solidInk {r g b : Int} {f : Fill} (h : solidInk r g b = .ok f) :
    f.IsSolid := by
  unfold solidInk at h
  split at h
  · cases h
    rfl
  · cases h

/-- A fourth component of 255 fits and is kept, so it does not matter whether it is looked at. -/
theorem inkOf_solid {m : Mode} (hm : m = .rgb ∨ m = .rgba) {ints : List Int} {r g b : Int}
    (h : ints = [r, g, b] ∨ ints = [r, g, b, 255]) :
    (inkOf m ints).map .colour = solidInk r g b := by
  have hclip : Colour.clip 255 = 255 := by decide
  have hfit : componentsFit [r, g, b, 255] = componentsFit [r, g, b] := by
    have h255 : fitsWord 255 = true := by decide
    simp only [componentsFit, List.all_cons, List.all_nil, h255, Bool.and_true]
  have hmap (p : Prop) [Decidable p] (c : Rgba) (e : Failure) :
      Except.map Fill.colour (if p then Except.ok c else Except.error e)
        = if p then Except.ok (Fill.colour c) else Except.error e := by
    split <;> rfl
  rcases hm with rfl | rfl
  · rcases h with rfl | rfl <;> exact hmap _ _ _
  · rcases h with rfl | rfl
    · refine (hmap _ _ _).trans ?_
      rw [solidInk, ← hfit, hclip]
      rfl
    · refine (hmap _ _ _).trans ?_
      rw [solidInk, ← hfit, hclip]
      rfl

/-- A solid filling is the same for both images, and settles to something solid. -/
theorem settle_solid {f : LooseFill} (hf : f.IsSolid) :
    f.settle .rgba = f.settle .rgb ∧ ∀ s, f.settle .rgb = .ok s → s.IsSolid := by
  cases f with
  | picture im =>
      refine ⟨rfl, fun s hs => ?_⟩
      cases hs
      exact hf
  | numbers d =>
      obtain ⟨items, ints, r, g, b, hitems, hints, hrgb⟩ := hf
      have hsettle (m : Mode) (hm : m = .rgb ∨ m = .rgba) :
          (LooseFill.numbers d).settle m = solidInk r g b := by
        rw [LooseFill.settle, hitems]
        refine Eq.trans ?_ (inkOf_solid hm hrgb)
        exact congrArg (fun x => x >>= fun ints => (inkOf m ints).map Fill.colour) hints
      rw [hsettle .rgba (Or.inr rfl), hsettle .rgb (Or.inl rfl)]
      exact ⟨rfl, fun s hs => isSolid_of_solidInk hs⟩

/-! ## Pasting -/

/-- **Replacing the pixels that an array chooses** in two images alike. -/
theorem Alike.pasteArray {a b : Image} (h : Alike a b) (region : ArrayLike) {fill : LooseFill}
    (hfill : fill.IsSolid) :
    AlikeOutcome (a.pasteArray region fill) (b.pasteArray region fill) := by
  obtain ⟨hda, hdb⟩ := h.isDrawable
  obtain ⟨hsettle, hsolid⟩ := settle_solid hfill
  unfold Image.pasteArray
  rw [checkDrawable_of_isDrawable hda, checkDrawable_of_isDrawable hdb]
  have hw : b.width = a.width := congrArg Prod.fst h.size
  have hh : b.height = a.height := congrArg Prod.snd h.size
  rw [h.size, hw, hh, h.plain, h.full]
  -- the array is looked at in the same way on both sides, the filling only after it
  cases region.toNdArrayAs .bool with
  | error e => exact .error e
  | ok chosen =>
      show AlikeOutcome (if chosen.shape = [a.height, a.width] then _ else _)
        (if chosen.shape = [a.height, a.width] then _ else _)
      by_cases hshape : chosen.shape = [a.height, a.width]
      · rw [if_pos hshape, if_pos hshape]
        cases Grid.ofArray? a.width a.height (chosen.elements.map Datum.isTruthy) with
        | none => exact .error _
        | some g =>
            cases fill with
            | picture source =>
                by_cases hs : source.size = a.size
                · simp only [if_pos hs]
                  exact h.pasteRegion g hfill
                · simp only [if_neg hs]
                  exact .error _
            | numbers d =>
                simp only [hsettle]
                cases hd : (LooseFill.numbers d).settle .rgb with
                | error e => exact .error e
                | ok f => exact h.pasteRegion g (hsolid f hd)
      · rw [if_neg hshape, if_neg hshape]
        exact .error _

theorem IsPlain.resize {k : Kernel} {width height : Nat} {im resized : Image} (him : im.IsPlain)
    (h : im.resize k width height = .ok resized) : resized.IsPlain := by
  unfold Image.resize at h
  split at h
  · cases h
    exact him
  · split at h
    · cases h
    · dsimp only at h
      split at h
      · cases h
        exact him
      · cases h
        exact him

end Image

/-! ## Drawing masks -/

namespace Mask

open Image

theorem fitFill_solid {a b : Image} (h : Alike a b) {f : LooseFill} (hf : f.IsSolid) :
    fitFill b f = fitFill a f ∧ ∀ s, fitFill a f = .ok s → s.IsSolid := by
  have hw : b.width = a.width := congrArg Prod.fst h.size
  have hh : b.height = a.height := congrArg Prod.snd h.size
  cases f with
  | numbers d =>
      show (LooseFill.numbers d).settle b.mode = (LooseFill.numbers d).settle a.mode ∧
        ∀ s, (LooseFill.numbers d).settle a.mode = .ok s → s.IsSolid
      rw [h.plain, h.full]
      exact settle_solid hf
  | picture source =>
      constructor
      · rw [fitFill, fitFill, hw, hh]
      · intro s hs
        rw [fitFill] at hs
        cases hr : source.resize .cubic a.width a.height with
        | error e =>
            rw [hr] at hs
            cases hs
        | ok resized =>
            rw [hr] at hs
            cases hs
            exact hf.resize hr

/-- Two images after the same operation on images alike: still alike, with the same outcome. -/
def AlikeResult (r r' : Image × Outcome Unit) : Prop := Alike r.1 r'.1 ∧ r'.2 = r.2

/-- Highlighting with given colours, and with a background that is solid. -/
theorem alike_drawWith {a b : Image} (h : Alike a b) (m : Mask) (colours : Array Rgba)
    {background : Background} (hb : background.IsSolid) :
    AlikeResult (m.drawWith a colours background) (m.drawWith b colours background) := by
  cases background with
  | none =>
      have hlay := h.overlay (.ofGrid .rgba (m.layer colours))
      unfold drawWith
      generalize a.overlay _ = x at hlay ⊢
      generalize b.overlay _ = y at hlay ⊢
      cases hlay with
      | ok hdrawn => exact ⟨hdrawn, rfl⟩
      | error e => exact ⟨h, rfl⟩
  | fill f =>
      have hlay := h.overlay (.ofGrid .rgba (m.foreground colours))
      unfold drawWith
      generalize a.overlay _ = x at hlay ⊢
      generalize b.overlay _ = y at hlay ⊢
      cases hlay with
      | error e => exact ⟨h, rfl⟩
      | @ok a b hdrawn =>
          -- what the foreground was laid on goes on as the two images alike
          obtain ⟨hfit, hsolid⟩ := fitFill_solid hdrawn hb
          dsimp only
          rw [hfit]
          cases hf : fitFill a f with
          | error e => exact ⟨hdrawn, rfl⟩
          | ok s =>
              have hpaste := hdrawn.pasteRegion m.backgroundRegion (hsolid s hf)
              have hfill (im : Image) : (.ok s >>= im.pasteRegion m.backgroundRegion)
                  = im.pasteRegion m.backgroundRegion s := rfl
              rw [hfill, hfill]
              generalize a.pasteRegion _ s = x at hpaste ⊢
              generalize b.pasteRegion _ s = y at hpaste ⊢
              cases hpaste with
              | ok hfilled => exact ⟨hfilled, rfl⟩
              | error e => exact ⟨hdrawn, rfl⟩

theorem alike_drawLooseClass {a b : Image} (h : Alike a b) (m : Mask) (chosen colour : Datum) :
    AlikeOutcome (m.drawLooseClass a chosen colour) (m.drawLooseClass b chosen colour) := by
  by_cases ha : a.size = m.size
  · have hb : b.size = m.size := h.size.trans ha
    cases hc : classColour colour with
    | error e =>
        unfold drawLooseClass
        rw [checkSize_of_eq ha, checkSize_of_eq hb, hc]
        exact .error e
    | ok c =>
        rw [drawLooseClass_of_size ha chosen hc, drawLooseClass_of_size hb chosen hc,
          drawClass_of_size ha, drawClass_of_size hb]
        exact h.overlay _
  · have hb : b.size ≠ m.size := fun e => ha (h.size.symm.trans e)
    unfold drawLooseClass
    rw [checkSize_of_ne ha, checkSize_of_ne hb, h.size]
    exact .error _

end Mask

/-! ## Stroke by stroke -/

namespace Canvas

open Image Mask

/-- Canvases of images alike, with palettes from the same randomness. -/
structure Alike (c d : Canvas) : Prop where
  images : c.image.Alike d.image
  generator : d.generator = c.generator

theorem Alike.accept {c d : Canvas} (h : Alike c d) {x y : Outcome Image}
    (hxy : AlikeOutcome x y) :
    Alike (c.accept x).1 (d.accept y).1 ∧ (d.accept y).2 = (c.accept x).2 := by
  cases hxy with
  | ok hnew => exact ⟨⟨hnew, h.generator⟩, rfl⟩
  | error e => exact ⟨h, rfl⟩

/-- **One solid stroke keeps canvases alike** and succeeds on both or on none. -/
theorem Alike.apply {c d : Canvas} (h : Alike c d) {s : Stroke} (hs : s.IsSolid) :
    Alike (c.apply s).1 (d.apply s).1 ∧ (d.apply s).2 = (c.apply s).2 := by
  cases s with
  | overlay top => exact h.accept (h.images.overlay top)
  | paste region fill => exact h.accept (h.images.pasteArray region hs)
  | drawClass m chosen colour => exact h.accept (alike_drawLooseClass h.images m chosen colour)
  | draw m t background =>
      unfold Canvas.apply
      dsimp only
      rw [h.generator]
      by_cases hc : c.image.size = m.size
      · have hd : d.image.size = m.size := h.images.size.trans hc
        cases hp : m.palette t c.generator with
        | mk colours g =>
            cases colours with
            | error e =>
                rw [draw_palette_error hc hp, draw_palette_error hd hp]
                exact ⟨⟨h.images, rfl⟩, rfl⟩
            | ok colours =>
                rw [draw_palette_ok hc hp, draw_palette_ok hd hp]
                obtain ⟨himages, houtcome⟩ := alike_drawWith h.images m colours hs
                exact ⟨⟨himages, rfl⟩, houtcome⟩
      · have hd : d.image.size ≠ m.size := fun e => hc (h.images.size.symm.trans e)
        rw [draw_size_ne hc, draw_size_ne hd, h.images.size]
        exact ⟨⟨h.images, rfl⟩, rfl⟩

/-- Solid strokes keep canvases alike, each in turn. -/
theorem Alike.trace {c d : Canvas} (h : Alike c d) {strokes : List Stroke}
    (hs : ∀ s ∈ strokes, s.IsSolid) :
    List.Forall₂ (fun r r' => Alike r.1 r'.1 ∧ r'.2 = r.2) (c.trace strokes) (d.trace strokes) := by
  induction strokes generalizing c d with
  | nil => exact .nil
  | cons s ss ih =>
      -- the next stroke starts from where this one leads, also where it fails
      have hstep := h.apply (hs s (List.mem_cons_self ..))
      exact .cons hstep (ih hstep.1 fun s' hs' => hs s' (List.mem_cons_of_mem s hs'))

/-- **An image and its conversion to full colour are drawn on alike**, if the image has no key. After
each stroke both have the same red, green and blue everywhere and the conversion is solid; either
both strokes succeed or both fail for the same reason. -/
theorem trace_alike {im : Image} (him : im.mode = .rgb) (hkey : im.key = none)
    (g : Random.Generator) {strokes : List Stroke} (hs : ∀ s ∈ strokes, s.IsSolid) :
    List.Forall₂
      (fun r r' => r'.2 = r.2 ∧ r'.1.generator = r.1.generator ∧ r.1.image.mode = .rgb ∧
        r'.1.image.mode = .rgba ∧ r'.1.image.size = r.1.image.size ∧
        (∀ x y, (r'.1.image.pixels.get? x y).map (fun p => (p.r, p.g, p.b))
          = (r.1.image.pixels.get? x y).map fun p => (p.r, p.g, p.b)) ∧
        ∀ p ∈ r'.1.image.pixels.cells, p.a = 255)
      (trace ⟨im, g⟩ strokes) (trace ⟨im.convert .rgba, g⟩ strokes) := by
  have halike : Alike ⟨im, g⟩ ⟨im.convert .rgba, g⟩ := ⟨alike_convert him hkey, rfl⟩
  refine (halike.trace hs).imp fun r r' hr => ?_
  obtain ⟨⟨himages, hgenerator⟩, houtcome⟩ := hr
  refine ⟨houtcome, hgenerator, himages.plain, himages.full, himages.size, fun x y => ?_, ?_⟩
  · rw [himages.pixels]
  · rw [himages.pixels]
    exact fun p hp => a_of_mem (Or.inr himages.plain) hp

/-- A mask of two pixels, the second of which is not background. -/
def pairMask : Mask := ⟨["sky", "tree"], ⟨2, 1, #[0, 1], rfl⟩, by decide, by decide, by decide⟩

def pairStrokes : List Stroke :=
  [.overlay (.blank .rgba 2 1 ⟨0, 0, 200, 77⟩),
    .paste (.nested (.list [.list [.bool true, .bool false]]))
      (.numbers (.list [.int 300, .int 20, .int (-3)])),
    .drawClass pairMask (.int 1) (.int 0x80ff0000),
    .draw pairMask (.whole 0) (.fill (.picture (.blank .grey 2 1 ⟨90, 90, 90, 255⟩)))]

theorem trace_alike_pair :
    (Image.blank .rgb 2 1 ⟨10, 20, 30, 255⟩).mode = .rgb ∧
      (Image.blank .rgb 2 1 ⟨10, 20, 30, 255⟩).key = none ∧ (∀ s ∈ pairStrokes, s.IsSolid) ∧
      List.Forall₂ (fun r r' => r'.2 = r.2 ∧ ∀ p ∈ r'.1.image.pixels.cells, p.a = 255)
        (trace ⟨.blank .rgb 2 1 ⟨10, 20, 30, 255⟩, .ofSeed 1⟩ pairStrokes)
        (trace ⟨(Image.blank .rgb 2 1 ⟨10, 20, 30, 255⟩).convert .rgba, .ofSeed 1⟩ pairStrokes) := by
  have hsolid : ∀ s ∈ pairStrokes, s.IsSolid := by
    intro s hs
    simp only [pairStrokes, List.mem_cons, List.not_mem_nil, or_false] at hs
    rcases hs with rfl | rfl | rfl | rfl
    · exact trivial
    · exact ⟨_, _, 300, 20, -3, rfl, rfl, Or.inl rfl⟩
    · exact trivial
    · exact ⟨Or.inl rfl, rfl⟩
  refine ⟨rfl, rfl, hsolid, ?_⟩
  exact (trace_alike rfl rfl (.ofSeed 1) hsolid).imp fun r r' h => ⟨h.1, h.2.2.2.2.2.2⟩

def keyedPixel : Image where
  mode := .rgb
  pixels := ⟨1, 1, #[⟨1, 2, 3, 255⟩], rfl⟩
  canonical := by decide
  key := some ⟨1, 2, 3, 255⟩
  keyed h := absurd h (by decide)

/-- With a key the conversion is not solid, and pasting such a pixel makes what was solid clear. -/
theorem trace_keyed :
    let plain := Image.blank .rgb 1 1 ⟨9, 9, 9, 255⟩
    let stroke := Stroke.paste (.nested (.list [.list [.bool true]])) (.picture keyedPixel)
    keyedPixel.mode = .rgb ∧
      (trace ⟨keyedPixel.convert .rgba, .ofSeed 1⟩ [.overlay (.blank .rgba 1 1 Rgba.clear)]).map
          (fun r => (r.2.toBool, r.1.image.pixels.get? 0 0))
        = [(true, some ⟨1, 2, 3, 0⟩)] ∧
      plain.mode = .rgb ∧ plain.key = none ∧
      (trace ⟨plain.convert .rgba, .ofSeed 1⟩ [stroke]).map
          (fun r => (r.2.toBool, r.1.image.pixels.get? 0 0))
        = [(true, some ⟨1, 2, 3, 0⟩)] := by
  refine ⟨rfl, ?_, rfl, rfl, ?_⟩
  · decide +kernel
  · decide +kernel

end Canvas

end Perception
