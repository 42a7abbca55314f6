import Perception.Proofs.Drawing.ClassByClass
import Perception.Proofs.Outcome

set_option autoImplicit false

/-! # Masks drawn with a background

Drawing a mask with a background takes two steps: the other classes are highlighted, then the places
of class 0 are replaced. Whatever the first step looks at is looked at before the image changes, so
an image that drawing fails on stays as it was if the background fits it. A background that does not
fit is found out in the second step, and leaves the image highlighted (`Mask.draw_allOrNothing`).
-/

namespace Perception

namespace Image

/-! ## Bytes as the numbers of a colour -/

theorem clip_byte (b : UInt8) : Colour.clip b.toNat = b := by
  have hb := b.toNat_lt
  have hclip : (max 0 (min 255 (b.toNat : Int))).toNat = b.toNat := by omega
  rw [Colour.clip, hclip, UInt8.ofNat_toNat]

theorem fitsWord_byte (b : UInt8) : fitsWord b.toNat = true := by
  have hb := b.toNat_lt
  simp only [fitsWord, Bool.and_eq_true, decide_eq_true_eq]
  omega

theorem fitsLongWord_byte (b : UInt8) : fitsLongWord b.toNat = true := by
  have hb := b.toNat_lt
  simp only [fitsLongWord, Bool.and_eq_true, decide_eq_true_eq]
  constructor
  · omega
  · omega

theorem componentsFit_bytes (first : UInt8) (rest : List UInt8) :
    componentsFit ((first :: rest).map fun b => (b.toNat : Int)) = true := by
  have hrest : ∀ i ∈ rest.map fun b => (b.toNat : Int), fitsWord i = true := by
    intro i hi
    obtain ⟨b, -, rfl⟩ := List.mem_map.mp hi
    exact fitsWord_byte b
  rw [List.map_cons, componentsFit, fitsLongWord_byte, Bool.true_and]
  exact List.all_eq_true.mpr hrest

/-- Four bytes name their colour; an image without alpha takes it as solid. -/
theorem settle_bytes (m : Mode) (c : Rgba) :
    (LooseFill.numbers c.toDatum).settle m
      = .ok (.colour (if m = .rgba then c else { c with a := 255 })) := by
  have hfour := componentsFit_bytes c.r [c.g, c.b, c.a]
  have hthree := componentsFit_bytes c.r [c.g, c.b]
  simp only [List.map_cons, List.map_nil] at hfour hthree
  have hink : inkOf m [c.r.toNat, c.g.toNat, c.b.toNat, c.a.toNat]
      = .ok (if m = .rgba then c else { c with a := 255 }) := by
    by_cases hm : m = .rgba
    · simp [inkOf, hm, hfour, clip_byte]
    · simp [inkOf, hm, hthree, clip_byte]
  show (inkOf m [c.r.toNat, c.g.toNat, c.b.toNat, c.a.toNat]).map Fill.colour = _
  rw [hink]
  rfl

/-! ## Sizes of stretched images -/

variable {k : Kernel} {width height : Nat} {source resized : Image}

theorem size_stretchRows (k : Kernel) (width : Nat) (g : Grid Rgba) :
    (stretchRows k width g).size = (width, g.height) := by
  unfold stretchRows
  split
  · next h => rw [h]; rfl
  · rfl

theorem size_stretchColumns (k : Kernel) (height : Nat) (g : Grid Rgba) :
    (stretchColumns k height g).size = (g.width, height) := by
  unfold stretchColumns
  split
  · next h => rw [h]; rfl
  · rfl

/-- The two passes lead to the size that is asked for. -/
theorem size_stretched (k : Kernel) (width height : Nat) (g : Grid Rgba) :
    (stretchColumns k height (stretchRows k width g)).size = (width, height) := by
  have hwidth : (stretchRows k width g).width = width :=
    congrArg Prod.fst (size_stretchRows k width g)
  rw [size_stretchColumns, hwidth]

theorem size_resize (h : source.resize k width height = .ok resized) :
    resized.size = (width, height) := by
  unfold resize at h
  split at h
  · next hsame =>
      cases h
      exact hsame
  · split at h
    · cases h
    · dsimp only at h
      split at h
      · cases h
        exact size_stretched k width height _
      · cases h
        exact size_stretched k width height _

/-- An image has every size with places. -/
theorem resize_of_pos (k : Kernel) (source : Image) (hsize : 0 < width ∧ 0 < height) :
    ∃ resized, source.resize k width height = .ok resized := by
  have hplaces : ¬(width = 0 ∨ height = 0) := by omega
  unfold resize
  rw [if_neg hplaces]
  dsimp only
  split
  · exact ⟨_, rfl⟩
  · split
    · exact ⟨_, rfl⟩
    · exact ⟨_, rfl⟩

end Image

namespace Mask

open Image

variable {m : Mask} {im a b : Image} {f : LooseFill} {fill : Fill} {e : Failure}

/-! ## Fillings that fit -/

/-- What a filling comes to depends on the size and the mode of the image only. -/
theorem fitFill_congr (hm : a.mode = b.mode) (hs : a.size = b.size) (f : LooseFill) :
    fitFill a f = fitFill b f := by
  have hw : a.width = b.width := congrArg Prod.fst hs
  have hh : a.height = b.height := congrArg Prod.snd hs
  cases f with
  | picture source => rw [fitFill, fitFill, hw, hh]
  | numbers d =>
      show (LooseFill.numbers d).settle a.mode = (LooseFill.numbers d).settle b.mode
      rw [hm]

/-- A picture that was made to fit has the size of the image. -/
theorem size_of_fitFill {source : Image} (h : fitFill im f = .ok (.picture source)) :
    source.size = im.size := by
  cases f with
  | picture original =>
      obtain ⟨resized, hresized, heq⟩ := Outcome.exists_of_map_ok h
      cases heq
      exact size_resize hresized
  | numbers d =>
      obtain ⟨items, -, hitems⟩ := Outcome.exists_of_bind_ok h
      obtain ⟨ints, -, hints⟩ := Outcome.exists_of_bind_ok hitems
      obtain ⟨c, -, heq⟩ := Outcome.exists_of_map_ok hints
      cases heq

/-- **A filling that fits can be put in** any region of the image. -/
theorem pasteRegion_of_fitFill (hd : im.mode.isDrawable = true) {region : Grid Bool}
    (hregion : region.size = im.size) (hfit : fitFill im f = .ok fill) :
    ∃ filled, im.pasteRegion region fill = .ok filled ∧
      filled.mode = im.mode ∧ filled.size = im.size := by
  cases fill with
  | colour c => exact ⟨_, pasteRegion_colour hd hregion, rfl, hregion⟩
  | picture source =>
      exact ⟨_, pasteRegion_picture hd hregion (size_of_fitFill hfit), rfl, hregion⟩

/-- The modes whose pixels have a colour here. A premultiplied grey picture cannot be put on one in
colour, and what colours the other three stand for is left open. -/
def hasColours (m : Mode) : Bool :=
  match m with
  | .greyPremultiplied | .ycbcr | .lab | .hsv => false
  | _ => true

/-- Does a background fit an image? Numbers must name a colour of its mode, a picture must have
colours. -/
def Background.Fits (im : Image) : Background → Prop
  | .none => True
  | .fill (.picture source) => hasColours source.mode = true
  | .fill (.numbers d) => ∃ fill, (LooseFill.numbers d).settle im.mode = .ok fill

theorem Background.fits_whole (im : Image) (i : Int) : (ofDatum (.int i)).Fits im :=
  ⟨_, settle_bytes im.mode (Rgba.ofArgb i)⟩

theorem Background.fits_colour (im : Image) (c : Rgba) : (ofDatum c.toDatum).Fits im :=
  ⟨_, settle_bytes im.mode c⟩

/-- A filling that fits an image with places comes to something. -/
theorem fitFill_of_fits (him : 0 < im.width ∧ 0 < im.height) (h : (Background.fill f).Fits im) :
    ∃ fill, fitFill im f = .ok fill := by
  cases f with
  | numbers d => exact h
  | picture source =>
      obtain ⟨resized, hresized⟩ := resize_of_pos .cubic source him
      refine ⟨.picture resized, ?_⟩
      rw [fitFill, hresized]
      rfl

/-! ## Drawing in two steps -/

/-- The colours of the classes when there is a background: class 0 has none. -/
def foregroundColour (colours : Array Rgba) (c : Nat) : Rgba :=
  if c = 0 then Rgba.clear else colours.getD c Rgba.clear

/-- A background that does not fit is found out when the other classes are highlighted already. -/
theorem drawWith_unfit (hd : im.mode.isDrawable = true) (h : im.size = m.size)
    (colours : Array Rgba) (hfit : fitFill im f = .error e) :
    m.drawWith im colours (.fill f) = (m.shade im h (foregroundColour colours), .error e) := by
  have hlaid : im.overlay (.ofGrid .rgba (m.foreground colours))
      = .ok (m.shade im h (foregroundColour colours)) := overlay_classes hd h _
  have hfit' : fitFill (m.shade im h (foregroundColour colours)) f = .error e := by
    rw [← hfit]
    exact fitFill_congr (m.mode_shade h _) ((m.size_shade h _).trans h.symm) f
  rw [drawWith, hlaid]
  dsimp only
  rw [hfit']
  rfl

/-- With a background that fits both steps succeed. -/
theorem drawWith_fit (hd : im.mode.isDrawable = true) (h : im.size = m.size)
    (colours : Array Rgba) (hfit : fitFill im f = .ok fill) :
    ∃ filled, m.drawWith im colours (.fill f) = (filled, .ok ()) ∧
      (m.shade im h (foregroundColour colours)).pasteRegion m.backgroundRegion fill = .ok filled ∧
      filled.mode = im.mode ∧ filled.size = im.size := by
  have hlaid : im.overlay (.ofGrid .rgba (m.foreground colours))
      = .ok (m.shade im h (foregroundColour colours)) := overlay_classes hd h _
  have hsize : (m.shade im h (foregroundColour colours)).size = im.size :=
    (m.size_shade h _).trans h.symm
  have hfit' : fitFill (m.shade im h (foregroundColour colours)) f = .ok fill := by
    rw [← hfit]
    exact fitFill_congr (m.mode_shade h _) hsize f
  have hregion : m.backgroundRegion.size = (m.shade im h (foregroundColour colours)).size :=
    (m.size_shade h _).symm
  obtain ⟨filled, hfilled, hmode, hfilledSize⟩ :=
    pasteRegion_of_fitFill (m.isDrawable_shade hd h _) hregion hfit'
  refine ⟨filled, ?_, hfilled, hmode, hfilledSize.trans hsize⟩
  rw [drawWith, hlaid]
  dsimp only
  rw [hfit', show (Except.ok fill >>= _ : Outcome Image) = _ from hfilled]

/-- On an image that cannot be drawn on neither step is taken. -/
theorem drawWith_not_drawable (hd : ¬im.mode.isDrawable = true) (colours : Array Rgba)
    (background : Background) :
    m.drawWith im colours background = (im, .error (.notDrawable im.mode.name)) := by
  cases background with
  | none => rw [drawWith, overlay_not_drawable hd]
  | fill f => rw [drawWith, overlay_not_drawable hd]

/-- **Drawing keeps the size and the mode**, with whatever background. -/
theorem drawWith_keeps (h : im.size = m.size) (colours : Array Rgba) (background : Background) :
    (m.drawWith im colours background).1.mode = im.mode ∧
      (m.drawWith im colours background).1.size = im.size := by
  by_cases hd : im.mode.isDrawable = true
  · cases background with
    | none =>
        rw [drawWith_none hd h]
        exact ⟨rfl, h.symm⟩
    | fill f =>
        cases hfit : fitFill im f with
        | error e =>
            rw [drawWith_unfit hd h colours hfit]
            exact ⟨rfl, h.symm⟩
        | ok fill =>
            obtain ⟨filled, hfilled, -, hmode, hsize⟩ := drawWith_fit hd h colours hfit
            rw [hfilled]
            exact ⟨hmode, hsize⟩
  · rw [drawWith_not_drawable hd]
    exact ⟨rfl, rfl⟩

/-- What fails with a background that fits leaves the image as it was. -/
theorem drawWith_failed (h : im.size = m.size) {colours : Array Rgba} {background : Background}
    (hfit : background.Fits im) (hfail : (m.drawWith im colours background).2 = .error e) :
    (m.drawWith im colours background).1 = im := by
  by_cases hd : im.mode.isDrawable = true
  · exfalso
    cases background with
    | none =>
        rw [drawWith_none hd h] at hfail
        cases hfail
    | fill f =>
        have him : 0 < im.width ∧ 0 < im.height := by
          have hw : im.width = m.cells.width := congrArg Prod.fst h
          have hh : im.height = m.cells.height := congrArg Prod.snd h
          rw [hw, hh]
          exact m.nonempty
        obtain ⟨fill, hfill⟩ := fitFill_of_fits him hfit
        obtain ⟨filled, hfilled, -⟩ := drawWith_fit hd h colours hfill
        rw [hfilled] at hfail
        cases hfail
  · rw [drawWith_not_drawable hd]

/-- **Drawing is all or nothing with a background that fits**: if it fails, the image is as it was.
Size and mode are kept in any case. With a background that does not fit, an image that could be
drawn on is left with the other classes highlighted. -/
theorem draw_allOrNothing (m : Mask) (im : Image) (t : Transparency) (background : Background)
    (g : Random.Generator) :
    (m.draw im t background g).image.mode = im.mode ∧
    (m.draw im t background g).image.size = im.size ∧
    (∀ e, background.Fits im → (m.draw im t background g).outcome = .error e →
      (m.draw im t background g).image = im) ∧
    ∀ (f : LooseFill) (e : Failure) (h : im.size = m.size) (colours : Array Rgba)
      (g' : Random.Generator), im.mode.isDrawable = true → m.palette t g = (.ok colours, g') →
      background = .fill f → fitFill im f = .error e →
      m.draw im t background g = ⟨m.shade im h (foregroundColour colours), g', .error e⟩ := by
  by_cases h : im.size = m.size
  · rcases hpalette : m.palette t g with ⟨palette, g'⟩
    cases palette with
    | error e =>
        rw [draw_palette_error h hpalette]
        refine ⟨rfl, rfl, fun _ _ _ => rfl, ?_⟩
        intro f e' _ colours g'' _ hcolours
        cases hcolours
    | ok colours =>
        rw [draw_palette_ok h hpalette]
        -- only here is something drawn; before, the image is the one that was given
        obtain ⟨hmode, hsize⟩ := drawWith_keeps h colours background
        refine ⟨hmode, hsize, fun e hfit hfail => drawWith_failed h hfit hfail, ?_⟩
        rintro f e _ colours' g'' hd hcolours rfl hunfit
        cases hcolours
        rw [drawWith_unfit hd h colours hunfit]
  · rw [draw_size_ne h]
    refine ⟨rfl, rfl, fun _ _ _ => rfl, ?_⟩
    intro f e hsame
    exact absurd hsame h

/-- A mask of two pixels, one of them in class 0. -/
def hillMask : Mask := ⟨["sky", "hill"], ⟨2, 1, ⟨[0, 1]⟩, rfl⟩, by decide, by decide, by decide⟩

def hillImage : Image := .blank .rgb 2 1 ⟨10, 20, 30, 255⟩

/-- A generator in the middle of its words. -/
def hillGenerator : Random.Generator := ⟨Array.replicate Random.stateSize 7, 5⟩

def shortColour : LooseFill := .numbers (.list [.int 1, .int 2])

/-- A transparency out of range is refused before the image changes, a colour that is too short is
not. -/
theorem draw_allOrNothing_hill :
    (Background.ofDatum (.int 0)).Fits hillImage ∧
    (hillMask.draw hillImage (.whole 2) (.ofDatum (.int 0)) hillGenerator).outcome
      = .error (.transparencyOutside (Number.intText 2)) ∧
    (hillMask.draw hillImage (.whole 2) (.ofDatum (.int 0)) hillGenerator).image = hillImage ∧
    fitFill hillImage shortColour = .error (.plain .type) ∧
    ∃ colours g', hillMask.palette (.level 0.5) hillGenerator = (.ok colours, g') ∧
      hillMask.draw hillImage (.level 0.5) (.fill shortColour) hillGenerator
        = ⟨hillMask.shade hillImage rfl (foregroundColour colours), g', .error (.plain .type)⟩ := by
  have hfit : (Background.ofDatum (.int 0)).Fits hillImage := Background.fits_whole hillImage 0
  obtain ⟨-, -, hkept, -⟩ :=
    draw_allOrNothing hillMask hillImage (.whole 2) (.ofDatum (.int 0)) hillGenerator
  obtain ⟨-, -, -, hleft⟩ :=
    draw_allOrNothing hillMask hillImage (.level 0.5) (.fill shortColour) hillGenerator
  exact ⟨hfit, rfl, hkept _ hfit rfl, rfl, _, _, rfl, hleft _ _ rfl _ _ rfl rfl rfl rfl⟩

/-- A colour of four components, the second of which does not fit in 32 bits. -/
def wideColour : LooseFill := .numbers (.list [.int 1, .int 0x80000000, .int 3, .int 255])

/-- **A background that does not fit is found out too late**: drawing fails, and yet the image is
another one. -/
theorem draw_unfit_hill :
    ((∃ e, (hillMask.draw hillImage (.level 0.5) (.fill shortColour) hillGenerator).outcome
        = .error e) ∧
      (hillMask.draw hillImage (.level 0.5) (.fill shortColour) hillGenerator).image ≠ hillImage) ∧
    (∃ e, (hillMask.draw hillImage (.level 0.5) (.fill wideColour) hillGenerator).outcome
        = .error e) ∧
      (hillMask.draw hillImage (.level 0.5) (.fill wideColour) hillGenerator).image ≠ hillImage := by
  have hdiffers (a b : Image) (h : a.pixels.cells.toList ≠ b.pixels.cells.toList) : a ≠ b :=
    fun hsame => h (congrArg (fun im : Image => im.pixels.cells.toList) hsame)
  constructor
  · exact ⟨⟨_, rfl⟩, hdiffers _ _ (by decide +kernel)⟩
  · exact ⟨⟨_, rfl⟩, hdiffers _ _ (by decide +kernel)⟩

end Mask

end Perception
