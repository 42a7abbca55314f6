import Perception.Proofs.Drawing.Solid
import Perception.Proofs.Mask.Gallery
import Perception.Proofs.Session

set_option autoImplicit false

/-! # What a plot shows

The canvas of a plot is the image in full colour with the mask drawn on it, from the same randomness
and with the same draws, and the legend has the classes that occur, in order, in the colours they are
drawn in (`Plot.make_shows_draw`). The canvas is put together in its own way, cell by cell
(`Plot.canvasOf`); that drawing gives the same is seen place by place (`Plot.canvasOf_eq_shade`).
-/

namespace Perception

open Outcome

namespace Plot

open Image

variable {m : Mask} {im : Image} {colours : Array Rgba}

/-! ## The canvas -/

/-- What the canvas has at a place of the image: what the layer has there is laid over the image in
full colour, if the layer has that place. -/
theorem get?_canvasOf_of_get? {layer : Grid Rgba} {x y : Nat} {q : Rgba}
    (hq : (im.convert .rgba).pixels.get? x y = some q) :
    (canvasOf im layer).pixels.get? x y
      = some (match layer.get? x y with
          | some s => s.composite q
          | none => q) := by
  have hplace : x < (im.convert .rgba).width ∧ y < (im.convert .rgba).height := Grid.lt_of_get? hq
  unfold canvasOf
  rw [get?_redrawn, Grid.get?_ofFn _ _ _ hplace, hq, mode_convert]
  cases layer.get? x y <;> rfl

theorem get?_layer (m : Mask) (colours : Array Rgba) (x y : Nat) :
    (m.layer colours).get? x y
      = (m.cells.get? x y).map fun c => colours.getD c Rgba.clear :=
  Grid.get?_map _ m.cells x y

/-- **The canvas is the image in full colour under the layer of the mask.** -/
theorem canvasOf_eq_shade (h : (im.convert .rgba).size = m.size) (colours : Array Rgba) :
    canvasOf im (m.layer colours)
      = m.shade (im.convert .rgba) h fun c => colours.getD c Rgba.clear := by
  have hsize : (canvasOf im (m.layer colours)).size = (im.convert .rgba).size := rfl
  have hmode : (im.convert .rgba).mode = .rgba := mode_convert .rgba im
  refine eq_of_keptAt fun x y => ⟨⟨?_, ?_, ?_⟩, ?_⟩
  · rw [Mask.mode_shade]
    rfl
  · rw [hsize, Mask.size_shade, ← h]
  · rcases Grid.get?_cases (a := m.cells) (b := (im.convert .rgba).pixels) h.symm x y with
      ⟨-, hnone⟩ | ⟨c, p, hc, hp⟩
    · -- all three have one size, so there is no pixel in any of them
      have hcanvas : (im.convert .rgba).pixels.size = (canvasOf im (m.layer colours)).pixels.size :=
        hsize.symm
      have hshade : (im.convert .rgba).pixels.size
          = (m.shade (im.convert .rgba) h fun c => colours.getD c Rgba.clear).pixels.size := h
      rw [Grid.get?_eq_none hcanvas hnone, Grid.get?_eq_none hshade hnone]
    · rw [Mask.get?_shade_of_get? h _ hc hp, get?_canvasOf_of_get? hp, get?_layer, hc, hmode]
      rfl
  · rw [Mask.key_shade]
    rfl

/-- What the canvas has at a place: the colour of the class laid over the image in full colour. -/
theorem get?_canvasOf (h : im.size = m.size) (colours : Array Rgba) {x y c : Nat} {q : Rgba}
    (hc : m.cells.get? x y = some c) (hq : (im.convert .rgba).pixels.get? x y = some q) :
    (canvasOf im (m.layer colours)).pixels.get? x y
      = some ((colours.getD c Rgba.clear).composite q) := by
  rw [canvasOf_eq_shade ((size_convert .rgba im).trans h), Mask.get?_shade_of_get? _ _ hc hq,
    mode_convert]
  rfl

/-- Drawing on the image in full colour gives the canvas. -/
theorem draw_convert (h : im.size = m.size) {t : Transparency} {g g' : Random.Generator}
    (hpalette : m.palette t g = (.ok colours, g')) :
    m.draw (im.convert .rgba) t .none g = ⟨canvasOf im (m.layer colours), g', .ok ()⟩ := by
  have hsize : (im.convert .rgba).size = m.size := (size_convert .rgba im).trans h
  have hd : (im.convert .rgba).mode.isDrawable = true := by
    rw [mode_convert]
    rfl
  rw [Mask.draw_palette_ok hsize hpalette, Mask.drawWith_none hd hsize, canvasOf_eq_shade hsize]

/-- So does drawing on an image that can be drawn on, if it is converted afterwards and has no key:
the conversion makes clear whatever was drawn in the colour of the key. -/
theorem draw_then_convert (hd : im.mode.isDrawable = true) (hkey : im.key = none)
    (h : im.size = m.size) {t : Transparency} {g g' : Random.Generator}
    (hpalette : m.palette t g = (.ok colours, g')) :
    ∃ w, m.draw im t .none g = ⟨w, g', .ok ()⟩ ∧
      w.convert .rgba = canvasOf im (m.layer colours) := by
  have hfull := draw_convert h hpalette
  rw [Mask.draw_palette_ok ((size_convert .rgba im).trans h) hpalette] at hfull
  refine ⟨(m.drawWith im colours .none).1, ?_, ?_⟩
  · rw [Mask.draw_palette_ok h hpalette, Mask.drawWith_none hd h]
  · have hcanvas : (m.drawWith (im.convert .rgba) colours .none).1
        = canvasOf im (m.layer colours) := congrArg Mask.Drawn.image hfull
    rw [← hcanvas]
    rcases mode_of_isDrawable hd with hmode | hmode
    · -- without alpha, what was drawn and its conversion have the same pixels
      have hsolid : Mask.Background.none.IsSolid := trivial
      obtain ⟨halike, -⟩ := Mask.alike_drawWith (alike_convert hmode hkey) m colours hsolid
      have hdrawn : (m.drawWith im colours .none).1.key = none := by
        rw [Mask.drawWith_none hd h, Mask.key_shade, hkey]
      have hback := alike_convert halike.plain hdrawn
      have hnone {w : Image} (hw : w.mode = .rgba) : w.key = none := w.keyed (by rw [hw]; rfl)
      exact Image.ext (hback.full.trans halike.full.symm)
        (hback.pixels.trans halike.pixels.symm)
        ((hnone hback.full).trans (hnone halike.full).symm)
    · have hkept : (m.drawWith im colours .none).1.mode = .rgba := by
        rw [Mask.drawWith_none hd h, Mask.mode_shade, hmode]
      rw [show im.convert .rgba = im from if_pos hmode]
      exact if_pos hkept

/-! ## The legend -/

theorem mem_present {c : Nat} : c ∈ present m ↔ c ∈ m.cells.cells := by
  rw [present, List.mem_filter, List.mem_range, Array.contains_iff_mem]
  exact ⟨fun h => h.2, fun h => ⟨m.inRange c h, h⟩⟩

theorem pairwise_present (m : Mask) : (present m).Pairwise (· < ·) :=
  List.pairwise_lt_range.filter _

/-- A palette with a colour for every class has one for each class that occurs. -/
theorem exists_colour (hn : colours.size = m.classes.length) {c : Nat} (hc : c ∈ m.cells.cells) :
    colours[c]? = some (colours.getD c Rgba.clear) := by
  have hlt : c < colours.size := hn ▸ m.inRange c hc
  rw [Array.getD_eq_getD_getElem?, Array.getElem?_eq_getElem hlt]
  rfl

/-- An entry of the legend has the name of its class, and its colour in the palette, made solid. -/
theorem forall_legendOf (hn : colours.size = m.classes.length) :
    List.Forall₂ (fun c entry => m.classes[c]? = some entry.1 ∧
      ∃ colour, colours[c]? = some colour ∧ entry.2 = { colour with a := 255 })
      (present m) (legendOf m colours) := by
  rw [legendOf, List.forall₂_map_right_iff, List.forall₂_same]
  intro c hc
  have hcell : c ∈ m.cells.cells := mem_present.mp hc
  refine ⟨?_, _, exists_colour hn hcell, rfl⟩
  rw [List.getD_eq_getElem?_getD, List.getElem?_eq_getElem (m.inRange c hcell)]
  rfl

/-! ## The plot -/

/-- The transparency that a plot is asked for: the one that is given, or else that of the settings,
which are read then if they were not yet. -/
inductive AskedFor (args : Datum) (s : Session) : Datum → Session → Prop
  | given (h : args.get "transparency" ≠ .null) : AskedFor args s (args.get "transparency") s
  | setting {d : Datum} {t : Session} (h : args.get "transparency" = .null)
      (hd : (Session.setting Settings.maskTransparency).run s = (.ok d, t)) : AskedFor args s d t

theorem AskedFor.streams_eq {args d : Datum} {s t : Session} (h : AskedFor args s d t) :
    t.streams = s.streams := by
  cases h with
  | given h => rfl
  | setting h hd =>
      have hsame := Session.ignoresStreams_setting Settings.maskTransparency s s.streams
      have hs : ({ s with streams := s.streams } : Session) = s := rfl
      rw [hs, hd] at hsame
      exact congrArg (fun r : Outcome Datum × Session => r.2.streams) hsame

/-- A plot may be of its usual extent. -/
theorem exists_extentOf_usualExtent : ∃ e, extentOf usualExtent = .ok e := by
  have h : (extentOf usualExtent).toBool = true := by decide +kernel
  cases he : extentOf usualExtent with
  | ok e => exact ⟨e, rfl⟩
  | error e =>
      rw [he] at h
      cases h

/-- So a plot has an extent if none is asked for that it may not have. -/
theorem exists_extentOf {args : Datum}
    (hextent : ∀ e, args.find? "figsize" = some e → ∃ extent, extentOf e = .ok extent) :
    ∃ extent, extentOf ((args.find? "figsize").getD usualExtent) = .ok extent := by
  cases hfind : args.find? "figsize" with
  | none => exact exists_extentOf_usualExtent
  | some e => exact hextent e hfind

def inColours (im : Image) (m : Mask) (args : Datum) (colours : Array Rgba)
    (extent : Float × Float) : Plot where
  canvas := canvasOf im (m.layer colours)
  title := titleOf (args.get "title")
  extent := extent
  legend := legendOf m colours
  place := if ((args.find? "legend_outside").getD (.bool true)).isTruthy then "center left"
    else "best"

def asked (args : Datum) : SessionM Datum :=
  match args.get "transparency" with
  | .null => Session.setting Settings.maskTransparency
  | d => pure d

/-- The plot once its transparency is known. -/
def finish (im : Image) (m : Mask) (args transparency : Datum) : SessionM Plot := do
  let s ← get
  let (colours, g) := m.palette (.ofDatum transparency) s.streams.arrays
  set { s with streams := { s.streams with arrays := g } }
  let colours ← Session.ofOutcome colours
  let extent ← Session.ofOutcome (extentOf ((args.find? "figsize").getD usualExtent))
  return inColours im m args colours extent

theorem make_eq {args : Datum}
    (hknown : ∀ e ∈ args.entries, ∃ k ∈ argumentNames, e.1 = .text k) :
    make im m args = asked args >>= finish im m args := by
  unfold make
  dsimp only
  rw [if_neg]
  · unfold asked
    cases args.get "transparency" <;> rfl
  · rw [Bool.not_eq_true, List.any_eq_false]
    intro e he
    obtain ⟨k, hk, hek⟩ := hknown e he
    rw [hek]
    simpa using hk

/-- A plot is made in the colours of a palette, which is drawn from the randomness for arrays. -/
theorem run_make {args d : Datum} {s t : Session} {g : Random.Generator} {extent : Float × Float}
    (hknown : ∀ e ∈ args.entries, ∃ k ∈ argumentNames, e.1 = .text k) (hd : AskedFor args s d t)
    (hpalette : m.palette (.ofDatum d) t.streams.arrays = (.ok colours, g))
    (hextent : extentOf ((args.find? "figsize").getD usualExtent) = .ok extent) :
    (make im m args).run s = (.ok (inColours im m args colours extent),
      { t with streams := { t.streams with arrays := g } }) := by
  have hasked : (asked args).run s = (.ok d, t) := by
    unfold asked
    cases hd with
    | given h =>
        cases hd : args.get "transparency" with
        | null => exact absurd hd h
        | _ => rfl
    | setting h hd =>
        rw [h]
        exact hd
  rw [make_eq hknown, run_bind_ok hasked]
  -- the generator is advanced before the palette can fail, and the extent is looked at last
  show (Session.ofOutcome (m.palette (.ofDatum d) t.streams.arrays).1 >>= fun colours =>
      Session.ofOutcome (extentOf ((args.find? "figsize").getD usualExtent)) >>= fun extent =>
        pure (inColours im m args colours extent)).run
      { t with streams := { t.streams with
        arrays := (m.palette (.ofDatum d) t.streams.arrays).2 } } = _
  rw [hpalette, hextent]
  rfl

/-- **A plot shows what drawing draws.** Its canvas is what drawing makes of the image in full colour,
and of the image itself if that can be drawn on and has no key, from the same randomness and with the
same draws. One palette is drawn, with a colour for every class. Its colours are laid over the pixels
of the classes, and the legend has one entry for each class that occurs, in order, with the name of
the class and its colour in the palette. In place, the plot adds its canvas and leaves all images
alone, also the one that it shows. -/
theorem make_shows_draw (h : im.size = m.size) {args d : Datum} {s t : Session}
    (hknown : ∀ e ∈ args.entries, ∃ k ∈ argumentNames, e.1 = .text k)
    (hextent : ∀ e, args.find? "figsize" = some e → ∃ extent, extentOf e = .ok extent)
    (hd : AskedFor args s d t) (hproper : (Transparency.ofDatum d).IsProper) :
    ∃ p colours g, m.palette (.ofDatum d) s.streams.arrays = (.ok colours, g) ∧
      (make im m args).run s = (.ok p, { t with streams := { t.streams with arrays := g } }) ∧
      colours.size = m.classes.length ∧ g = (s.streams.arrays.take (3 * m.classes.length)).2 ∧
      m.draw (im.convert .rgba) (.ofDatum d) .none s.streams.arrays = ⟨p.canvas, g, .ok ()⟩ ∧
      (im.mode.isDrawable = true → im.key = none → ∃ w,
        m.draw im (.ofDatum d) .none s.streams.arrays = ⟨w, g, .ok ()⟩ ∧
          w.convert .rgba = p.canvas) ∧
      (∀ x y c q, m.cells.get? x y = some c → (im.convert .rgba).pixels.get? x y = some q →
        ∃ colour, colours[c]? = some colour ∧
          p.canvas.pixels.get? x y = some (colour.composite q)) ∧
      (∃ order : List Nat, order.Pairwise (· < ·) ∧ (∀ c, c ∈ order ↔ c ∈ m.cells.cells) ∧
        List.Forall₂ (fun c entry => m.classes[c]? = some entry.1 ∧
          ∃ colour, colours[c]? = some colour ∧ entry.2 = { colour with a := 255 })
          order p.legend) ∧
      ∀ (images : List Image) (place : Nat), images[place]? = some im →
        (Gallery.plot m place (.ofDatum d)).run ⟨images, s.streams.arrays⟩
          = (.ok images.length, ⟨images ++ [p.canvas], g⟩) := by
  obtain ⟨colours, g, hpalette, hn⟩ := m.palette_of_isProper hproper s.streams.arrays
  obtain ⟨extent, hextent⟩ := exists_extentOf hextent
  refine ⟨inColours im m args colours extent, colours, g, hpalette, ?_, hn, ?_,
    draw_convert h hpalette, fun hdrawable hkey => draw_then_convert hdrawable hkey h hpalette,
    ?_, ⟨present m, pairwise_present m, fun c => mem_present, forall_legendOf hn⟩, ?_⟩
  · refine run_make hknown hd ?_ hextent
    rw [hd.streams_eq]
    exact hpalette
  · obtain ⟨alpha, halpha⟩ := Transparency.alpha_of_isProper hproper
    -- a proper transparency takes three numbers for each class
    rw [Mask.palette, halpha] at hpalette
    exact (congrArg Prod.snd hpalette).symm
  · intro x y c q hc hq
    exact ⟨_, exists_colour hn (Grid.mem_of_get? hc), get?_canvasOf h colours hc hq⟩
  · intro images place hplace
    exact Gallery.run_plot (s := ⟨images, s.streams.arrays⟩) hplace hpalette

def greyHill : Image := .ofGrid .grey ⟨2, 1, #[⟨10, 10, 10, 255⟩, ⟨90, 90, 90, 255⟩], rfl⟩

/-- A plot of a grey image, as transparent as the packaged settings say. -/
theorem make_shows_draw_hill :
    greyHill.size = Mask.hillMask.size ∧
      AskedFor (.record []) Settings.sampleStart (.float 0.5)
        { Settings.sampleStart with settings := some ⟨none, Settings.packaged⟩ } ∧
      (Transparency.ofDatum (.float 0.5)).IsProper ∧
      ∃ p g, (make greyHill Mask.hillMask (.record [])).run Settings.sampleStart
          = (.ok p, { Settings.sampleStart with
              settings := some ⟨none, Settings.packaged⟩
              streams := { Settings.sampleStart.streams with arrays := g } }) ∧
        Mask.hillMask.draw (greyHill.convert .rgba) (.level 0.5) .none
          Settings.sampleStart.streams.arrays = ⟨p.canvas, g, .ok ()⟩ ∧
        (Gallery.plot Mask.hillMask 0 (.level 0.5)).run
            ⟨[greyHill], Settings.sampleStart.streams.arrays⟩
          = (.ok 1, ⟨[greyHill, p.canvas], g⟩) := by
  have hsize : greyHill.size = Mask.hillMask.size := rfl
  have hasked : AskedFor (.record []) Settings.sampleStart (.float 0.5)
      { Settings.sampleStart with settings := some ⟨none, Settings.packaged⟩ } :=
    .setting rfl rfl
  have hproper : (Transparency.ofDatum (.float 0.5)).IsProper :=
    ⟨by decide +kernel, by decide +kernel⟩
  have hextent : ∀ e, (Datum.record []).find? "figsize" = some e →
      ∃ extent, extentOf e = .ok extent := by
    intro e he
    cases he
  obtain ⟨p, -, g, -, hp, -, -, hdraw, -, -, -, hplace⟩ :=
    make_shows_draw hsize (fun e he => absurd he List.not_mem_nil) hextent hasked hproper
  exact ⟨hsize, hasked, hproper, p, g, hp, hdraw, hplace [greyHill] 0 rfl⟩

end Plot

end Perception
