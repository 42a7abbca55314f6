import Perception.Proofs.Mask.Plot

set_option autoImplicit false

/-! # Masks on images of another size

Drawing a mask refuses an image of another size, a plot never looks at the sizes: where the mask ends
the image shows, and what of the mask is beyond the image is left out (`Plot.get?_canvasOf_clipped`).
So a plot refuses what drawing refuses if the sizes agree, and if the transparency is improper, and
not otherwise: `Plot.make_anySize`.
-/

namespace Perception

open Outcome

variable {m : Mask} {im : Image} {x : Float} {g : Random.Generator}

/-- The operation failed with a complaint about a value. -/
def Outcome.IsRefused {α : Type} (o : Outcome α) : Prop := ∃ e, o = .error e ∧ e.kind.isValue = true

theorem Outcome.not_isRefused_ok {α : Type} (a : α) : ¬IsRefused (.ok a : Outcome α) := by
  rintro ⟨e, he, -⟩
  cases he

/-! ## Drawing -/

theorem Mask.palette_outside (h : ¬(0.0 ≤ x ∧ x ≤ 1.0)) :
    m.palette (.level x) g = (.error (.transparencyOutside (Number.text x)), g) := by
  have halpha : (Transparency.level x).alpha = .error (.transparencyOutside (Number.text x)) :=
    if_neg h
  rw [palette, halpha]

/-- **Drawing on the image in full colour** refuses another size and an improper transparency, and
succeeds otherwise. -/
theorem Mask.draw_convert_cases (m : Mask) (im : Image) (x : Float) (g : Random.Generator) :
    (im.size = m.size ∧ (0.0 ≤ x ∧ x ≤ 1.0) ∧
        (m.draw (im.convert .rgba) (.level x) .none g).outcome = .ok ()) ∨
      ((im.size ≠ m.size ∨ ¬(0.0 ≤ x ∧ x ≤ 1.0)) ∧
        (m.draw (im.convert .rgba) (.level x) .none g).outcome.IsRefused) := by
  by_cases hsize : im.size = m.size
  · by_cases hproper : 0.0 ≤ x ∧ x ≤ 1.0
    · obtain ⟨colours, g', hpalette, -⟩ := m.palette_of_isProper (t := .level x) hproper g
      exact Or.inl ⟨hsize, hproper, congrArg Drawn.outcome (Plot.draw_convert hsize hpalette)⟩
    · have hfull : (im.convert .rgba).size = m.size := (Image.size_convert .rgba im).trans hsize
      rw [draw_palette_error hfull (palette_outside hproper)]
      exact Or.inr ⟨Or.inr hproper, _, rfl, rfl⟩
  · have hfull : (im.convert .rgba).size ≠ m.size := by rwa [Image.size_convert]
    rw [draw_size_ne hfull]
    exact Or.inr ⟨Or.inl hsize, _, rfl, rfl⟩

theorem Mask.isRefused_draw_convert (m : Mask) (im : Image) (x : Float) (g : Random.Generator) :
    (m.draw (im.convert .rgba) (.level x) .none g).outcome.IsRefused ↔
      im.size ≠ m.size ∨ ¬(0.0 ≤ x ∧ x ≤ 1.0) := by
  rcases m.draw_convert_cases im x g with ⟨hsize, hproper, hok⟩ | ⟨hout, hrefused⟩
  · rw [hok]
    refine iff_of_false (not_isRefused_ok ()) ?_
    rintro (hne | hno)
    · exact hne hsize
    · exact hno hproper
  · exact iff_of_true hrefused hout

/-! ## Plotting -/

namespace Plot

/-- **A canvas of any size**: a place of the image has the colour of its class laid over it if the
mask has that place, and is as in the image if not. -/
theorem get?_canvasOf_clipped (im : Image) (m : Mask) (colours : Array Rgba) (a b : Nat) :
    (canvasOf im (m.layer colours)).pixels.get? a b
      = ((im.convert .rgba).pixels.get? a b).map fun q =>
          match m.cells.get? a b with
          | some c => (colours.getD c Rgba.clear).composite q
          | none => q := by
  have hsize : (im.convert .rgba).pixels.size = (canvasOf im (m.layer colours)).pixels.size := rfl
  cases hq : (im.convert .rgba).pixels.get? a b with
  | none => exact Grid.get?_eq_none hsize hq
  | some q =>
      rw [get?_canvasOf_of_get? hq, get?_layer]
      cases m.cells.get? a b <;> rfl

variable {args : Datum}

theorem run_make_outside (hknown : ∀ e ∈ args.entries, ∃ k ∈ argumentNames, e.1 = .text k)
    (hx : args.get "transparency" = .float x) (h : ¬(0.0 ≤ x ∧ x ≤ 1.0)) (s : Session) :
    (make im m args).run s = (.error (.transparencyOutside (Number.text x)), s) := by
  have hasked : (asked args).run s = (.ok (.float x), s) := by
    unfold asked
    rw [hx]
    rfl
  rw [make_eq hknown, run_bind_ok hasked]
  show (Session.ofOutcome (m.palette (.level x) s.streams.arrays).1 >>= fun colours =>
      Session.ofOutcome (extentOf ((args.find? "figsize").getD usualExtent)) >>= fun extent =>
        pure (inColours im m args colours extent)).run
      { s with streams := { s.streams with
        arrays := (m.palette (.level x) s.streams.arrays).2 } } = _
  rw [Mask.palette_outside h]
  rfl

theorem run_make_proper (hknown : ∀ e ∈ args.entries, ∃ k ∈ argumentNames, e.1 = .text k)
    (hextent : ∀ e, args.find? "figsize" = some e → ∃ extent, extentOf e = .ok extent)
    (hx : args.get "transparency" = .float x) (h : 0.0 ≤ x ∧ x ≤ 1.0) (m : Mask) (im : Image)
    (s : Session) : ∃ colours g extent, m.palette (.level x) s.streams.arrays = (.ok colours, g) ∧
      (make im m args).run s = (.ok (inColours im m args colours extent),
        { s with streams := { s.streams with arrays := g } }) := by
  obtain ⟨colours, g, hpalette, -⟩ := m.palette_of_isProper (t := .level x) h s.streams.arrays
  obtain ⟨extent, hextent⟩ := exists_extentOf hextent
  have hgiven : AskedFor args s (.float x) s := by
    rw [← hx]
    exact .given (by rw [hx]; exact Datum.noConfusion)
  exact ⟨colours, g, extent, hpalette, run_make hknown hgiven hpalette hextent⟩

theorem isRefused_make (hknown : ∀ e ∈ args.entries, ∃ k ∈ argumentNames, e.1 = .text k)
    (hextent : ∀ e, args.find? "figsize" = some e → ∃ extent, extentOf e = .ok extent)
    (hx : args.get "transparency" = .float x) (m : Mask) (im : Image) (s : Session) :
    IsRefused ((make im m args).run s).1 ↔ ¬(0.0 ≤ x ∧ x ≤ 1.0) := by
  by_cases hproper : 0.0 ≤ x ∧ x ≤ 1.0
  · obtain ⟨colours, g, extent, -, hrun⟩ := run_make_proper hknown hextent hx hproper m im s
    rw [hrun]
    exact iff_of_false (not_isRefused_ok _) (not_not_intro hproper)
  · rw [run_make_outside hknown hx hproper s]
    exact iff_of_true ⟨_, rfl, rfl⟩ hproper

/-- **A plot does not look at the sizes.** With a given transparency it is refused exactly if that is
not from 0 to 1. Drawing on the image in full colour is refused in that case too, and also if image
and mask differ in size. So the two refuse the same images and transparencies as far as the sizes
agree, and differ on every image of another size with a proper transparency: there the plot shows the
image, with the classes laid over the places that the mask has too. Neither fails in another way. -/
theorem make_anySize (hknown : ∀ e ∈ args.entries, ∃ k ∈ argumentNames, e.1 = .text k)
    (hextent : ∀ e, args.find? "figsize" = some e → ∃ extent, extentOf e = .ok extent)
    (hx : args.get "transparency" = .float x) (m : Mask) (im : Image) (s : Session) :
    let plotted : Outcome Plot := ((make im m args).run s).1
    let drawn : Outcome Unit := (m.draw (im.convert .rgba) (.level x) .none s.streams.arrays).outcome
    (plotted.IsRefused ↔ ¬(0.0 ≤ x ∧ x ≤ 1.0)) ∧
      (drawn.IsRefused ↔ im.size ≠ m.size ∨ ¬(0.0 ≤ x ∧ x ≤ 1.0)) ∧
      ((plotted.IsRefused ↔ drawn.IsRefused) ↔ im.size = m.size ∨ ¬(0.0 ≤ x ∧ x ≤ 1.0)) ∧
      (drawn = .ok () ∨ drawn.IsRefused) ∧
      (plotted.IsRefused ∨ ∃ p colours, plotted = .ok p ∧
        m.palette (.level x) s.streams.arrays = (.ok colours, ((make im m args).run s).2.streams.arrays) ∧
        p.canvas.size = im.size ∧
        ∀ a b, p.canvas.pixels.get? a b = ((im.convert .rgba).pixels.get? a b).map fun q =>
          match m.cells.get? a b with
          | some c => (colours.getD c Rgba.clear).composite q
          | none => q) := by
  intro plotted drawn
  have hplotted : plotted.IsRefused ↔ ¬(0.0 ≤ x ∧ x ≤ 1.0) :=
    isRefused_make hknown hextent hx m im s
  have hdrawn : drawn.IsRefused ↔ im.size ≠ m.size ∨ ¬(0.0 ≤ x ∧ x ≤ 1.0) :=
    m.isRefused_draw_convert im x s.streams.arrays
  refine ⟨hplotted, hdrawn, ?_, ?_, ?_⟩
  · rw [hplotted, hdrawn]
    -- both are refused for an improper transparency, and drawing also for another size
    by_cases hsize : im.size = m.size
    · simp only [hsize, ne_eq, not_true, false_or, true_or]
    · by_cases hproper : 0.0 ≤ x ∧ x ≤ 1.0
      · simp [hsize, hproper]
      · simp [hsize, hproper]
  · rcases m.draw_convert_cases im x s.streams.arrays with ⟨-, -, hok⟩ | ⟨-, hrefused⟩
    · exact Or.inl hok
    · exact Or.inr hrefused
  · by_cases hproper : 0.0 ≤ x ∧ x ≤ 1.0
    · obtain ⟨colours, g, extent, hpalette, hrun⟩ :=
        run_make_proper hknown hextent hx hproper m im s
      refine Or.inr ⟨_, colours, congrArg Prod.fst hrun, ?_, Image.size_convert .rgba im,
        get?_canvasOf_clipped im m colours⟩
      rw [hrun]
      exact hpalette
    · exact Or.inl (hplotted.mpr hproper)

def narrowHill : Image := .ofGrid .grey ⟨1, 1, #[⟨10, 10, 10, 255⟩], rfl⟩

/-- The arguments of a plot for which only the transparency is given. -/
def withTransparency (x : Float) : Datum := .object [("transparency", .float x)]

theorem withTransparency_known :
    ∀ e ∈ (withTransparency x).entries, ∃ k ∈ argumentNames, e.1 = .text k := by
  intro e he
  obtain rfl : e = (.text "transparency", .float x) := List.mem_singleton.mp he
  exact ⟨"transparency", List.mem_cons_self, rfl⟩

theorem withTransparency_figsize : ∀ e, (withTransparency x).find? "figsize" = some e →
    ∃ extent, extentOf e = .ok extent := by
  intro e he
  have hnone : (withTransparency x).find? "figsize" = none := rfl
  rw [hnone] at he
  cases he

theorem half_proper : (0.0 : Float) ≤ 0.5 ∧ (0.5 : Float) ≤ 1.0 :=
  ⟨by decide +kernel, by decide +kernel⟩

theorem make_anySize_narrow :
    (∀ e ∈ (withTransparency 0.5).entries, ∃ k ∈ argumentNames, e.1 = .text k) ∧
      (∀ e, (withTransparency 0.5).find? "figsize" = some e → ∃ extent, extentOf e = .ok extent) ∧
      (withTransparency 0.5).get "transparency" = .float 0.5 ∧
      narrowHill.size = (1, 1) ∧ Mask.hillMask.size = (2, 1) ∧
      ∃ p, ((make narrowHill Mask.hillMask (withTransparency 0.5)).run Settings.sampleStart).1 = .ok p ∧
        p.canvas.size = (1, 1) := by
  obtain ⟨hrefused, -, -, -, hplot⟩ := make_anySize (x := 0.5) withTransparency_known
    withTransparency_figsize rfl Mask.hillMask narrowHill Settings.sampleStart
  rcases hplot with hplot | ⟨p, colours, hp, -, hsize, -⟩
  · exact absurd half_proper (hrefused.mp hplot)
  · exact ⟨withTransparency_known, withTransparency_figsize, rfl, rfl, rfl, p, hp, hsize⟩

/-- **A plot is made where drawing is refused**: of an image with less room than the mask. -/
theorem make_narrow : ¬∀ (m : Mask) (im : Image) (x : Float) (s : Session),
    IsRefused ((make im m (withTransparency x)).run s).1 ↔
      IsRefused (m.draw (im.convert .rgba) (.level x) .none s.streams.arrays).outcome := by
  intro h
  obtain ⟨colours, g, extent, -, hmade⟩ := run_make_proper withTransparency_known
    withTransparency_figsize rfl half_proper Mask.hillMask narrowHill Settings.sampleStart
  have hrefused : IsRefused (Mask.hillMask.draw (narrowHill.convert .rgba) (.level 0.5) .none
      Settings.sampleStart.streams.arrays).outcome := ⟨.maskSize (1, 1) (2, 1), rfl, rfl⟩
  have hplot := (h Mask.hillMask narrowHill 0.5 Settings.sampleStart).mpr hrefused
  rw [hmade] at hplot
  exact not_isRefused_ok _ hplot

end Plot

end Perception
