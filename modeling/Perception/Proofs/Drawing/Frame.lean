import Mathlib.Data.List.Forall2
import Perception.Mask.Canvas
import Perception.Proofs.Mask.Background
import Perception.Proofs.Mask.Places

set_option autoImplicit false

/-! # Drawing stays where it is done

Strokes keep the size and the mode of an image, and a place that no stroke selects
(`Stroke.Selects`) keeps its pixel, however many strokes are made and whether they succeed or fail
(`Canvas.trace_frame`). What a stroke makes of a place depends on that place alone: canvases that are
the same at a place stay so (`Canvas.SameAt.trace`), as long as the strokes are the same there.

The frame is carried by one fact about pixels: whatever is clear changes nothing at all
(`Image.layPixel_clear`), so nothing adds up over many strokes.
-/

namespace Perception

/-! ## What a stroke selects -/

/-- Does a stroke select a place? A layer does where it has some alpha, a region where it is true, a
class where the mask has it and its colour has some alpha. A mask does everywhere if its colours
have some alpha; with a background it does in the places of class 0 in any case. -/
def Stroke.Selects (x y : Nat) : Stroke → Prop
  | .overlay top => ∃ s, (top.convert .rgba).pixels.get? x y = some s ∧ s.a ≠ 0
  | .paste array _ => ∃ region, array.chosen? = some region ∧ region.get? x y = some true
  | .drawClass m chosen colour => ∃ k c, m.cells.get? x y = some k ∧
      Mask.classChooser chosen k = true ∧ Mask.classColour colour = .ok c ∧ c.a ≠ 0
  | .draw m t background => ∃ k, m.cells.get? x y = some k ∧
      ((∃ alpha, t.alpha = .ok alpha ∧ alpha ≠ 0) ∨ (k = 0 ∧ background ≠ .none))

/-- No stroke selects everything: there are places beyond all that it is made of. -/
theorem Stroke.exists_not_selects (s : Stroke) : ∃ x y, ¬s.Selects x y := by
  -- each stroke leaves alone what is to the right of its grid
  cases s with
  | overlay top =>
      refine ⟨(top.convert .rgba).pixels.width, 0, ?_⟩
      rintro ⟨s, htop, -⟩
      rw [Grid.get?_width] at htop
      cases htop
  | paste array fill =>
      cases harray : array.chosen? with
      | none =>
          refine ⟨0, 0, ?_⟩
          rintro ⟨region, hregion, -⟩
          rw [harray] at hregion
          cases hregion
      | some region =>
          refine ⟨region.width, 0, ?_⟩
          rintro ⟨region', hregion, hx⟩
          obtain rfl := Option.some.inj (harray.symm.trans hregion)
          rw [Grid.get?_width] at hx
          cases hx
  | drawClass m chosen colour =>
      refine ⟨m.cells.width, 0, ?_⟩
      rintro ⟨k, c, hk, -⟩
      rw [Grid.get?_width] at hk
      cases hk
  | draw m t background =>
      refine ⟨m.cells.width, 0, ?_⟩
      rintro ⟨k, hk, -⟩
      rw [Grid.get?_width] at hk
      cases hk

/-! ## Strokes that are the same at a place -/

/-- Strokes that are the same at a place of images of a size: their images have one size and show the
same there, their masks have the same class there, and what is given by numbers is the same. A region
has the size, and so have the images that fill places. -/
inductive Stroke.SameAt (size : Size) (x y : Nat) : Stroke → Stroke → Prop
  | overlay {top top' : Image} (h : top.ShowsAt x y top') :
      SameAt size x y (.overlay top) (.overlay top')
  | paste {array array' : ArrayLike} {region region' : Grid Bool} {fill fill' : Image.LooseFill}
      (hregion : array.chosen? = some region) (hregion' : array'.chosen? = some region')
      (hsize : region.size = size) (hsize' : region'.size = size)
      (h : region.get? x y = region'.get? x y) (hfill : fill.ShowsAt x y fill') :
      SameAt size x y (.paste array fill) (.paste array' fill')
  | drawClass {m m' : Mask} (h : m.SameAt x y m') (chosen colour : Datum) :
      SameAt size x y (.drawClass m chosen colour) (.drawClass m' chosen colour)
  | draw {m m' : Mask} (h : m.SameAt x y m') (t : Transparency)
      {background background' : Mask.Background} (hb : background.SameAt size x y background') :
      SameAt size x y (.draw m t background) (.draw m' t background')

namespace Canvas

open Image Mask

variable {c d : Canvas} {x y : Nat}

/-! ## Places that are left alone -/

/-- What holds of a canvas and of all images that an operation makes holds of the canvas after the
operation. -/
theorem accept_image {P : Image → Prop} {o : Outcome Image} (hc : P c.image)
    (ho : ∀ w, o = .ok w → P w) : P (c.accept o).1.image := by
  cases o with
  | error e => exact hc
  | ok w => exact ho w rfl

/-- **A stroke leaves alone what it does not select.** -/
theorem apply_frame (c : Canvas) {s : Stroke} (hs : ¬s.Selects x y) :
    (c.apply s).1.image.KeptAt x y c.image := by
  cases s with
  | overlay top =>
      refine accept_image (P := fun im => im.KeptAt x y c.image) (.refl x y _) fun w hw => ?_
      refine overlay_frame hw fun s htop => ?_
      by_contra ha
      exact hs ⟨s, htop, ha⟩
  | paste array fill =>
      refine accept_image (P := fun im => im.KeptAt x y c.image) (.refl x y _) fun w hw => ?_
      exact pasteArray_frame hw fun region hregion hx => hs ⟨region, hregion, hx⟩
  | drawClass m chosen colour =>
      refine accept_image (P := fun im => im.KeptAt x y c.image) (.refl x y _) fun w hw => ?_
      refine drawLooseClass_frame hw fun k colour hk hchosen hcolour => ?_
      by_contra ha
      exact hs ⟨k, colour, hk, hchosen, hcolour, ha⟩
  | draw m t background =>
      refine draw_frame c.generator fun k hk => ⟨fun alpha halpha => ?_, fun hzero => ?_⟩
      · by_contra ha
        exact hs ⟨k, hk, Or.inl ⟨alpha, halpha, ha⟩⟩
      · by_contra hb
        exact hs ⟨k, hk, Or.inr ⟨hzero, hb⟩⟩

/-- A stroke that selects nothing leaves the image alone. -/
theorem apply_eq_of_not_selects (c : Canvas) {s : Stroke} (hs : ∀ x y, ¬s.Selects x y) :
    (c.apply s).1.image = c.image :=
  eq_of_keptAt fun x y => c.apply_frame (hs x y)

/-- **A stroke keeps the mode and the size**: there are places that it leaves alone. -/
theorem apply_keeps (c : Canvas) (s : Stroke) :
    (c.apply s).1.image.mode = c.image.mode ∧ (c.apply s).1.image.size = c.image.size := by
  obtain ⟨x, y, hxy⟩ := s.exists_not_selects
  exact ⟨(c.apply_frame hxy).mode, (c.apply_frame hxy).size⟩

/-- **Strokes keep the mode and the size**, one after the other. -/
theorem trace_keeps {strokes : List Stroke} {r : Canvas × Outcome Unit}
    (hr : r ∈ c.trace strokes) :
    r.1.image.mode = c.image.mode ∧ r.1.image.size = c.image.size := by
  induction strokes generalizing c with
  | nil => cases hr
  | cons s ss ih =>
      obtain ⟨hmode, hsize⟩ := c.apply_keeps s
      rcases List.mem_cons.mp hr with rfl | hr
      · exact ⟨hmode, hsize⟩
      · exact ⟨(ih hr).1.trans hmode, (ih hr).2.trans hsize⟩

/-- **Strokes leave alone what none of them selects.** -/
theorem trace_frame {strokes : List Stroke} (hs : ∀ s ∈ strokes, ¬s.Selects x y)
    {r : Canvas × Outcome Unit} (hr : r ∈ c.trace strokes) : r.1.image.KeptAt x y c.image := by
  induction strokes generalizing c with
  | nil => cases hr
  | cons s ss ih =>
      have hstep := c.apply_frame (hs s (List.mem_cons_self ..))
      rcases List.mem_cons.mp hr with rfl | hr
      · exact hstep
      · exact (ih (fun s' hs' => hs s' (List.mem_cons_of_mem s hs')) hr).trans hstep

/-! ## Places that are the same -/

/-- Canvases with images that are the same at a place, and the same randomness. -/
structure SameAt (x y : Nat) (c d : Canvas) : Prop where
  image : c.image.SameAt x y d.image
  generator : c.generator = d.generator

theorem SameAt.accept (h : c.SameAt x y d) {o o' : Outcome Image}
    (ho : Outcome.Related (Image.SameAt x y) o o') :
    (c.accept o).1.SameAt x y (d.accept o').1 ∧ (c.accept o).2 = (d.accept o').2 := by
  cases ho with
  | ok hnew => exact ⟨⟨hnew, h.generator⟩, rfl⟩
  | error e => exact ⟨h, rfl⟩

/-- **A stroke keeps canvases the same at a place**, if it is the same there, and succeeds on both or
on none. -/
theorem SameAt.apply (h : c.SameAt x y d) {s s' : Stroke} (hs : s.SameAt c.image.size x y s') :
    (c.apply s).1.SameAt x y (d.apply s').1 ∧ (c.apply s).2 = (d.apply s').2 := by
  cases hs with
  | overlay htop => exact h.accept (h.image.overlay htop)
  | paste hregion hregion' hsize hsize' hplace hfill =>
      exact h.accept (h.image.pasteArray hregion hregion' hsize (hsize.trans hsize'.symm) hplace hfill)
  | drawClass hm chosen colour => exact h.accept (hm.drawLooseClass h.image chosen colour)
  | draw hm t hb =>
      have hdrawn := hm.draw h.image t hb c.generator
      unfold Canvas.apply
      rw [← h.generator]
      exact ⟨⟨hdrawn.image, hdrawn.generator⟩, hdrawn.outcome⟩

/-- **Strokes keep canvases the same at a place**, each in turn. -/
theorem SameAt.trace {size : Size} (h : c.SameAt x y d) (hsize : c.image.size = size)
    {strokes strokes' : List Stroke}
    (hs : List.Forall₂ (Stroke.SameAt size x y) strokes strokes') :
    List.Forall₂ (fun r r' => r.1.SameAt x y r'.1 ∧ r.2 = r'.2)
      (c.trace strokes) (d.trace strokes') := by
  induction hs generalizing c d with
  | nil => exact .nil
  | @cons s s' ss ss' hstroke hrest ih =>
      subst hsize
      have hstep := h.apply hstroke
      -- the size that the strokes are for is still that of the image
      exact .cons hstep (ih hstep.1 (c.apply_keeps s).2)

/-! ## Drawing is confined -/

/-- Colours of transparency 1 are clear. -/
theorem alpha_of_one {t : Transparency}
    (ht : t = .level 1.0 ∨ t = .whole 1 ∨ t = .truth true) : t.alpha = .ok 0 := by
  rcases ht with rfl | rfl | rfl <;> decide +kernel

/-- **Drawing never leaks.** Strokes keep the mode and the size, and the pixel of each place that none
of them selects. So a class that does not occur, a mask of transparency 1 without a background, and
an image pasted onto itself change nothing. And the pixel of a place depends on nothing but what the
image and the strokes had there: on another canvas that is the same there, strokes that are the same
there succeed or fail alike and give the same. -/
theorem trace_confined (c : Canvas) (strokes : List Stroke) :
    (∀ r ∈ c.trace strokes, r.1.image.mode = c.image.mode ∧ r.1.image.size = c.image.size ∧
      ∀ x y, (∀ s ∈ strokes, ¬s.Selects x y) →
        r.1.image.pixels.get? x y = c.image.pixels.get? x y) ∧
    (∀ (m : Mask) (chosen colour : Datum),
      (∀ k ∈ m.cells.cells, Mask.classChooser chosen k = false) →
      (c.apply (.drawClass m chosen colour)).1.image = c.image) ∧
    (∀ (m : Mask) (t : Transparency), t = .level 1.0 ∨ t = .whole 1 ∨ t = .truth true →
      (c.apply (.draw m t .none)).1.image = c.image) ∧
    (∀ array : ArrayLike, (c.apply (.paste array (.picture c.image))).1.image = c.image) ∧
    ∀ (x y : Nat) (d : Canvas) (strokes' : List Stroke), c.SameAt x y d →
      List.Forall₂ (Stroke.SameAt c.image.size x y) strokes strokes' →
      List.Forall₂ (fun r r' => r.1.SameAt x y r'.1 ∧ r.2 = r'.2)
        (c.trace strokes) (d.trace strokes') := by
  refine ⟨fun r hr => ?_, fun m chosen colour hnone => ?_, fun m t ht => ?_, fun array => ?_,
    fun x y d strokes' h hs => h.trace rfl hs⟩
  · obtain ⟨hmode, hsize⟩ := trace_keeps hr
    exact ⟨hmode, hsize, fun x y hs => (trace_frame hs hr).pixel⟩
  · -- no class is chosen, so no place is selected
    refine c.apply_eq_of_not_selects fun x y => ?_
    rintro ⟨k, -, hk, hchosen, -⟩
    rw [hnone k (Grid.mem_of_get? hk)] at hchosen
    cases hchosen
  · refine c.apply_eq_of_not_selects fun x y => ?_
    rintro ⟨k, -, ⟨alpha, halpha, hne⟩ | ⟨-, hne⟩⟩
    · exact hne (Except.ok.inj (halpha.symm.trans (alpha_of_one ht)))
    · exact hne rfl
  · -- what is put in the region is there already
    exact accept_image (P := fun im => im = c.image) rfl fun w hw => pasteArray_self hw

/-- An image of two pixels, the second of which is free. -/
def edgeImage (second : Rgba) : Image := .ofGrid .rgb ⟨2, 1, #[⟨10, 20, 30, 255⟩, second], rfl⟩

/-- A mask of its size, a class of which does not occur. -/
def edgeMask : Mask := ⟨["sky", "sea", "sand"], ⟨2, 1, #[0, 2], rfl⟩, by decide, by decide, by decide⟩

/-- A stroke of each kind. The second pixel is selected at most by those that are laid and pasted. -/
def edgeStrokes (alpha : UInt8) (chosen : Bool) : List Stroke :=
  [.overlay (.ofGrid .rgba ⟨2, 1, #[⟨200, 0, 0, 77⟩, ⟨9, 9, 9, alpha⟩], rfl⟩),
    .paste (.nested (.list [.list [.bool true, .bool chosen]]))
      (.numbers (.list [.int 1, .int 2, .int 3])),
    .drawClass edgeMask (.int 0) (.int 0x80ff0000),
    .draw edgeMask (.whole 1) (.fill (.numbers (.list [.int 7, .int 8, .int 9])))]

theorem chosen?_edge (chosen : Bool) :
    (ArrayLike.nested (.list [.list [.bool true, .bool chosen]])).chosen?
      = some ⟨2, 1, #[true, chosen], rfl⟩ := by
  show Grid.ofArray? 2 1 (#[Datum.bool true, Datum.bool chosen].map Datum.isTruthy) = _
  rw [List.map_toArray]
  rfl

theorem edgeStrokes_not_selects : ∀ s ∈ edgeStrokes 0 false, ¬s.Selects 1 0 := by
  intro s hs
  simp only [edgeStrokes, List.mem_cons, List.not_mem_nil, or_false] at hs
  rcases hs with rfl | rfl | rfl | rfl
  · rintro ⟨s, htop, ha⟩
    rw [pixels_convert_ofGrid] at htop
    obtain rfl := Option.some.inj htop
    exact ha rfl
  · rintro ⟨region, hregion, hx⟩
    rw [chosen?_edge] at hregion
    obtain rfl := Option.some.inj hregion
    cases hx
  · rintro ⟨k, c, hk, hchosen, -⟩
    obtain rfl := Option.some.inj hk
    cases hchosen
  · rintro ⟨k, hk, ⟨alpha, halpha, ha⟩ | ⟨hzero, -⟩⟩
    · rw [alpha_of_one (Or.inr (Or.inl rfl))] at halpha
      exact ha (Except.ok.inj halpha).symm
    · obtain rfl := Option.some.inj hk
      cases hzero

theorem edgeStrokes_sameAt :
    List.Forall₂ (Stroke.SameAt (2, 1) 0 0) (edgeStrokes 0 false) (edgeStrokes 55 true) := by
  have hmask : edgeMask.SameAt 0 0 edgeMask := ⟨rfl, rfl, rfl⟩
  have htop : (ofGrid .rgba ⟨2, 1, #[⟨200, 0, 0, 77⟩, ⟨9, 9, 9, 0⟩], rfl⟩).SameAt 0 0
      (ofGrid .rgba ⟨2, 1, #[⟨200, 0, 0, 77⟩, ⟨9, 9, 9, 55⟩], rfl⟩) := sameAt_ofGrid .rgba rfl rfl
  refine .cons (.overlay (htop.showsAt rfl)) (.cons ?_ (.cons (.drawClass hmask _ _) (.cons ?_ .nil)))
  · exact .paste (chosen?_edge false) (chosen?_edge true) rfl rfl rfl (.numbers _)
  · exact .draw hmask _ (.numbers _)

theorem trace_confined_edge :
    let c : Canvas := ⟨edgeImage ⟨40, 50, 60, 255⟩, .ofSeed 1⟩
    let d : Canvas := ⟨edgeImage ⟨70, 80, 90, 255⟩, .ofSeed 1⟩
    (∀ r ∈ c.trace (edgeStrokes 0 false),
      r.1.image.size = (2, 1) ∧ r.1.image.pixels.get? 1 0 = some ⟨40, 50, 60, 255⟩) ∧
    (c.apply (.drawClass edgeMask (.int 1) (.int 0x80ff0000))).1.image = c.image ∧
    (c.apply (.draw edgeMask (.level 1.0) .none)).1.image = c.image ∧
    List.Forall₂ (fun r r' => r.1.image.pixels.get? 0 0 = r'.1.image.pixels.get? 0 0 ∧ r.2 = r'.2)
      (c.trace (edgeStrokes 0 false)) (d.trace (edgeStrokes 55 true)) := by
  intro c d
  obtain ⟨hframe, hclass, hclear, -, hlocal⟩ := trace_confined c (edgeStrokes 0 false)
  have hcd : c.SameAt 0 0 d := ⟨sameAt_ofGrid .rgb rfl rfl, rfl⟩
  refine ⟨fun r hr => ?_, hclass _ _ _ (by decide), hclear _ _ (Or.inl rfl), ?_⟩
  · obtain ⟨-, hsize, hkept⟩ := hframe r hr
    refine ⟨hsize, (hkept 1 0 edgeStrokes_not_selects).trans ?_⟩
    exact get?_ofGrid .rgb _ 1 0
  · exact (hlocal 0 0 d _ hcd edgeStrokes_sameAt).imp fun r r' h => ⟨h.1.image.pixel, h.2⟩

end Canvas

end Perception
