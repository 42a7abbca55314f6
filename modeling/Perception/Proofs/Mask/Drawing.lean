import Perception.Mask.Drawing
import Perception.Proofs.Image.Drawing
import Perception.Proofs.NdArray.Nested

set_option autoImplicit false

/-! # What drawing masks gives

For each way to draw a mask, when it succeeds and what the image is then, beside the equations for
images that it rests on.
-/

namespace Perception

def Rgba.toDatum (c : Rgba) : Datum := .list (c.toList.map fun b => .int b.toNat)

namespace Mask

open NdArray

/-! ## Sizes -/

theorem checkSize_of_eq {m : Mask} {im : Image} (h : im.size = m.size) :
    m.checkSize im = .ok () := by
  rw [checkSize, if_pos h]

theorem checkSize_of_ne {m : Mask} {im : Image} (h : im.size ≠ m.size) :
    m.checkSize im = .error (.maskSize im.size m.size) := by
  rw [checkSize, if_neg h]

/-! ## All classes at once -/

theorem draw_size_ne {m : Mask} {im : Image} (h : im.size ≠ m.size) (t : Transparency)
    (background : Background) (g : Random.Generator) :
    m.draw im t background g = ⟨im, g, .error (.maskSize im.size m.size)⟩ := by
  rw [draw, checkSize_of_ne h]

theorem draw_palette_error {m : Mask} {im : Image} {t : Transparency} {g g' : Random.Generator}
    {e : Failure} (h : im.size = m.size) (hp : m.palette t g = (.error e, g'))
    (background : Background) : m.draw im t background g = ⟨im, g', .error e⟩ := by
  simp only [draw, checkSize_of_eq h, hp]

theorem draw_palette_ok {m : Mask} {im : Image} {t : Transparency} {g g' : Random.Generator}
    {colours : Array Rgba} (h : im.size = m.size) (hp : m.palette t g = (.ok colours, g'))
    (background : Background) :
    m.draw im t background g
      = ⟨(m.drawWith im colours background).1, g', (m.drawWith im colours background).2⟩ := by
  simp only [draw, checkSize_of_eq h, hp]

/-- **Drawing that succeeds** on an image of the mask's size, in the colours of a palette. -/
theorem draw_ok {m : Mask} {im : Image} {t : Transparency} {background : Background}
    {g : Random.Generator} (h : (m.draw im t background g).outcome = .ok ()) :
    im.size = m.size ∧ ∃ alpha, t.alpha = .ok alpha ∧
      m.drawWith im (coloursOf alpha (g.take (3 * m.classes.length)).1).toArray background
        = ((m.draw im t background g).image, .ok ()) := by
  by_cases hsize : im.size = m.size
  · refine ⟨hsize, ?_⟩
    cases halpha : t.alpha with
    | error e =>
        have hpalette : m.palette t g = (.error e, g) := by rw [palette, halpha]
        rw [draw_palette_error hsize hpalette] at h
        cases h
    | ok alpha =>
        have hpalette : m.palette t g
            = (.ok (coloursOf alpha (g.take (3 * m.classes.length)).1).toArray,
              (g.take (3 * m.classes.length)).2) := by
          rw [palette, halpha]
        rw [draw_palette_ok hsize hpalette] at h ⊢
        exact ⟨alpha, rfl, Prod.ext rfl h⟩
  · rw [draw_size_ne hsize] at h
    cases h

/-! ## One class -/

theorem drawClass_of_size {m : Mask} {im : Image} (h : im.size = m.size) (chosen : Nat → Bool)
    (c : Rgba) :
    m.drawClass im chosen c
      = im.overlay (.ofGrid .rgba (m.cells.map fun k => if chosen k then c else Rgba.clear)) := by
  rw [drawClass, checkSize_of_eq h]
  rfl

theorem drawLooseClass_of_size {m : Mask} {im : Image} (h : im.size = m.size) (chosen : Datum)
    {colour : Datum} {c : Rgba} (hc : classColour colour = .ok c) :
    m.drawLooseClass im chosen colour = m.drawClass im (classChooser chosen) c := by
  rw [drawLooseClass, checkSize_of_eq h, hc]
  rfl

/-! ## Classes and colours given loosely -/

/-- The four bytes of a colour name it. -/
theorem classColour_toDatum (c : Rgba) : classColour c.toDatum = .ok c := by
  have hbyte (b : UInt8) : (ElementType.unsigned 8).least ≤ (b.toNat : Int) ∧
      (b.toNat : Int) ≤ (ElementType.unsigned 8).greatest := by
    have hb := b.toNat_lt
    refine ⟨Int.natCast_nonneg _, ?_⟩
    show (b.toNat : Int) ≤ 255
    omega
  have hfits : ∀ n ∈ [(c.r.toNat : Int), c.g.toNat, c.b.toNat, c.a.toNat],
      (ElementType.unsigned 8).least ≤ n ∧ n ≤ (ElementType.unsigned 8).greatest := by
    simp only [List.forall_mem_cons, hbyte, true_and]
    exact nofun
  show (ofNestedAs (.unsigned 8) (.list ([(c.r.toNat : Int), c.g.toNat, c.b.toNat, c.a.toNat].map
    .int)) >>= _) = _
  rw [ofNestedAs_unsigned hfits]
  simp [bind, Except.bind, pure, Except.pure, Datum.int?]

/-- A whole number names the class that it is the index of. -/
theorem classChooser_int (i : Int) (c : Nat) : classChooser (.int i) c = true ↔ i = c := by
  show (i == (c : Int)) = true ↔ i = c
  exact beq_iff_eq

end Mask

end Perception
