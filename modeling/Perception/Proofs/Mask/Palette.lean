import Perception.Mask.Palette

set_option autoImplicit false

/-! # Palettes of proper transparencies

A transparency that is a number from 0 to 1 has an alpha, and with it a mask has one colour for each
of its classes (`Mask.palette_of_isProper`).
-/

namespace Perception

namespace Transparency

/-- A number from 0 to 1, or a truth value. -/
def IsProper : Transparency → Prop
  | level x => 0.0 ≤ x ∧ x ≤ 1.0
  | whole i => 0 ≤ i ∧ i ≤ 1
  | truth _ => True
  | unfit => False

theorem alpha_of_isProper {t : Transparency} (h : t.IsProper) : ∃ alpha, t.alpha = .ok alpha := by
  cases t with
  | level x => exact ⟨_, if_pos h⟩
  | whole i => exact ⟨_, if_pos h⟩
  | truth b => exact ⟨_, rfl⟩
  | unfit => exact h.elim

end Transparency

namespace Mask

theorem length_coloursOf (alpha : UInt8) (n : Nat) {draws : List UInt32}
    (h : draws.length = 3 * n) : (coloursOf alpha draws).length = n := by
  induction n generalizing draws with
  | zero =>
      rw [List.length_eq_zero_iff.mp h]
      rfl
  | succ n ih =>
      match draws, h with
      | r :: g :: b :: rest, h =>
          have hrest : rest.length = 3 * n := by
            simp only [List.length_cons] at h
            omega
          rw [coloursOf, List.length_cons, ih hrest]

/-- **A proper transparency has a palette**, with as many colours as the mask has classes. -/
theorem palette_of_isProper (m : Mask) {t : Transparency} (h : t.IsProper)
    (g : Random.Generator) :
    ∃ colours g', m.palette t g = (.ok colours, g') ∧ colours.size = m.classes.length := by
  obtain ⟨alpha, halpha⟩ := Transparency.alpha_of_isProper h
  refine ⟨_, _, by rw [palette, halpha], ?_⟩
  rw [List.size_toArray]
  exact length_coloursOf alpha _ (Random.Generator.length_take _ g)

end Mask

end Perception
