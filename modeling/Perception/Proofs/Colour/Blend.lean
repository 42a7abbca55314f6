import Perception.Colour.Blend

set_option autoImplicit false

/-! # Laying colours over solid ones

The two ways to lay a colour over another round differently: `Rgba.blend` divides by 255 at once,
`Rgba.composite` with seven bits more and by a sum of weights. Over a solid colour they agree in
every byte (`Rgba.composite_of_solid`), and a clear colour changes nothing in either
(`Rgba.composite_clear`, `Rgba.blend_zero`).
-/

namespace Perception

/-! ## Division by 255 -/

theorem div255_eq (t : Nat) : div255 t = ((t + 128) / 256 + (t + 128)) / 256 := by
  rw [div255, Nat.shiftRight_eq_div_pow, Nat.shiftRight_eq_div_pow]

/-- A multiple of 255 is divided exactly. -/
theorem div255_mul {n : Nat} (h : n ≤ 255) : div255 (n * 255) = n := by
  rw [div255_eq]
  omega

namespace Rgba

theorem shiftDivide_eq (x : Nat) : shiftDivide x = (x / 256 + x) / 256 := by
  rw [shiftDivide, Nat.shiftRight_eq_div_pow, Nat.shiftRight_eq_div_pow]

/-- Dividing with seven bits more and then dropping them is dividing at once. -/
theorem shiftDivide_scaled (t : Nat) : shiftDivide (128 * t + (0x80 <<< 7)) >>> 7 = div255 t := by
  have hhalf : 0x80 <<< 7 = 128 * 128 := rfl
  rw [shiftDivide_eq, div255_eq, Nat.shiftRight_eq_div_pow, hhalf]
  show ((128 * t + 128 * 128) / 256 + (128 * t + 128 * 128)) / 256 / 128 = _
  omega

/-! ## One channel -/

theorem mixChannel_zero (s d : UInt8) : mixChannel 0 s d = d := by
  have hd : d.toNat ≤ 255 := Nat.le_of_lt_succ d.toNat_lt
  have hsum : d.toNat * (255 - (0 : UInt8).toNat) + s.toNat * (0 : UInt8).toNat
      = d.toNat * 255 := by
    rw [show (0 : UInt8).toNat = 0 from rfl, Nat.mul_zero, Nat.add_zero]
  rw [mixChannel, hsum, div255_mul hd, UInt8.ofNat_toNat]

/-- Weights of a solid ground, which sum to `255 * 128`, mix as the weight alone does. -/
theorem weigh_solid (m s d : UInt8) :
    weigh s d (m.toNat * 128) ((255 - m.toNat) * 128) = mixChannel m s d := by
  have hsum : s.toNat * (m.toNat * 128) + d.toNat * ((255 - m.toNat) * 128)
      = 128 * (d.toNat * (255 - m.toNat) + s.toNat * m.toNat) := by
    rw [Nat.mul_add, ← Nat.mul_assoc, ← Nat.mul_assoc, Nat.mul_comm _ 128, Nat.mul_comm _ 128,
      Nat.add_comm]
  rw [weigh, hsum, shiftDivide_scaled, mixChannel]

/-! ## Whole colours -/

theorem composite_clear {s : Rgba} (d : Rgba) (h : s.a = 0) : s.composite d = d := by
  rw [composite, if_pos h]

theorem blend_zero (s d : Rgba) : blend 0 s d = d := by
  simp only [blend, mixChannel_zero]

/-- **Over a solid colour both ways agree**, and the result is solid. -/
theorem composite_of_solid (s : Rgba) {d : Rgba} (h : d.a = 255) :
    s.composite d = { blend s.a s d with a := 255 } := by
  by_cases hs : s.a = 0
  · rw [composite_clear d hs, hs, blend_zero, ← h]
  · have hle : s.a.toNat ≤ 255 := Nat.le_of_lt_succ s.a.toNat_lt
    have hd : d.a.toNat = 255 := by
      rw [h]
      rfl
    have htotal : s.a.toNat * 255 + 255 * (255 - s.a.toNat) = 65025 := by omega
    have hw : s.a.toNat * 255 * 255 * 128 / 65025 = s.a.toNat * 128 := by omega
    have hv : 255 * 128 - s.a.toNat * 128 = (255 - s.a.toNat) * 128 := by omega
    have ha : UInt8.ofNat (shiftDivide (65025 + 0x80)) = 255 := by decide
    simp only [composite, if_neg hs, hd, htotal, hw, hv, weigh_solid, ha, blend]

end Rgba

end Perception
