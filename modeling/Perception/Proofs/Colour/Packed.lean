import Perception.Proofs.Mask.Drawing

set_option autoImplicit false

/-! # Packed colours

The bytes of a colour stand at their places in the packed number, alpha highest: the sum of the bytes
at their places (`Rgba.toArgb`) is what joining their bits gives (`Colour.pack_bytes`). A packed
number gives its colour back (`Rgba.ofArgb_toArgb`), and any whole number the packed one that it
agrees with in its low 32 bits (`Rgba.toArgb_ofArgb`).
-/

namespace Perception

namespace Rgba

theorem toNat_byteOf (k : Nat) (n : Int) :
    ((byteOf k n).toNat : Int) = n / (Number.powerOfTwo (8 * k) : Int) % 256 := by
  have hlow : (n / (Number.powerOfTwo (8 * k) : Int) % 256).toNat < 256 := by omega
  rw [byteOf, UInt8.toNat_ofNat_of_lt' hlow]
  omega

/-- A byte in two's complement, at each of the four places. -/
theorem toNat_ofArgb (n : Int) :
    ((ofArgb n).a.toNat : Int) = n / 0x1000000 % 256 ∧ ((ofArgb n).r.toNat : Int) = n / 0x10000 % 256 ∧
      ((ofArgb n).g.toNat : Int) = n / 0x100 % 256 ∧ ((ofArgb n).b.toNat : Int) = n % 256 := by
  refine ⟨toNat_byteOf 3 n, toNat_byteOf 2 n, toNat_byteOf 1 n, ?_⟩
  have hlow : n / (Number.powerOfTwo (8 * 0) : Int) = n := Int.ediv_one n
  exact (toNat_byteOf 0 n).trans (by rw [hlow])

/-- **A whole number packs to its low 32 bits**, also if it is negative. -/
theorem toArgb_ofArgb (n : Int) : ((ofArgb n).toArgb : Int) = n % 0x100000000 := by
  obtain ⟨ha, hr, hg, hb⟩ := toNat_ofArgb n
  unfold toArgb
  omega

theorem toArgb_lt (c : Rgba) : c.toArgb < 0x100000000 := by
  have ha := c.a.toNat_lt
  have hr := c.r.toNat_lt
  have hg := c.g.toNat_lt
  have hb := c.b.toNat_lt
  unfold toArgb
  omega

/-- **A packed colour** is the one that was packed. -/
theorem ofArgb_toArgb (c : Rgba) : ofArgb c.toArgb = c := by
  obtain ⟨ha, hr, hg, hb⟩ := toNat_ofArgb c.toArgb
  have ha' := c.a.toNat_lt
  have hr' := c.r.toNat_lt
  have hg' := c.g.toNat_lt
  have hb' := c.b.toNat_lt
  unfold toArgb at ha hr hg hb
  have hbytes : (ofArgb c.toArgb).r = c.r ∧ (ofArgb c.toArgb).g = c.g ∧
      (ofArgb c.toArgb).b = c.b ∧ (ofArgb c.toArgb).a = c.a := by
    refine ⟨UInt8.toNat_inj.mp ?_, UInt8.toNat_inj.mp ?_, UInt8.toNat_inj.mp ?_,
      UInt8.toNat_inj.mp ?_⟩ <;> unfold toArgb <;> omega
  obtain ⟨hr, hg, hb, ha⟩ := hbytes
  calc ofArgb c.toArgb
      = ⟨(ofArgb c.toArgb).r, (ofArgb c.toArgb).g, (ofArgb c.toArgb).b, (ofArgb c.toArgb).a⟩ := rfl
    _ = c := by rw [hr, hg, hb, ha]

end Rgba

namespace Colour

/-- A packed colour is a number of 32 bits without a sign. -/
def IsPacked (n : Int) : Prop := 0 ≤ n ∧ n < 0x100000000

/-- Bits that do not overlap are joined by adding. -/
theorem bitOr_add (k m : Nat) {n : Nat} (h : n < Number.powerOfTwo k) :
    bitOr ((m * Number.powerOfTwo k : Nat) : Int) n = ((m * Number.powerOfTwo k + n : Nat) : Int) := by
  have hor : Number.powerOfTwo k * m + n = Number.powerOfTwo k * m ||| n :=
    Nat.two_pow_add_eq_or_of_lt h m
  show ((m * Number.powerOfTwo k ||| n : Nat) : Int) = _
  rw [Nat.mul_comm m, hor]

/-- **Joining the bits of four bytes** at their places packs the colour. -/
theorem pack_bytes (c : Rgba) :
    pack c.r.toNat c.g.toNat c.b.toNat c.a.toNat = (c.toArgb : Int) := by
  have hr := c.r.toNat_lt
  have hg := c.g.toNat_lt
  have hb := c.b.toNat_lt
  have h24 : Number.powerOfTwo 24 = 0x1000000 := rfl
  have h16 : Number.powerOfTwo 16 = 0x10000 := rfl
  have h8 : Number.powerOfTwo 8 = 0x100 := rfl
  have hred := bitOr_add 24 c.a.toNat (n := c.r.toNat * 0x10000) (by omega)
  -- what is joined so far is a multiple of the place of the byte before
  have hgreen := bitOr_add 16 (c.a.toNat * 0x100 + c.r.toNat) (n := c.g.toNat * 0x100) (by omega)
  have hblue := bitOr_add 8 ((c.a.toNat * 0x100 + c.r.toNat) * 0x100 + c.g.toNat)
    (n := c.b.toNat) (by omega)
  rw [h24] at hred
  rw [h16, show (c.a.toNat * 0x100 + c.r.toNat) * 0x10000
    = c.a.toNat * 0x1000000 + c.r.toNat * 0x10000 by omega] at hgreen
  rw [h8, show ((c.a.toNat * 0x100 + c.r.toNat) * 0x100 + c.g.toNat) * 0x100
    = c.a.toNat * 0x1000000 + c.r.toNat * 0x10000 + c.g.toNat * 0x100 by omega] at hblue
  calc pack c.r.toNat c.g.toNat c.b.toNat c.a.toNat
      = bitOr (bitOr (bitOr (c.a.toNat * 0x1000000 : Nat) (c.r.toNat * 0x10000 : Nat))
          (c.g.toNat * 0x100 : Nat)) (c.b.toNat : Nat) := rfl
    _ = (c.toArgb : Int) := by rw [hred, hgreen, hblue, Rgba.toArgb]

/-- The four bytes of a colour pack it. -/
theorem packList_toDatum (c : Rgba) : packList c.toDatum = .ok (c.toArgb : Int) :=
  congrArg Except.ok (pack_bytes c)

theorem isPacked_toArgb (c : Rgba) : IsPacked c.toArgb := by
  have := c.toArgb_lt
  exact ⟨by omega, by omega⟩

/-- Three bytes pack a solid colour. -/
theorem packList_solid (r g b : UInt8) :
    packList (.list ([r, g, b].map fun v => .int v.toNat))
      = .ok ((⟨r, g, b, 255⟩ : Rgba).toArgb : Int) :=
  congrArg Except.ok (pack_bytes ⟨r, g, b, 255⟩)

end Colour

end Perception
