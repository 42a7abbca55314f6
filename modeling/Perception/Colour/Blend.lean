import Perception.Colour.Basic

set_option autoImplicit false

/-! # Laying colours over colours

Two ways to lay a colour over another, and colours weighed by their own alpha. `Rgba.composite`
weighs both by their alpha and keeps seven bits beyond the byte while dividing; `Rgba.blend` mixes
by a weight of its own. Both round to the nearest byte.
-/

namespace Perception

/-- `t / 255` rounded to the nearest whole number, for `t` up to `255 * 255`. -/
def div255 (t : Nat) : Nat := (((t + 128) >>> 8) + (t + 128)) >>> 8

namespace Rgba

/-- `x / 255` rounded down, for a sum that already holds the half to add. -/
def shiftDivide (x : Nat) : Nat := ((x >>> 8) + x) >>> 8

/-- One channel of two colours with weights that sum to `255 * 128`. -/
def weigh (s d : UInt8) (w v : Nat) : UInt8 :=
  UInt8.ofNat (shiftDivide (s.toNat * w + d.toNat * v + (0x80 <<< 7)) >>> 7)

/-- The colour seen where `s` lies over `d`. A clear `s` leaves `d` as it is. -/
def composite (s d : Rgba) : Rgba :=
  if s.a = 0 then d
  else
    let behind := d.a.toNat * (255 - s.a.toNat)
    let total := s.a.toNat * 255 + behind
    let w := s.a.toNat * 255 * 255 * 128 / total
    let v := 255 * 128 - w
    ⟨weigh s.r d.r w v, weigh s.g d.g w v, weigh s.b d.b w v,
      UInt8.ofNat (shiftDivide (total + 0x80))⟩

def mixChannel (m s d : UInt8) : UInt8 :=
  UInt8.ofNat (div255 (d.toNat * (255 - m.toNat) + s.toNat * m.toNat))

/-- `s` mixed into `d` by the weight `m`, which is 255 for `s` alone. -/
def blend (m : UInt8) (s d : Rgba) : Rgba :=
  ⟨mixChannel m s.r d.r, mixChannel m s.g d.g, mixChannel m s.b d.b, mixChannel m s.a d.a⟩

/-- A colour with its channels weighed by its alpha. -/
def premultiply (p : Rgba) : Rgba :=
  let f (c : UInt8) : UInt8 := UInt8.ofNat (div255 (c.toNat * p.a.toNat))
  ⟨f p.r, f p.g, f p.b, p.a⟩

/-- Undoes the weighing by alpha, as far as bytes allow. -/
def unpremultiply (p : Rgba) : Rgba :=
  if p.a = 0 ∨ p.a = 255 then p
  else
    let f (c : UInt8) : UInt8 := UInt8.ofNat (min 255 (255 * c.toNat / p.a.toNat))
    ⟨f p.r, f p.g, f p.b, p.a⟩

end Rgba

end Perception
