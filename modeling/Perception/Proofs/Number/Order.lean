import Mathlib.Data.Int.Order.Basic
import Mathlib.Data.Nat.Basic
import Mathlib.Order.Compare
import Perception.Number.Rounding

set_option autoImplicit false

/-! # Positions of floating-point numbers

The position of a number says how it compares: one number is below another one if its position is
(`Number.lt_iff_orderKey`), and they are equal if they have one position
(`Number.beq_iff_orderKey`). What is not a number has no position (`Number.orderKey?_eq_none`), and
is neither below nor above anything (`Number.compare_of_isNaN`).
-/

namespace Perception.Number

open Float.Model (Format UnpackedFloat)
open Float.Model.UnpackedFloat (Sign)

/-! ## Sign, exponent and fraction -/

/-- The number with this sign, these bits of the exponent and these of the fraction. -/
def shape (s : Sign) (e m : Nat) : UnpackedFloat :=
  if e = 2047 then if m = 0 then .infinity s else .notANumber
  else if e = 0 then if h : m = 0 then .zero s else .finite s m (-1074) (Nat.pos_of_ne_zero h)
  else .finite s (0x10000000000000 + m) (e - 1075) (Nat.add_pos_left (by decide) m)

def signedKey (s : Sign) (e m : Nat) : Int :=
  match s with
  | .positive => ((e * 0x10000000000000 + m : Nat) : Int)
  | .negative => -((e * 0x10000000000000 + m : Nat) : Int)

theorem toNat_unpackExponent (b : UInt64) :
    (@UnpackedFloat.unpackExponent Format.binary64 b.toBitVec).toNat
      = b.toNat / 0x10000000000000 % 2048 := by
  simp [UnpackedFloat.unpackExponent, Nat.shiftRight_eq_div_pow]

theorem toNat_unpackMantissa (b : UInt64) :
    (@UnpackedFloat.unpackMantissa Format.binary64 b.toBitVec).toNat
      = b.toNat % 0x10000000000000 := by
  simp [UnpackedFloat.unpackMantissa, Nat.shiftRight_eq_div_pow]

theorem toNat_unpackSign (b : UInt64) :
    (@UnpackedFloat.unpackSign Format.binary64 b.toBitVec).toNat
      = b.toNat / 0x8000000000000000 := by
  have hb := b.toNat_lt
  have hbit : (@UnpackedFloat.unpackSign Format.binary64 b.toBitVec).toNat
      = b.toNat / 0x8000000000000000 % 2 := by
    delta UnpackedFloat.unpackSign
    simp [Nat.shiftRight_eq_div_pow]
  omega

/-- What bits unpack to. -/
theorem unpack_eq_shape (b : UInt64) :
    UnpackedFloat.unpack Format.binary64 b.toBitVec
      = shape (if b.toNat / 0x8000000000000000 = 0 then .positive else .negative)
          (b.toNat / 0x10000000000000 % 2048) (b.toNat % 0x10000000000000) := by
  have hones (v : BitVec 11) : v = -1#11 ↔ v.toNat = 2047 := BitVec.toNat_inj.symm
  have hzero (v : BitVec 11) : v = 0#11 ↔ v.toNat = 0 := BitVec.toNat_inj.symm
  have hfraction (v : BitVec 52) : v = 0#52 ↔ v.toNat = 0 := BitVec.toNat_inj.symm
  have hbit (v : BitVec 1) : v = 0#1 ↔ v.toNat = 0 := BitVec.toNat_inj.symm
  have hsign (v : BitVec 1) :
      Sign.ofBitVec v = if v.toNat = 0 then .positive else .negative := if_congr (hbit v) rfl rfl
  have hone (v : BitVec 52) : (1#1 ++ v).toNat = 0x10000000000000 + v.toNat := by
    have hv := v.isLt
    rw [BitVec.toNat_append, ← Nat.shiftLeft_add_eq_or_of_lt hv]
    rfl
  rw [← toNat_unpackSign, ← toNat_unpackExponent, ← toNat_unpackMantissa, ← hsign]
  unfold UnpackedFloat.unpack shape
  dsimp only
  by_cases htop : @UnpackedFloat.unpackExponent Format.binary64 b.toBitVec = -1#11
  · rw [if_pos htop, if_pos ((hones _).mp htop)]
    exact if_congr (hfraction _) rfl rfl
  · rw [if_neg htop, if_neg (mt (hones _).mpr htop)]
    by_cases hlow : @UnpackedFloat.unpackExponent Format.binary64 b.toBitVec = 0#11
    · rw [if_pos hlow, if_pos ((hzero _).mp hlow)]
      by_cases hm : @UnpackedFloat.unpackMantissa Format.binary64 b.toBitVec = 0#52
      · rw [dif_pos hm, dif_pos ((hfraction _).mp hm)]
      · rw [dif_neg hm, dif_neg (mt (hfraction _).mpr hm), UnpackedFloat.finite.injEq, hlow]
        exact ⟨rfl, rfl, rfl⟩
    · rw [if_neg hlow, if_neg (mt (hzero _).mpr hlow), UnpackedFloat.finite.injEq]
      exact ⟨rfl, hone _, rfl⟩

/-- **A number has a sign, an exponent and a fraction**, from which its position follows. -/
theorem exists_shape (x : Float) :
    ∃ s e m, e ≤ 2047 ∧ m < 0x10000000000000 ∧ x.toModel.unpack = shape s e m ∧
      orderKey? x = if e = 2047 ∧ m ≠ 0 then none else some (signedKey s e m) := by
  have hb := x.toBits.toNat_lt
  refine ⟨_, _, _, ?_, ?_, unpack_eq_shape x.toBits, ?_⟩
  · omega
  · omega
  · unfold orderKey?
    dsimp only
    generalize x.toBits.toNat = b at hb
    have hlow : b / 0x10000000000000 % 2048 * 0x10000000000000 + b % 0x10000000000000
        = b % 0x8000000000000000 := by omega
    by_cases hnan : b / 0x10000000000000 % 2048 = 2047 ∧ b % 0x10000000000000 ≠ 0
    · rw [if_pos hnan, if_pos hnan]
    · rw [if_neg hnan, if_neg hnan]
      by_cases hs : b / 0x8000000000000000 = 0
      · rw [if_pos hs, if_pos (show b < 0x8000000000000000 by omega), signedKey, hlow,
          Nat.mod_eq_of_lt (by omega)]
      · have hmod : b % 0x8000000000000000 = b - 0x8000000000000000 := by omega
        rw [if_neg hs, if_neg (show ¬b < 0x8000000000000000 by omega), signedKey, hlow, hmod]

/-! ## Comparing -/

/-- Exponents are compared before fractions. -/
theorem compare_then {x x' : Int} {f f' k k' : Nat} (hlt : k < k' ↔ x < x' ∨ x = x' ∧ f < f')
    (hgt : k' < k ↔ x' < x ∨ x' = x ∧ f' < f) :
    (compare x x').then (compare f f') = compare (k : Int) k' := by
  rcases lt_trichotomy k k' with hk | rfl | hk
  · rw [compare_lt_iff_lt.mpr (Int.ofNat_lt.mpr hk)]
    rcases hlt.mp hk with hx | ⟨rfl, hf⟩
    · rw [compare_lt_iff_lt.mpr hx]
      rfl
    · rw [compare_eq_iff_eq.mpr rfl, compare_lt_iff_lt.mpr hf]
      rfl
  · obtain rfl : x = x' := by omega
    obtain rfl : f = f' := by omega
    rw [compare_eq_iff_eq.mpr rfl, compare_eq_iff_eq.mpr rfl, compare_eq_iff_eq.mpr rfl]
    rfl
  · rw [compare_gt_iff_gt.mpr (Int.ofNat_lt.mpr hk)]
    rcases hgt.mp hk with hx | ⟨rfl, hf⟩
    · rw [compare_gt_iff_gt.mpr hx]
      rfl
    · rw [compare_eq_iff_eq.mpr rfl, compare_gt_iff_gt.mpr hf]
      rfl

/-- What a shape is: infinite, zero, or finite with an exponent and a fraction that its position
shows. -/
theorem shape_cases (s : Sign) {e m : Nat} (he : e ≤ 2047) (hm : m < 0x10000000000000)
    (hnum : ¬(e = 2047 ∧ m ≠ 0)) :
    (shape s e m = .infinity s ∧ e = 2047 ∧ m = 0) ∨ (shape s e m = .zero s ∧ e = 0 ∧ m = 0) ∨
      ∃ f x hf, shape s e m = .finite s f x hf ∧ e < 2047 ∧ 0 < e + m ∧
        (e = 0 ∧ x = -1074 ∧ f = m ∨ 0 < e ∧ x = e - 1075 ∧ f = 0x10000000000000 + m) := by
  unfold shape
  by_cases htop : e = 2047
  · have hzero : m = 0 := by
      by_contra hm0
      exact hnum ⟨htop, hm0⟩
    rw [if_pos htop, if_pos hzero]
    exact Or.inl ⟨rfl, htop, hzero⟩
  · rw [if_neg htop]
    by_cases hlow : e = 0
    · rw [if_pos hlow]
      by_cases hzero : m = 0
      · rw [dif_pos hzero]
        exact Or.inr (Or.inl ⟨rfl, hlow, hzero⟩)
      · rw [dif_neg hzero]
        exact Or.inr (Or.inr ⟨m, -1074, _, rfl, by omega, by omega, Or.inl ⟨hlow, rfl, rfl⟩⟩)
    · rw [if_neg hlow]
      exact Or.inr (Or.inr ⟨0x10000000000000 + m, e - 1075, _, rfl, by omega, by omega,
        Or.inr ⟨by omega, rfl, rfl⟩⟩)

/-- Positions of finite numbers rise with the exponent, and then with the fraction. -/
theorem position_lt_iff {e e' m m' f f' : Nat} {x x' : Int} (hm : m < 0x10000000000000)
    (hm' : m' < 0x10000000000000)
    (hx : e = 0 ∧ x = -1074 ∧ f = m ∨ 0 < e ∧ x = e - 1075 ∧ f = 0x10000000000000 + m)
    (hx' : e' = 0 ∧ x' = -1074 ∧ f' = m' ∨ 0 < e' ∧ x' = e' - 1075 ∧ f' = 0x10000000000000 + m') :
    e * 0x10000000000000 + m < e' * 0x10000000000000 + m' ↔ x < x' ∨ x = x' ∧ f < f' := by
  rcases hx with ⟨rfl, rfl, rfl⟩ | ⟨he, rfl, rfl⟩ <;>
    rcases hx' with ⟨rfl, rfl, rfl⟩ | ⟨he', rfl, rfl⟩ <;>
      omega

theorem compare_neg (i j : Int) : compare (-i) (-j) = (compare i j).swap := by
  rcases lt_trichotomy i j with h | rfl | h
  · rw [compare_lt_iff_lt.mpr h, compare_gt_iff_gt.mpr (show -j < -i by omega)]
    rfl
  · rw [compare_eq_iff_eq.mpr rfl, compare_eq_iff_eq.mpr rfl]
    rfl
  · rw [compare_gt_iff_gt.mpr h, compare_lt_iff_lt.mpr (show -i < -j by omega)]
    rfl

theorem some_compare {i j : Int} {o : Ordering}
    (h : match o with
      | .lt => i < j
      | .eq => i = j
      | .gt => j < i) : some o = some (compare i j) := by
  cases o with
  | lt => rw [compare_lt_iff_lt.mpr h]
  | eq => rw [compare_eq_iff_eq.mpr h]
  | gt => rw [compare_gt_iff_gt.mpr h]

/-- **Shapes compare as their positions do.** -/
theorem compare_shape (s s' : Sign) {e e' m m' : Nat} (he : e ≤ 2047) (he' : e' ≤ 2047)
    (hm : m < 0x10000000000000) (hm' : m' < 0x10000000000000) (hnum : ¬(e = 2047 ∧ m ≠ 0))
    (hnum' : ¬(e' = 2047 ∧ m' ≠ 0)) :
    (shape s e m).compare (shape s' e' m')
      = some (compare (signedKey s e m) (signedKey s' e' m')) := by
  rcases shape_cases s he hm hnum with ⟨h, hk⟩ | ⟨h, hk⟩ | ⟨f, x, hf, h, hk⟩ <;>
    rcases shape_cases s' he' hm' hnum' with ⟨h', hk'⟩ | ⟨h', hk'⟩ | ⟨f', x', hf', h', hk'⟩ <;>
      rw [h, h']
  case inl.inl =>
    -- two infinities
    obtain ⟨⟨rfl, rfl⟩, rfl, rfl⟩ := And.intro hk hk'
    cases s <;> cases s' <;> rfl
  case inr.inr.inr.inr =>
    -- two finite numbers: of one sign they compare by exponent and fraction
    have hthen := compare_then (position_lt_iff hm hm' hk.2.2 hk'.2.2)
      (position_lt_iff hm' hm hk'.2.2 hk.2.2)
    cases s with
    | positive =>
      cases s' with
      | positive => exact congrArg some hthen
      | negative => exact some_compare (by simp only [signedKey]; omega)
    | negative =>
      cases s' with
      | positive => exact some_compare (by simp only [signedKey]; omega)
      | negative =>
        exact congrArg some ((congrArg Ordering.swap hthen).trans (compare_neg _ _).symm)
  -- one is infinite or zero and the other is not, so the signs decide
  all_goals
    cases s <;> cases s' <;> exact some_compare (by simp only [signedKey]; omega)

/-! ## Below and equal -/

variable {a b : Float} {i j : Int}

theorem compare_of_orderKey (ha : orderKey? a = some i) (hb : orderKey? b = some j) :
    a.toModel.unpack.compare b.toModel.unpack = some (compare i j) := by
  obtain ⟨s, e, m, he, hm, hshape, hkey⟩ := exists_shape a
  obtain ⟨s', e', m', he', hm', hshape', hkey'⟩ := exists_shape b
  rw [hkey] at ha
  rw [hkey'] at hb
  by_cases hnum : e = 2047 ∧ m ≠ 0
  · rw [if_pos hnum] at ha
    cases ha
  · by_cases hnum' : e' = 2047 ∧ m' ≠ 0
    · rw [if_pos hnum'] at hb
      cases hb
    · rw [if_neg hnum] at ha
      rw [if_neg hnum'] at hb
      cases ha
      cases hb
      rw [hshape, hshape']
      exact compare_shape s s' he he' hm hm' hnum hnum'

/-- **One number is below another** if its position is. -/
theorem lt_iff_orderKey (ha : orderKey? a = some i) (hb : orderKey? b = some j) :
    a < b ↔ i < j := by
  have hlt : a < b ↔ (a.toModel.unpack.compare b.toModel.unpack == some .lt) = true :=
    decide_eq_true_iff
  rw [hlt, compare_of_orderKey ha hb, beq_iff_eq, Option.some.injEq, compare_lt_iff_lt]

theorem le_iff_orderKey (ha : orderKey? a = some i) (hb : orderKey? b = some j) :
    a ≤ b ↔ i ≤ j := by
  have hle : a ≤ b ↔ (a.toModel.unpack.compare b.toModel.unpack).any (·.isLE) = true :=
    decide_eq_true_iff
  rw [hle, compare_of_orderKey ha hb, Option.any_some, Std.isLE_compare]

/-- **Two numbers are equal** if they have one position. -/
theorem beq_iff_orderKey (ha : orderKey? a = some i) (hb : orderKey? b = some j) :
    (a == b) = true ↔ i = j := by
  have heq : (a == b) = true ↔ (a.toModel.unpack.compare b.toModel.unpack == some .eq) = true :=
    Iff.rfl
  rw [heq, compare_of_orderKey ha hb, beq_iff_eq, Option.some.injEq, compare_eq_iff_eq]

/-- **What is not a number** has no position. -/
theorem orderKey?_eq_none : orderKey? a = none ↔ a.isNaN = true := by
  obtain ⟨s, e, m, he, hm, hshape, hkey⟩ := exists_shape a
  have hnan : a.isNaN = (shape s e m).isNaN := by
    rw [← hshape]
    rfl
  rw [hnan, hkey]
  by_cases hnum : e = 2047 ∧ m ≠ 0
  · rw [if_pos hnum, shape, if_pos hnum.1, if_neg hnum.2]
    exact ⟨fun _ => rfl, fun _ => rfl⟩
  · rw [if_neg hnum]
    rcases shape_cases s he hm hnum with ⟨h, -⟩ | ⟨h, -⟩ | ⟨f, x, hf, h, -⟩ <;>
      rw [h] <;> exact ⟨nofun, nofun⟩

/-! ## What is not a number -/

theorem unpack_of_isNaN (h : a.isNaN = true) : a.toModel.unpack = .notANumber := by
  obtain ⟨s, e, m, he, hm, hshape, hkey⟩ := exists_shape a
  have hnum : e = 2047 ∧ m ≠ 0 := by
    by_contra hnum
    rw [if_neg hnum] at hkey
    cases (orderKey?_eq_none.mpr h).symm.trans hkey
  rw [hshape, shape, if_pos hnum.1, if_neg hnum.2]

/-- **What is not a number** is neither below nor above anything. -/
theorem compare_of_isNaN (h : a.isNaN = true ∨ b.isNaN = true) :
    a.toModel.unpack.compare b.toModel.unpack = none := by
  rcases h with ha | hb
  · rw [unpack_of_isNaN ha]
    rfl
  · rw [unpack_of_isNaN hb]
    cases a.toModel.unpack <;> rfl

theorem not_le_of_isNaN (h : a.isNaN = true ∨ b.isNaN = true) : ¬a ≤ b := by
  have hle : a ≤ b ↔ (a.toModel.unpack.compare b.toModel.unpack).any (·.isLE) = true :=
    decide_eq_true_iff
  rw [hle, compare_of_isNaN h]
  exact Bool.false_ne_true

/-- One number is below another only if that one is not below it. -/
theorem not_le_of_lt (h : b < a) : ¬a ≤ b := by
  intro hle
  cases ha : orderKey? a with
  | none => exact not_le_of_isNaN (Or.inl (orderKey?_eq_none.mp ha)) hle
  | some i =>
      cases hb : orderKey? b with
      | none => exact not_le_of_isNaN (Or.inr (orderKey?_eq_none.mp hb)) hle
      | some j =>
          have hji : j < i := (lt_iff_orderKey hb ha).mp h
          have hij : i ≤ j := (le_iff_orderKey ha hb).mp hle
          omega

end Perception.Number
