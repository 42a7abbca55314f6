import Mathlib.Tactic.SplitIfs
import Mathlib.Tactic.Tauto
import Perception.NdArray.Basic

set_option autoImplicit false

/-! # The element type that leaves have together

The types of leaves are joined one after another, and a type of whole numbers can only be joined from
itself and truth values (`ElementType.join_eq_iff`). So leaves have a type of whole numbers exactly
if it is the type of one of them and the others are of it too or are truth values
(`NdArray.typeOf_eq_iff`).
-/

namespace Perception

namespace ElementType

/-! ## Two types -/

/-- Truth values give way to whole numbers; no two other types have whole numbers together. -/
theorem join_eq_iff {t : ElementType} (ht : t.isInteger = true) (a b : ElementType) :
    a.join b = t ↔ (a = t ∧ (b = t ∨ b = bool)) ∨ (a = bool ∧ b = t) := by
  cases t with
  | signed n => cases a <;> cases b <;> simp [join] <;> grind
  | unsigned n => cases a <;> cases b <;> simp [join] <;> grind
  | _ => cases ht

theorem join_eq_bool_iff (a b : ElementType) : a.join b = bool ↔ a = bool ∧ b = bool := by
  cases a <;> cases b <;> simp [join] <;> grind

/-- A type is of whole numbers of one sort, or of truth values that can become such. -/
theorem join_fits_iff {t : ElementType} (ht : t.isInteger = true) (a b : ElementType) :
    (a.join b = t ∨ a.join b = bool) ↔ (a = t ∨ a = bool) ∧ (b = t ∨ b = bool) := by
  rw [join_eq_iff ht, join_eq_bool_iff]
  tauto

end ElementType

namespace NdArray

open ElementType

/-! ## All leaves -/

/-- What comes of joining more leaves to a type. -/
theorem foldl_join_eq_iff {t : ElementType} (ht : t.isInteger = true) (ds : List Datum)
    (a : ElementType) :
    ds.foldl (fun t d => t.join (scalarType d)) a = t ↔
      (a = t ∨ a = bool) ∧ (∀ d ∈ ds, scalarType d = t ∨ scalarType d = bool) ∧
        (a = t ∨ ∃ d ∈ ds, scalarType d = t) := by
  induction ds generalizing a with
  | nil => simp; tauto
  | cons d ds ih =>
      rw [List.foldl_cons, ih, join_fits_iff ht, join_eq_iff ht]
      simp only [List.mem_cons, forall_eq_or_imp, exists_eq_or_imp]
      tauto

/-- **Leaves have a type of whole numbers together** exactly if one of them has it, and each of them
has it or is a truth value. -/
theorem typeOf_eq_iff {t : ElementType} (ht : t.isInteger = true) (ds : List Datum) :
    typeOf ds = t ↔
      (∃ d ∈ ds, scalarType d = t) ∧ ∀ d ∈ ds, scalarType d = t ∨ scalarType d = bool := by
  cases ds with
  | nil =>
      have hreal : real 64 ≠ t := by
        rintro rfl
        cases ht
      simp [typeOf, hreal]
  | cons d ds =>
      rw [typeOf, foldl_join_eq_iff ht]
      simp only [List.mem_cons, forall_eq_or_imp, exists_eq_or_imp]
      tauto

/-! ## One leaf -/

theorem scalarType_eq_bool_iff (d : Datum) : scalarType d = bool ↔ ∃ b, d = .bool b := by
  cases d with
  | int i =>
      simp only [scalarType]
      split_ifs <;> simp
  | _ => simp [scalarType]

/-- A whole number that 64 bits with a sign hold has that type. -/
theorem scalarType_eq_signed_iff (d : Datum) : scalarType d = signed 64 ↔
    ∃ i, d = .int i ∧ -0x8000000000000000 ≤ i ∧ i < 0x8000000000000000 := by
  cases d with
  | int i =>
      simp only [scalarType, Datum.int.injEq, exists_eq_left']
      split_ifs <;> simp <;> omega
  | _ => simp [scalarType]

/-- One that only 64 bits without a sign hold has the other. -/
theorem scalarType_eq_unsigned_iff (d : Datum) : scalarType d = unsigned 64 ↔
    ∃ i, d = .int i ∧ 0x8000000000000000 ≤ i ∧ i < 0x10000000000000000 := by
  cases d with
  | int i =>
      simp only [scalarType, Datum.int.injEq, exists_eq_left']
      split_ifs <;> simp <;> omega
  | _ => simp [scalarType]

/-- There are no other types of whole numbers among leaves. -/
theorem scalarType_isInteger {d : Datum} (h : (scalarType d).isInteger = true) :
    scalarType d = signed 64 ∨ scalarType d = unsigned 64 := by
  cases d with
  | int i =>
      revert h
      simp only [scalarType]
      split_ifs <;> simp [isInteger]
  | _ => cases h

end NdArray

end Perception
