import Mathlib.Data.List.Induction
import Perception.Proofs.Number.Numeral
import Perception.Text.Quoted

set_option autoImplicit false

/-! # Numbers in hexadecimal digits

A number is what its hexadecimal digits are read as, if there is room for all of them
(`Number.numeral_hexDigits`). The digits of a number that is made of bytes are a pair for each byte
(`Text.hexDigits_ofBytes`).
-/

namespace Perception

namespace Number

open Perception.Text

/-- The number that bytes make, the lowest one last. -/
def ofBytes (bytes : List UInt8) : Nat := ofDigitValues 0x100 (bytes.map UInt8.toNat)

theorem ofBytes_concat (bytes : List UInt8) (b : UInt8) :
    ofBytes (bytes ++ [b]) = ofBytes bytes * 0x100 + b.toNat := by
  simp [ofBytes, ofDigitValues_concat]

theorem ofBytes_lt (bytes : List UInt8) : ofBytes bytes < 0x100 ^ bytes.length := by
  have hbyte : ∀ d ∈ bytes.map UInt8.toNat, d < 0x100 := by
    intro d hd
    obtain ⟨b, -, rfl⟩ := List.mem_map.mp hd
    exact b.toNat_lt
  have hlt := ofDigitValues_lt hbyte
  rwa [List.length_map] at hlt

end Number

namespace Text

open Number (ofBytes ofBytes_concat)

variable {c : Char} {width n : Nat}

theorem length_hexDigits (width n : Nat) : (hexDigits width n).length = width := by
  induction width generalizing n with
  | zero => rfl
  | succ width ih => simp [hexDigits, ih]

theorem mem_hexDigits (h : c ∈ hexDigits width n) : ∃ d, d < 16 ∧ c = Nat.digitChar d := by
  induction width generalizing n with
  | zero => cases h
  | succ width ih =>
      rcases List.mem_append.mp h with hfront | hlast
      · exact ih hfront
      · exact ⟨n % 16, Nat.mod_lt n (by decide), List.mem_singleton.mp hlast⟩

/-- The last two digits are those of the lowest byte. -/
theorem hexDigits_byte (width n : Nat) (b : UInt8) :
    hexDigits (width + 2) (n * 0x100 + b.toNat) = hexDigits width n ++ hexDigits 2 b.toNat := by
  have hb := b.toNat_lt
  have hfront : (n * 0x100 + b.toNat) / 16 / 16 = n := by omega
  have hhigh : (n * 0x100 + b.toNat) / 16 % 16 = b.toNat / 16 % 16 := by omega
  have hlow : (n * 0x100 + b.toNat) % 16 = b.toNat % 16 := by omega
  simp [hexDigits, hfront, hhigh, hlow]

/-- **The digits of bytes** are a pair for each byte, in their order. -/
theorem hexDigits_ofBytes (bytes : List UInt8) :
    hexDigits (2 * bytes.length) (ofBytes bytes) = bytes.flatMap fun b => hexDigits 2 b.toNat := by
  induction bytes using List.reverseRecOn with
  | nil => rfl
  | append_singleton bytes b ih =>
      have hwidth : 2 * (bytes ++ [b]).length = 2 * bytes.length + 2 := by
        simp
        omega
      calc hexDigits (2 * (bytes ++ [b]).length) (ofBytes (bytes ++ [b]))
          = hexDigits (2 * bytes.length + 2) (ofBytes bytes * 0x100 + b.toNat) := by
            rw [hwidth, ofBytes_concat]
        _ = hexDigits (2 * bytes.length) (ofBytes bytes) ++ hexDigits 2 b.toNat :=
            hexDigits_byte _ _ b
        _ = (bytes ++ [b]).flatMap fun b => hexDigits 2 b.toNat := by
            simp [ih]

end Text

namespace Number

open Perception.Text

variable {width n : Nat}

theorem digit?_digitChar : ∀ d < 16, digit? 16 (Nat.digitChar d) = some d := by decide

/-- The digits of a number have its value. -/
theorem exists_digitRun_hexDigits (h : n < 16 ^ (width + 1)) :
    ∃ ds, DigitRun 16 (hexDigits (width + 1) n) ds ∧ ofDigitValues 16 ds = n := by
  -- digits are taken off the end, where the printer puts them and a run can be extended
  induction width generalizing n with
  | zero =>
      have hn : n < 16 := by omega
      refine ⟨[n], ?_, by simp [ofDigitValues]⟩
      have hdigit : hexDigits 1 n = [Nat.digitChar n] := by simp [hexDigits, Nat.mod_eq_of_lt hn]
      rw [hdigit]
      exact .last (digit?_digitChar n hn)
  | succ width ih =>
      have hfront : n / 16 < 16 ^ (width + 1) := by
        rw [Nat.pow_succ] at h
        omega
      obtain ⟨ds, hrun, hvalue⟩ := ih hfront
      have hlast := digit?_digitChar (n % 16) (Nat.mod_lt n (by decide))
      refine ⟨ds ++ [n % 16], hrun.concat hlast, ?_⟩
      rw [ofDigitValues_concat, hvalue]
      omega

/-- **The hexadecimal digits of a number** are a numeral that writes it. -/
theorem numeral_hexDigits (h : n < 16 ^ (width + 1)) : Numeral 16 (hexDigits (width + 1) n) n := by
  obtain ⟨ds, hrun, hvalue⟩ := exists_digitRun_hexDigits h
  have hnumeral := hrun.numeral nofun
  rwa [hvalue] at hnumeral

end Number

end Perception
