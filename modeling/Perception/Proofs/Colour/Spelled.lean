import Perception.Proofs.Colour.Packed
import Perception.Proofs.Colour.Read
import Perception.Proofs.Number.Hexadecimal

set_option autoImplicit false

/-! # Colours spelled in digits

A colour is spelled by the hexadecimal digits of its packed number, eight of them, or six if it is
solid. In whichever case the digits are (`Colour.Spell`), and with any mark in front of them and any
blanks around (`Colour.Writes`), reading gives that number back, whose bytes are the pairs of digits
in their order (`Colour.read_spelled`).

What is left of such a text are the digits in lower case (`Colour.Writes.digitsOf_eq`), which are a
numeral of the number, and in pairs those of its bytes (`Colour.Spell.pairs`).
-/

namespace Perception.Colour

open Perception.Text
open Number (ofBytes ofBytes_lt)

/-! ## Texts that spell a colour -/

/-- Do digits, each in either case, spell a number of so many hexadecimal digits? -/
def Spell (digits : List Char) (width n : Nat) : Prop :=
  digits.map Char.toLower = hexDigits width n

/-- Do pairs of digits, each in either case, spell bytes in their order? -/
def SpellBytes (digits : List Char) (bytes : List UInt8) : Prop :=
  digits.map Char.toLower = bytes.flatMap fun b => hexDigits 2 b.toNat

def marks : List (List Char) := [[], ['#'], ['0', 'x'], ['0', 'X']]

/-- The texts of some digits: a mark may stand in front of them, and blanks around. -/
inductive Writes (digits : List Char) : String → Prop
  | written {left mark right : List Char} (hleft : ∀ c ∈ left, isBlank c = true)
      (hmark : mark ∈ marks) (hright : ∀ c ∈ right, isBlank c = true) :
      Writes digits (String.ofList (left ++ (mark ++ digits) ++ right))

/-- A number stands for a colour, unpacked by itself or as a background: red, green, blue, alpha. -/
structure StandsFor (n : Int) (c : Rgba) : Prop where
  unpacked : unpack (.int n) = .ok c
  background : Mask.Background.ofDatum (.int n) =
    .fill (.numbers (.list [.int c.r.toNat, .int c.g.toNat, .int c.b.toNat, .int c.a.toNat]))

variable {digits : List Char} {written : String} {c : Char} {width n : Nat}

/-! ## Lower case -/

theorem isHexDigit_digitChar : ∀ d < 16, isHexDigit (Nat.digitChar d) = true := by decide

theorem isHexDigit_of_mem_hexDigits (h : c ∈ hexDigits width n) : isHexDigit c = true := by
  obtain ⟨d, hd, rfl⟩ := mem_hexDigits h
  exact isHexDigit_digitChar d hd

/-- Is this an ASCII character and no blank, as all are that stand in a written colour? -/
def isVisible (c : Char) : Bool := c.toNat < 0x80 && !isBlank c

theorem isVisible_iff : isVisible c = true ↔ c.toNat < 0x80 ∧ isBlank c = false := by
  simp [isVisible]

theorem isVisible_of_isHexDigit (h : isHexDigit c.toLower = true) : isVisible c = true := by
  have hrange : (48 ≤ c.toLower.toNat ∧ c.toLower.toNat ≤ 57) ∨
      (97 ≤ c.toLower.toNat ∧ c.toLower.toNat ≤ 102) := by
    simpa [isHexDigit, Char.le_def, UInt32.le_iff_toNat_le] using h
  have hcase : c.toLower.toNat = c.toNat ∨ c.toLower.toNat = c.toNat + 32 :=
    (Number.toLower_cases c).imp_left (congrArg Char.toNat)
  -- no blank is such a digit, nor stands as far below one as a capital does
  refine isVisible_iff.mpr ⟨by omega, Bool.eq_false_iff.mpr fun hblank => ?_⟩
  simp only [isBlank, Bool.or_eq_true, Bool.and_eq_true, decide_eq_true_eq, beq_iff_eq] at hblank
  omega

theorem isVisible_of_mem_marks {mark : List Char} (h : mark ∈ marks) :
    ∀ c ∈ mark, isVisible c = true := by
  have hall : marks.flatten.all isVisible = true := by rfl
  exact fun c hc => List.all_eq_true.mp hall c (List.mem_flatten_of_mem h hc)

theorem lower_of_mem_marks {mark : List Char} (h : mark ∈ marks) :
    mark.map Char.toLower = [] ∨ mark.map Char.toLower = ['#'] ∨
      mark.map Char.toLower = ['0', 'x'] := by
  revert mark
  decide

theorem Spell.isVisible (h : Spell digits width n) : ∀ c ∈ digits, isVisible c = true := by
  intro c hc
  have hlow : c.toLower ∈ hexDigits width n := h ▸ List.mem_map_of_mem hc
  exact isVisible_of_isHexDigit (isHexDigit_of_mem_hexDigits hlow)

theorem lower_of_isVisible (h : isVisible c = true) : lower c = [c.toLower] := by
  -- the one character with two in lower case is not of ASCII
  refine if_neg ?_
  rintro rfl
  exact absurd h (by decide)

theorem flatMap_lower {cs : List Char} (h : ∀ c ∈ cs, isVisible c = true) :
    cs.flatMap lower = cs.map Char.toLower := by
  induction cs with
  | nil => rfl
  | cons c cs ih =>
      rw [List.flatMap_cons, lower_of_isVisible (h c List.mem_cons_self),
        ih fun x hx => h x (List.mem_cons_of_mem c hx)]
      rfl

/-- A text in lower case: its mark and the digits of the number. -/
theorem Writes.lowered_eq (h : Writes digits written) (hdigits : Spell digits width n) :
    ∃ mark, lowered written = mark ++ hexDigits width n ∧
      (mark = [] ∨ mark = ['#'] ∨ mark = ['0', 'x']) := by
  cases h with
  | @written left mark right hleft hmark hright =>
      have hvisible : ∀ c ∈ mark ++ digits, isVisible c = true := fun c hc =>
        (List.mem_append.mp hc).elim (isVisible_of_mem_marks hmark c) (hdigits.isVisible c)
      have hblank : ∀ c ∈ mark ++ digits, isBlank c = false :=
        fun c hc => (isVisible_iff.mp (hvisible c hc)).2
      have htrim : trim (left ++ (mark ++ digits) ++ right) = mark ++ digits :=
        trimWhile_append hleft hright (fun c hc => hblank c (List.mem_of_head? hc))
          fun c hc => hblank c (List.mem_of_getLast? hc)
      refine ⟨mark.map Char.toLower, ?_, lower_of_mem_marks hmark⟩
      rw [lowered, String.toList_ofList, htrim, flatMap_lower hvisible, List.map_append, hdigits]

/-- What is left of a text are the digits of the number. -/
theorem Writes.digitsOf_eq (h : Writes digits written) (hdigits : Spell digits width n) :
    digitsOf written = hexDigits width n := by
  obtain ⟨mark, hlow, hmark⟩ := h.lowered_eq hdigits
  exact digitsOf_of_usual hlow hmark fun c hc => isHexDigit_of_mem_hexDigits hc

/-! ## Reading -/

/-- Six digits leave the place of the alpha free. -/
theorem bitOr_solid (h : n < 0x1000000) : bitOr n solid = n + 0xFF000000 := by
  have hadd : bitOr solid n = ((0xFF000000 + n : Nat) : Int) := bitOr_add 24 255 h
  have hcomm : bitOr n solid = bitOr solid n :=
    congrArg Int.ofNat (Nat.or_comm n 0xFF000000)
  rw [hcomm, hadd]
  omega

/-- What is left of a text is a numeral of so many characters. -/
theorem Writes.numeral (h : Writes digits written) (hn : n < 16 ^ (width + 1))
    (hdigits : Spell digits (width + 1) n) :
    (digitsOf written).length = width + 1 ∧ Number.Numeral 16 (digitsOf written) n := by
  rw [h.digitsOf_eq hdigits]
  exact ⟨length_hexDigits _ _, Number.numeral_hexDigits hn⟩

/-- **Eight digits** are read as the number that they spell. -/
theorem read_eight (hwritten : Writes digits written) (hn : n < 0x100000000)
    (hdigits : Spell digits 8 n) : read written = .ok n := by
  obtain ⟨hlength, hnumeral⟩ := hwritten.numeral hn hdigits
  exact read_eq_ok_iff.mpr (.packed hlength hnumeral)

/-- **Six digits** are read as the number that they spell, made solid. -/
theorem read_six (hwritten : Writes digits written) (hn : n < 0x1000000)
    (hdigits : Spell digits 6 n) : read written = .ok (n + 0xFF000000) := by
  obtain ⟨hlength, hnumeral⟩ := hwritten.numeral hn hdigits
  rw [← bitOr_solid hn]
  exact read_eq_ok_iff.mpr (.solid hlength hnumeral)

/-! ## The bytes of what is read -/

/-- Where digits spell a number that is made of bytes, their pairs spell the bytes. -/
theorem Spell.pairs {bytes : List UInt8} (h : Spell digits (2 * bytes.length) (ofBytes bytes)) :
    SpellBytes digits bytes :=
  h.trans (hexDigits_ofBytes bytes)

/-- A packed colour is made of its bytes, alpha first. -/
theorem ofBytes_toArgb (c : Rgba) : ofBytes [c.a, c.r, c.g, c.b] = c.toArgb := by
  simp only [ofBytes, ofDigitValues, List.map_cons, List.map_nil, List.foldl_cons, List.foldl_nil,
    Rgba.toArgb]
  omega

/-- Alpha stands above the other bytes. -/
theorem toArgb_eq (c : Rgba) : c.toArgb = c.a.toNat * 0x1000000 + ofBytes [c.r, c.g, c.b] := by
  simp only [ofBytes, ofDigitValues, List.map_cons, List.map_nil, List.foldl_cons, List.foldl_nil,
    Rgba.toArgb]
  omega

theorem exists_toArgb (hn : n < 0x100000000) : ∃ c : Rgba, c.toArgb = n := by
  have hpacked := Rgba.toArgb_ofArgb n
  exact ⟨Rgba.ofArgb n, by omega⟩

theorem standsFor_toArgb (c : Rgba) : StandsFor c.toArgb c := by
  have h : StandsFor c.toArgb (Rgba.ofArgb c.toArgb) := ⟨rfl, rfl⟩
  rwa [Rgba.ofArgb_toArgb] at h

/-- A number of three bytes that is made solid has them below a full alpha. -/
theorem solid_of_toArgb {c : Rgba} (hn : n < 0x1000000) (hc : c.toArgb = n + 0xFF000000) :
    c.a = 255 ∧ ofBytes [c.r, c.g, c.b] = n := by
  have hlow : ofBytes [c.r, c.g, c.b] < 0x1000000 := by simpa using ofBytes_lt [c.r, c.g, c.b]
  rw [toArgb_eq] at hc
  have halpha : c.a.toNat = 255 := by omega
  exact ⟨UInt8.toNat_inj.mp halpha, by omega⟩

/-- **Every colour is read however it is spelled**: with digits in either case, behind a number sign,
`0x`, `0X` or nothing, and with any blanks around. Eight digits are read as the number that they
spell, and six as that number with a full alpha. The number stands for the colour whose alpha, red,
green and blue are the pairs of the eight digits; six digits are those of red, green and blue, and
alpha is 255. -/
theorem read_spelled (hwritten : Writes digits written) :
    (∀ n : Nat, n < 0x100000000 → Spell digits 8 n →
      read written = .ok n ∧
      ∃ c : Rgba, SpellBytes digits [c.a, c.r, c.g, c.b] ∧ StandsFor n c) ∧
    ∀ n : Nat, n < 0x1000000 → Spell digits 6 n →
      read written = .ok (n + 0xFF000000) ∧
      ∃ c : Rgba, SpellBytes digits [c.r, c.g, c.b] ∧ c.a = 255 ∧
        StandsFor (n + 0xFF000000) c := by
  constructor
  · intro n hn hdigits
    refine ⟨read_eight hwritten hn hdigits, ?_⟩
    obtain ⟨c, rfl⟩ := exists_toArgb hn
    rw [← ofBytes_toArgb] at hdigits
    exact ⟨c, Spell.pairs hdigits, standsFor_toArgb c⟩
  · intro n hn hdigits
    refine ⟨read_six hwritten hn hdigits, ?_⟩
    -- the colour is that of the number made solid; the digits leave its alpha out
    obtain ⟨c, hc⟩ := exists_toArgb (n := n + 0xFF000000) (by omega)
    obtain ⟨halpha, hjoin⟩ := solid_of_toArgb hn hc
    rw [← hjoin] at hdigits
    have hstands := standsFor_toArgb c
    rw [hc] at hstands
    exact ⟨c, Spell.pairs hdigits, halpha, hstands⟩

/-- A half solid colour with all there is around it, and an orange one. -/
theorem read_spelled_mixed :
    (Writes "80aBcD0f".toList "\u00a0 0X80aBcD0f\t" ∧ 0x80ABCD0F < 0x100000000 ∧
      Spell "80aBcD0f".toList 8 0x80ABCD0F ∧ read "\u00a0 0X80aBcD0f\t" = .ok 0x80ABCD0F ∧
      ∃ c : Rgba, SpellBytes "80aBcD0f".toList [c.a, c.r, c.g, c.b] ∧ StandsFor 0x80ABCD0F c) ∧
    (Writes "Ff8000".toList "#Ff8000\n" ∧ 0xFF8000 < 0x1000000 ∧ Spell "Ff8000".toList 6 0xFF8000 ∧
      read "#Ff8000\n" = .ok 0xFFFF8000 ∧
      ∃ c : Rgba, SpellBytes "Ff8000".toList [c.r, c.g, c.b] ∧ c.a = 255 ∧ StandsFor 0xFFFF8000 c) := by
  have hlong : Writes "80aBcD0f".toList "\u00a0 0X80aBcD0f\t" :=
    @Writes.written _ ['\u00a0', ' '] ['0', 'X'] ['\t'] (List.all_eq_true.mp rfl) (by decide)
      (List.all_eq_true.mp rfl)
  have hshort : Writes "Ff8000".toList "#Ff8000\n" :=
    @Writes.written _ [] ['#'] ['\n'] (List.all_eq_true.mp rfl) (by decide)
      (List.all_eq_true.mp rfl)
  have hdigits8 : Spell "80aBcD0f".toList 8 0x80ABCD0F := by rfl
  have hdigits6 : Spell "Ff8000".toList 6 0xFF8000 := by rfl
  exact ⟨⟨hlong, by decide, hdigits8, (read_spelled hlong).1 0x80ABCD0F (by decide) hdigits8⟩,
    hshort, by decide, hdigits6, (read_spelled hshort).2 0xFF8000 (by decide) hdigits6⟩

end Perception.Colour
