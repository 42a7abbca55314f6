import Perception.Colour.Read
import Perception.Proofs.Number.Numeral
import Perception.Proofs.Text.Cut

set_option autoImplicit false

/-! # Which texts write a colour

Blanks around a text, its case, a number sign in front and `0x` behind that do not count; what is
left is read as a colour if it is a hexadecimal numeral of six or eight characters
(`Colour.Reads`). The usual form has at most one mark and nothing but digits (`Colour.IsUsual`).
Every usual text is read; so are some others (`Colour.read_signed`), since a numeral may have a
sign, underscores, blanks and a mark of its own, and digits of any script (`Colour.read_accepts`).
-/

namespace Perception.Colour

open Perception.Text

variable {written : String} {i n : Int}

/-! ## Forms of a written colour -/

def lowered (written : String) : List Char := (trim written.toList).flatMap lower

/-- The digits of the usual form, in lower case. -/
def isHexDigit (c : Char) : Bool := ('0' ≤ c && c ≤ '9') || ('a' ≤ c && c ≤ 'f')

/-- The usual form of a colour: at most one mark, and six or eight digits. -/
def IsUsual (written : String) : Prop :=
  ∃ mark digits, lowered written = mark ++ digits ∧
    (mark = [] ∨ mark = ['#'] ∨ mark = ['0', 'x']) ∧ (digits.length = 6 ∨ digits.length = 8) ∧
    ∀ c ∈ digits, isHexDigit c = true

/-- The packed colour that a text is read as: behind its marks stands a hexadecimal numeral of eight
characters, or of six if the colour is solid. -/
inductive Reads (written : String) : Int → Prop
  | solid {i : Int} (six : (digitsOf written).length = 6)
      (numeral : Number.Numeral 16 (digitsOf written) i) : Reads written (bitOr i Colour.solid)
  | packed {i : Int} (eight : (digitsOf written).length = 8)
      (numeral : Number.Numeral 16 (digitsOf written) i) : Reads written i

/-! ## Marks -/

theorem dropMark_cases (mark cs : List Char) :
    cs = mark ++ dropMark mark cs ∨ cs = dropMark mark cs := by
  unfold dropMark
  cases h : after? mark cs with
  | some rest => exact Or.inl (after?_eq_some.mp h)
  | none => exact Or.inr rfl

theorem dropMark_append (mark cs : List Char) : dropMark mark (mark ++ cs) = cs := by
  rw [dropMark, after?_eq_some.mpr rfl]
  rfl

theorem dropMark_of_not_prefix {mark cs : List Char} (h : ∀ rest, cs ≠ mark ++ rest) :
    dropMark mark cs = cs := by
  unfold dropMark
  cases hafter : after? mark cs with
  | some rest => exact absurd (after?_eq_some.mp hafter) (h rest)
  | none => rfl

/-- In front of the digits stand the number sign, `0x`, both in this order, or neither. -/
theorem lowered_eq (written : String) :
    ∃ mark, lowered written = mark ++ digitsOf written ∧
      (mark = [] ∨ mark = ['#'] ∨ mark = ['0', 'x'] ∨ mark = ['#', '0', 'x']) := by
  have hdigits : digitsOf written = dropMark ['0', 'x'] (dropMark ['#'] (lowered written)) := rfl
  rw [hdigits]
  rcases dropMark_cases ['#'] (lowered written) with hsign | hsign <;>
    rcases dropMark_cases ['0', 'x'] (dropMark ['#'] (lowered written)) with hzero | hzero
  · exact ⟨['#', '0', 'x'], by rw [hsign]; exact congrArg _ hzero, by simp⟩
  · exact ⟨['#'], by rw [← hzero]; exact hsign, by simp⟩
  · exact ⟨['0', 'x'], by rw [← hzero]; exact hsign, by simp⟩
  · exact ⟨[], by rw [← hzero]; exact hsign, by simp⟩

/-! ## The usual form -/

/-- The digits of the usual form are digits. -/
theorem digit?_of_isHexDigit {c : Char} (h : isHexDigit c = true) :
    ∃ d, digit? 16 c = some d := by
  simp only [isHexDigit, Bool.or_eq_true, Bool.and_eq_true, decide_eq_true_eq] at h
  rcases h with ⟨hlow, hhigh⟩ | ⟨hlow, hhigh⟩
  · have hdigit : c.isDigit = true := by
      rw [Char.isDigit, Bool.and_eq_true]
      exact ⟨decide_eq_true hlow, decide_eq_true hhigh⟩
    exact ⟨c.toNat - 48, Number.digit?_of_isDigit hdigit (by decide)⟩
  · have hlow' : 97 ≤ c.toNat := hlow
    have hhigh' : c.toNat ≤ 102 := hhigh
    have hdecimal : ¬('0' ≤ c ∧ c ≤ '9') := by
      rintro ⟨-, h9⟩
      have h9' : c.toNat ≤ 57 := h9
      omega
    have hz : c ≤ 'z' := show c.toNat ≤ 122 by omega
    refine ⟨c.toNat - 87, ?_⟩
    rw [digit?, decimalDigit?, if_pos (by omega), if_neg hdecimal, Option.orElse_none,
      letterDigit?, if_pos ⟨hlow, hz⟩]
    exact Option.filter_eq_some_iff.mpr ⟨rfl, decide_eq_true (by omega)⟩

/-- The digits of a usual text are what is left of it. -/
theorem digitsOf_of_usual {mark digits : List Char} (hlow : lowered written = mark ++ digits)
    (hmark : mark = [] ∨ mark = ['#'] ∨ mark = ['0', 'x'])
    (hhex : ∀ c ∈ digits, isHexDigit c = true) : digitsOf written = digits := by
  -- no mark stands in front of hexadecimal digits
  have hsign : dropMark ['#'] digits = digits := by
    refine dropMark_of_not_prefix fun rest heq => ?_
    exact absurd (hhex '#' (by rw [heq]; exact List.mem_cons_self)) (by decide)
  have hzero : dropMark ['0', 'x'] digits = digits := by
    refine dropMark_of_not_prefix fun rest heq => ?_
    exact absurd (hhex 'x' (by rw [heq]; exact List.mem_cons_of_mem _ List.mem_cons_self))
      (by decide)
  show dropMark ['0', 'x'] (dropMark ['#'] (lowered written)) = digits
  rw [hlow]
  rcases hmark with rfl | rfl | rfl
  · rw [List.nil_append, hsign, hzero]
  · rw [dropMark_append, hzero]
  · have hkeep : dropMark ['#'] (['0', 'x'] ++ digits) = ['0', 'x'] ++ digits :=
      dropMark_of_not_prefix fun rest heq => nomatch heq
    rw [hkeep, dropMark_append]

/-- A usual text is read. -/
theorem IsUsual.reads (h : IsUsual written) :
    (∃ n, Reads written n) ∧ ∀ c ∈ digitsOf written, isHexDigit c = true := by
  obtain ⟨mark, digits, hlow, hmark, hlength, hhex⟩ := h
  have hdigits := digitsOf_of_usual hlow hmark hhex
  rw [hdigits]
  refine ⟨?_, hhex⟩
  have hne : digits ≠ [] := by
    rintro rfl
    rcases hlength with h | h <;> cases h
  obtain ⟨values, hrun⟩ :=
    Number.exists_digitRun hne fun c hc => digit?_of_isHexDigit (hhex c hc)
  have hnumeral : Number.Numeral 16 digits (ofDigitValues 16 values) := hrun.numeral nofun
  rw [← hdigits] at hlength hnumeral
  rcases hlength with h6 | h8
  · exact ⟨_, .solid h6 hnumeral⟩
  · exact ⟨_, .packed h8 hnumeral⟩

/-! ## Reading -/

theorem read_eq_ok_iff : read written = .ok n ↔ Reads written n := by
  constructor
  · intro h
    unfold read at h
    dsimp only at h
    split at h
    · cases h
    · next hlength =>
        split at h
        · cases h
        · next i hi =>
            have hnumeral := Number.readInt?_eq_some_iff.mp hi
            cases h
            split
            · next h6 => exact .solid h6 hnumeral
            · next h6 =>
                exact .packed (Decidable.byContradiction fun h8 => hlength ⟨h6, h8⟩) hnumeral
  · intro h
    unfold read
    dsimp only
    cases h with
    | solid six numeral =>
        rw [if_neg (fun h => h.1 six), Number.readInt?_eq_some_iff.mpr numeral]
        dsimp only
        rw [if_pos six]
    | packed eight numeral =>
        rw [if_neg (fun h => h.2 eight), Number.readInt?_eq_some_iff.mpr numeral]
        dsimp only
        rw [if_neg (by rw [eight]; decide)]

theorem kind_of_read {f : Failure} (h : read written = .error f) : f.kind = .argument := by
  unfold read at h
  dsimp only at h
  split at h
  · cases h
    rfl
  · split at h <;> cases h
    rfl

/-- What is read has 32 bits, unless it is negative. -/
theorem Reads.bounds (h : Reads written n) :
    n < 0x100000000 ∧ (n < 0 → '-' ∈ digitsOf written) := by
  cases h with
  | packed eight numeral =>
      obtain ⟨habs, hneg⟩ := numeral.bounds (by decide)
      rw [eight] at habs
      exact ⟨by omega, hneg⟩
  | @solid i six numeral =>
      obtain ⟨habs, hneg⟩ := numeral.bounds (by decide)
      rw [six] at habs
      cases i with
      | ofNat m =>
          have hm : m < 2 ^ 32 := by
            have : (Int.ofNat m).natAbs = m := rfl
            omega
          have hor : m ||| 0xFF000000 < 2 ^ 32 := Nat.or_lt_two_pow hm (by decide)
          have heq : bitOr (.ofNat m) Colour.solid = ((m ||| 0xFF000000 : Nat) : Int) := rfl
          rw [heq]
          exact ⟨by omega, fun h => by omega⟩
      | negSucc m =>
          have heq : bitOr (.negSucc m) Colour.solid
              = .negSucc (m - (m &&& 0xFF000000)) := rfl
          rw [heq]
          exact ⟨by omega, fun _ => hneg (by omega)⟩

/-- **Which texts are read as a colour**: those of whose characters behind the marks make a
hexadecimal numeral of six or eight characters. The colour has 32 bits, unless it is negative, and
any other text is a bad argument. Texts of the usual form are read, and give 32 bits; a text of
another form is only read with both marks in front of it, or if one of those characters is no
hexadecimal digit. -/
theorem read_accepts (written : String) :
    (∃ mark, lowered written = mark ++ digitsOf written ∧
      (mark = [] ∨ mark = ['#'] ∨ mark = ['0', 'x'] ∨ mark = ['#', '0', 'x'])) ∧
    (∀ n, read written = .ok n ↔ Reads written n) ∧
    (∀ f, read written = .error f → f.kind = .argument) ∧
    (IsUsual written → ∃ n, read written = .ok n ∧ 0 ≤ n ∧ n < 0x100000000) ∧
    ∀ n, read written = .ok n → ¬IsUsual written →
      n < 0x100000000 ∧ (n < 0 → '-' ∈ digitsOf written) ∧
      (lowered written = ['#', '0', 'x'] ++ digitsOf written ∨
        ∃ c ∈ digitsOf written, isHexDigit c = false) := by
  refine ⟨lowered_eq written, fun n => read_eq_ok_iff, fun f => kind_of_read, fun h => ?_,
    fun n hread hunusual => ?_⟩
  · obtain ⟨⟨n, hn⟩, hhex⟩ := h.reads
    obtain ⟨hlt, hneg⟩ := hn.bounds
    refine ⟨n, read_eq_ok_iff.mpr hn, Int.not_lt.mp fun h => ?_, hlt⟩
    exact absurd (hhex _ (hneg h)) (by decide)
  · have hreads := read_eq_ok_iff.mp hread
    obtain ⟨hlt, hneg⟩ := hreads.bounds
    refine ⟨hlt, hneg, ?_⟩
    by_contra hcon
    rw [not_or] at hcon
    obtain ⟨hmarks, hdigits⟩ := hcon
    have hhex : ∀ c ∈ digitsOf written, isHexDigit c = true := by
      intro c hc
      by_contra hfalse
      exact hdigits ⟨c, hc, Bool.eq_false_iff.mpr hfalse⟩
    obtain ⟨mark, hlow, hmark⟩ := lowered_eq written
    have hlength : (digitsOf written).length = 6 ∨ (digitsOf written).length = 8 := by
      cases hreads with
      | solid six numeral => exact Or.inl six
      | packed eight numeral => exact Or.inr eight
    -- a text with one mark or none, and only hexadecimal digits, is of the usual form
    rcases hmark with rfl | rfl | rfl | rfl
    · exact hunusual ⟨_, _, hlow, by simp, hlength, hhex⟩
    · exact hunusual ⟨_, _, hlow, by simp, hlength, hhex⟩
    · exact hunusual ⟨_, _, hlow, by simp, hlength, hhex⟩
    · exact hmarks hlow

/-- Texts of another form are read as well: a sign counts as one of the six characters, and the
number may be negative. -/
theorem read_signed :
    read "+12345" = .ok 0xFF012345 ∧ ¬IsUsual "+12345" ∧ read "-12345" = .ok (-0x12345) := by
  refine ⟨by rfl, ?_, by rfl⟩
  rintro ⟨mark, digits, hlow, hmark, -, hhex⟩
  have heq : lowered "+12345" = ['+', '1', '2', '3', '4', '5'] := by rfl
  rw [heq] at hlow
  rcases hmark with rfl | rfl | rfl
  · rw [List.nil_append] at hlow
    exact absurd (hhex '+' (by rw [← hlow]; exact List.mem_cons_self)) (by decide)
  · cases hlow
  · cases hlow

end Perception.Colour
