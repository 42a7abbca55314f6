import Mathlib.Data.List.TakeWhile
import Perception.Proofs.Text.Utf8
import Perception.Uri.Percent

set_option autoImplicit false

/-! # Escapes undone

What is written in the path of an address is plain ASCII without question marks and number signs
(`Uri.inert_of_mem_encodePath`), and reading it gives the path back (`Uri.decodePath_encodePath`):
byte by byte, and then the bytes as text.
-/

namespace Perception.Uri

variable {c : Char} {b : UInt8}

/-- Characters of ASCII that neither end the path of an address nor count for nothing in it. -/
structure Inert (c : Char) : Prop where
  ascii : isAscii c = true
  noQuery : c ≠ '?'
  noFragment : c ≠ '#'
  kept : isIgnored c = false

/-! ## One byte -/

def isPlainChar (c : Char) : Bool :=
  isAscii c && (isLetter c || isDigit c || c = '_' || c = '.' || c = '-' || c = '~' || c = '/')

def escapeDigit (n : Nat) : Char := if n < 10 then Char.ofNat (48 + n) else Char.ofNat (55 + n)

theorem isPlainChar.inert (h : isPlainChar c = true) : Inert c := by
  have hascii : isAscii c = true := (Bool.and_eq_true_iff.mp h).1
  have hne (d : Char) (hd : isPlainChar d = false) : c ≠ d := by
    rintro rfl
    exact Bool.false_ne_true (hd.symm.trans h)
  refine ⟨hascii, hne _ rfl, hne _ rfl, ?_⟩
  simp [isIgnored, hne '\t' rfl, hne '\r' rfl, hne '\n' rfl]

theorem escapeDigit_spec :
    ∀ n < 16, Bytes.hexValue? (escapeDigit n) = some n ∧ isPlainChar (escapeDigit n) = true := by
  decide

theorem escapeByte_cases (b : UInt8) :
    (∃ c, isPlainChar c = true ∧ c.toNat = b.toNat ∧ escapeByte b = [c]) ∨
      escapeByte b = ['%', escapeDigit (b.toNat / 16), escapeDigit (b.toNat % 16)] := by
  have hb := b.toNat_lt
  cases hplain : isPlain b with
  | true =>
      refine Or.inl ⟨Char.ofNat b.toNat, hplain, ?_, ?_⟩
      · have hvalid : b.toNat.isValidChar := Or.inl (by omega)
        rw [Char.ofNat, dif_pos hvalid]
        rfl
      · rw [escapeByte, if_pos hplain]
  | false =>
      refine Or.inr ?_
      rw [escapeByte, hplain, if_neg Bool.false_ne_true]
      rfl

theorem inert_of_mem_escapeByte (h : c ∈ escapeByte b) : Inert c := by
  have hb := b.toNat_lt
  rcases escapeByte_cases b with ⟨d, hd, -, heq⟩ | heq
  · rw [heq, List.mem_singleton] at h
    rw [h]
    exact isPlainChar.inert hd
  · rw [heq, List.mem_cons, List.mem_cons, List.mem_singleton] at h
    rcases h with rfl | rfl | rfl
    · exact ⟨rfl, by decide, by decide, rfl⟩
    · exact isPlainChar.inert (escapeDigit_spec _ (by omega)).2
    · exact isPlainChar.inert (escapeDigit_spec _ (by omega)).2

theorem unescape_plain (hc : c ≠ '%') (rest : List Char) :
    unescape (c :: rest) = UInt8.ofNat c.toNat :: unescape rest := by
  rw [unescape]
  rintro a b rest' heq
  exact absurd heq hc

/-- **Reading one byte** takes what it was written as. -/
theorem unescape_escapeByte (b : UInt8) (rest : List Char) :
    unescape (escapeByte b ++ rest) = b :: unescape rest := by
  have hb := b.toNat_lt
  rcases escapeByte_cases b with ⟨c, hc, hcode, heq⟩ | heq
  · have hpercent : c ≠ '%' := by
      rintro rfl
      cases hc
    rw [heq, List.singleton_append, unescape_plain hpercent, hcode, UInt8.ofNat_toNat]
  · -- the two digits are read as the halves that they were written for
    have hhigh := (escapeDigit_spec (b.toNat / 16) (by omega)).1
    have hlow := (escapeDigit_spec (b.toNat % 16) (by omega)).1
    have hvalue : b.toNat / 16 * 16 + b.toNat % 16 = b.toNat := by omega
    rw [heq, List.cons_append, List.cons_append, List.singleton_append, unescape, hhigh, hlow]
    dsimp only
    rw [hvalue, UInt8.ofNat_toNat]

/-! ## A whole path -/

theorem unescape_flatMap (bs : Bytes) : unescape (bs.flatMap escapeByte) = bs := by
  induction bs with
  | nil => rfl
  | cons b bs ih => rw [List.flatMap_cons, unescape_escapeByte, ih]

theorem inert_of_mem_encodePath {cs : List Char} : ∀ c ∈ encodePath cs, Inert c := by
  intro c hc
  obtain ⟨b, -, hb⟩ := List.mem_flatMap.mp hc
  exact inert_of_mem_escapeByte hb

/-- A path of ASCII is read as one run. -/
theorem decodePath_ascii {cs : List Char} (h : ∀ c ∈ cs, isAscii c = true) :
    decodePath cs = Utf8.decodeLossy (unescape cs) := by
  cases cs with
  | nil => rfl
  | cons c cs =>
      have hrun : (c :: cs).takeWhile isAscii = c :: cs := List.takeWhile_eq_self_iff.mpr h
      have hrest : (c :: cs).dropWhile isAscii = [] := List.dropWhile_eq_nil_iff.mpr h
      rw [decodePath, List.length_cons, decodeRuns, if_pos (h c List.mem_cons_self), hrun, hrest]
      cases cs.length <;> exact List.append_nil _

/-- **Reading what was written** gives the path. -/
theorem decodePath_encodePath (cs : List Char) : decodePath (encodePath cs) = cs := by
  rw [decodePath_ascii fun c hc => (inert_of_mem_encodePath c hc).ascii, encodePath,
    unescape_flatMap, Utf8.decodeLossy_encode]

end Perception.Uri
