import Perception.Text.Utf8

set_option autoImplicit false

/-! # Decoding what was encoded

The UTF-8 bytes of a text decode to the text. A character has one to four bytes; `next_encodeChar`
says that reading takes exactly these and gives the character's code point, and the rest goes by
induction on the text (`codePoints?_encode`, `decodeLossy_encode`).
-/

namespace Perception.Utf8

/-! ## One character -/

theorem toNat_ofNat {n : Nat} (h : n < 256) : (UInt8.ofNat n).toNat = n :=
  UInt8.toNat_ofNat_of_lt' h

/-- A continuation byte adds its six bits. -/
theorem continue?_ofNat {k lo hi acc x : Nat} {bs : Bytes} (hlo : lo ≤ 0x80 + x)
    (hhi : 0x80 + x ≤ hi) (hx : x < 64) :
    continue? (k + 1) lo hi acc (UInt8.ofNat (0x80 + x) :: bs)
      = continue? k 0x80 0xBF (acc * 64 + x) bs := by
  have hbyte : (UInt8.ofNat (0x80 + x)).toNat = 0x80 + x := toNat_ofNat (by omega)
  rw [continue?, hbyte, if_pos ⟨hlo, hhi⟩, Nat.add_sub_cancel_left]

theorem next_of_lead {halves : Bool} {n k lo hi acc : Nat} (bs : Bytes)
    (h : lead? halves (UInt8.ofNat n) = some (k, lo, hi, acc)) :
    next halves (UInt8.ofNat n) bs = continue? k lo hi acc bs := by
  rw [next, h]

theorem lead?_two {halves : Bool} {x : Nat} (hlo : 2 ≤ x) (hhi : x < 0x20) :
    lead? halves (UInt8.ofNat (0xC0 + x)) = some (1, 0x80, 0xBF, x) := by
  have hbyte : (UInt8.ofNat (0xC0 + x)).toNat = 0xC0 + x := toNat_ofNat (by omega)
  simp only [lead?, hbyte]
  rw [if_neg (by omega), if_neg (by omega), if_pos (by omega), Nat.add_sub_cancel_left]

/-- The bytes that may follow the lead byte of a character of three bytes. -/
theorem lead?_three (halves : Bool) {x y : Nat} (hx : x < 0x10) (hy : y < 64)
    (hlow : x = 0 → 0x20 ≤ y) (hhalf : x = 0xD → y < 0x20) :
    ∃ lo hi, lead? halves (UInt8.ofNat (0xE0 + x)) = some (2, lo, hi, x)
      ∧ lo ≤ 0x80 + y ∧ 0x80 + y ≤ hi := by
  have hbyte : (UInt8.ofNat (0xE0 + x)).toNat = 0xE0 + x := toNat_ofNat (by omega)
  simp only [lead?, hbyte]
  rw [if_neg (by omega), if_neg (by omega), if_neg (by omega)]
  by_cases h0 : x = 0
  · subst h0
    exact ⟨0xA0, 0xBF, rfl, by omega, by omega⟩
  · rw [if_neg (by omega)]
    by_cases hD : 0xE0 + x = 0xED ∧ (!halves) = true
    · rw [if_pos hD, Nat.add_sub_cancel_left]
      exact ⟨0x80, 0x9F, rfl, by omega, by omega⟩
    · rw [if_neg hD, if_pos (by omega), Nat.add_sub_cancel_left]
      exact ⟨0x80, 0xBF, rfl, by omega, by omega⟩

/-- The bytes that may follow the lead byte of a character of four bytes. -/
theorem lead?_four (halves : Bool) {x y : Nat} (hx : x ≤ 4) (hy : y < 64)
    (hlow : x = 0 → 0x10 ≤ y) (hhigh : x = 4 → y < 0x10) :
    ∃ lo hi, lead? halves (UInt8.ofNat (0xF0 + x)) = some (3, lo, hi, x)
      ∧ lo ≤ 0x80 + y ∧ 0x80 + y ≤ hi := by
  have hbyte : (UInt8.ofNat (0xF0 + x)).toNat = 0xF0 + x := toNat_ofNat (by omega)
  simp only [lead?, hbyte]
  rw [if_neg (by omega), if_neg (by omega), if_neg (by omega), if_neg (by omega),
    if_neg (by omega), if_neg (by omega)]
  by_cases h0 : x = 0
  · subst h0
    exact ⟨0x90, 0xBF, rfl, by omega, by omega⟩
  · rw [if_neg (by omega)]
    by_cases h4 : x = 4
    · subst h4
      exact ⟨0x80, 0x8F, rfl, by omega, by omega⟩
    · rw [if_pos (by omega), Nat.add_sub_cancel_left]
      exact ⟨0x80, 0xBF, rfl, by omega, by omega⟩

/-- **Reading takes the bytes of one character and gives its code point.** -/
theorem next_encodeChar (halves : Bool) (c : Char) :
    ∃ b bs, encodeChar c = b :: bs
      ∧ ∀ rest, next halves b (bs ++ rest) = (some c.toNat, rest) := by
  have hv : c.toNat < 0xD800 ∨ 0xDFFF < c.toNat ∧ c.toNat < 0x110000 := c.valid
  unfold encodeChar
  dsimp only
  -- as many bytes as the size of the code point asks for, from one to four
  by_cases h1 : c.toNat < 0x80
  · refine ⟨_, [], if_pos h1, fun rest => ?_⟩
    have hlead : lead? halves (UInt8.ofNat c.toNat) = some (0, 0, 0, c.toNat) := by
      have hbyte : (UInt8.ofNat c.toNat).toNat = c.toNat := toNat_ofNat (by omega)
      simp only [lead?, hbyte, if_pos h1]
    rw [next_of_lead _ hlead]
    rfl
  rw [if_neg h1]
  by_cases h2 : c.toNat < 0x800
  · refine ⟨_, _, if_pos h2, fun rest => ?_⟩
    rw [next_of_lead _ (lead?_two (by omega) (by omega)), List.singleton_append,
      continue?_ofNat (by omega) (by omega) (by omega), continue?]
    have hval : c.toNat / 64 * 64 + c.toNat % 64 = c.toNat := by omega
    rw [hval]
  rw [if_neg h2]
  by_cases h3 : c.toNat < 0x10000
  · refine ⟨_, _, if_pos h3, fun rest => ?_⟩
    obtain ⟨lo, hi, hlead, hlo, hhi⟩ := lead?_three halves (x := c.toNat / 4096)
      (y := c.toNat / 64 % 64) (by omega) (by omega) (by omega) (by omega)
    rw [next_of_lead _ hlead, List.cons_append, List.singleton_append,
      continue?_ofNat hlo hhi (by omega), continue?_ofNat (by omega) (by omega) (by omega),
      continue?]
    have hval : (c.toNat / 4096 * 64 + c.toNat / 64 % 64) * 64 + c.toNat % 64 = c.toNat := by
      omega
    rw [hval]
  · refine ⟨_, _, if_neg h3, fun rest => ?_⟩
    obtain ⟨lo, hi, hlead, hlo, hhi⟩ := lead?_four halves (x := c.toNat / 262144)
      (y := c.toNat / 4096 % 64) (by omega) (by omega) (by omega) (by omega)
    rw [next_of_lead _ hlead, List.cons_append, List.cons_append, List.singleton_append,
      continue?_ofNat hlo hhi (by omega), continue?_ofNat (by omega) (by omega) (by omega),
      continue?_ofNat (by omega) (by omega) (by omega), continue?]
    have hval : ((c.toNat / 262144 * 64 + c.toNat / 4096 % 64) * 64 + c.toNat / 64 % 64) * 64
        + c.toNat % 64 = c.toNat := by
      omega
    rw [hval]

/-! ## A whole text -/

theorem units_encode (halves : Bool) (cs : List Char) :
    ∀ fuel, (encode cs).length ≤ fuel →
      units halves fuel (encode cs) = cs.map fun c => some c.toNat := by
  induction cs with
  | nil =>
      intro fuel _
      cases fuel <;> rfl
  | cons c cs ih =>
      intro fuel hf
      obtain ⟨b, bs, hb, hnext⟩ := next_encodeChar halves c
      have happ : encode (c :: cs) = b :: (bs ++ encode cs) := by
        rw [encode, List.flatMap_cons, hb, List.cons_append]
        rfl
      rw [happ] at hf ⊢
      simp only [List.length_cons, List.length_append] at hf
      cases fuel with
      | zero => omega
      | succ fuel =>
          simp only [units, hnext, List.map_cons]
          rw [ih fuel (by omega)]

theorem mapM_some (ns : List Nat) : (ns.map some).mapM id = some ns := by
  induction ns with
  | nil => rfl
  | cons n ns ih => simp [List.mapM_cons, ih]

/-- The bytes of a text give its code points. -/
theorem codePoints?_encode (cs : List Char) :
    codePoints? (encode cs) = some (cs.map Char.toNat) := by
  have hmap : (cs.map fun c => some c.toNat) = (cs.map Char.toNat).map some := by simp
  rw [codePoints?, units_encode true cs _ (Nat.le_refl _), hmap, mapM_some]

/-- **The bytes of a text** are read as the text. -/
theorem decodeLossy_encode (cs : List Char) : decodeLossy (encode cs) = cs := by
  have hchar : (fun c : Char => Char.ofNat ((some c.toNat).getD 0xFFFD)) = id :=
    funext Char.ofNat_toNat
  rw [decodeLossy, units_encode false cs _ (Nat.le_refl _), List.map_map]
  show cs.map (fun c => Char.ofNat ((some c.toNat).getD 0xFFFD)) = cs
  rw [hchar, List.map_id]

end Perception.Utf8
