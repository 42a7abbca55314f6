import Perception.Json.Printer
import Perception.Proofs.Json.Atoms
import Perception.Proofs.Number.Written

set_option autoImplicit false

/-! # The lexemes of written values

A value written on one line is cut into the lexemes that `lexemesOf` lists. Numbers are written as
atoms of the grammar (`atom_intChars`, `atom_floatChars`) and texts as its texts (`inside_flatMap`),
so they are cut as these; lists and records give their brackets, commas and colons
(`cut_compactChars`). A part is cut alike whatever stands around it (`Cut`), if no number goes on
behind it, and parts can be joined (`cut_join`) and put between brackets (`cut_between`), with blanks
at all these places.
-/

namespace Perception.Json

/-! ## Whole numbers -/

theorem isDigit_of_char {c : Char} (h : c.isDigit = true) : isDigit c = true := by
  simpa [isDigit, Char.isDigit, Char.le_def] using h

theorem ofDigits_digitChars (n : Nat) : ofDigits (Number.digitChars n) = n := by
  have key : ∀ (ds : List Char) (acc : Nat),
      ds.foldl (fun n c => n * 10 + (c.toNat - 48)) acc = Nat.ofDigitChars 10 ds acc := by
    intro ds
    induction ds with
    | nil => intro acc; rfl
    | cons d ds ih =>
        intro acc
        rw [List.foldl_cons, ih, Nat.ofDigitChars_cons, Nat.mul_comm]
        rfl
  rw [ofDigits, key]
  exact Nat.ofDigitChars_ten_toDigits

/-- A zero alone, or digits that start with none, are the whole part of a number. -/
theorem whole_of_head {ds : List Char} (hds : ∀ c ∈ ds, c.isDigit = true)
    (hhead : ds = ['0'] ∨ ∃ e es, ds = e :: es ∧ e ≠ '0') : Whole ds := by
  rcases hhead with rfl | ⟨e, es, rfl, hne⟩
  · exact .zero
  · exact .digits hne fun c hc => isDigit_of_char (hds c hc)

theorem whole_digitChars (n : Nat) : Whole (Number.digitChars n) :=
  whole_of_head (fun _ hc => Nat.isDigit_of_mem_toDigits (by decide) (by decide) hc)
    ((Number.digitChars_head n).imp_left And.right)

/-- **A whole number is written as an atom**, if it has not too many digits. -/
theorem atom_intChars {i : Int}
    (hi : (Number.digitChars i.natAbs).length ≤ Number.maxDigits) :
    Atom (Number.intChars i) (.int i) := by
  have hnumeral (negative : Bool) : Numeral negative (Number.digitChars i.natAbs)
      (.int (if negative then -(i.natAbs : Int) else i.natAbs)) := by
    have h : Numeral negative _ _ := .whole (whole_digitChars i.natAbs) hi
    rwa [ofDigits_digitChars] at h
  unfold Number.intChars
  split
  · rename_i hneg
    have hval : -(i.natAbs : Int) = i := by omega
    have hnegative := hnumeral true
    rw [if_pos rfl, hval] at hnegative
    exact .negative hnegative
  · rename_i hpos
    have hval : (i.natAbs : Int) = i := by omega
    have hpositive := hnumeral false
    rw [if_neg Bool.false_ne_true, hval] at hpositive
    exact .positive hpositive

/-! ## Fractions -/

/-- Digits have one value, whether they are read as characters or as numbers. -/
theorem ofDigits_eq (ds : List Char) :
    ofDigits ds = Text.ofDigitValues 10 (Number.Spelling.valuesOf ds) := by
  rw [ofDigits, Text.ofDigitValues, Number.Spelling.valuesOf, List.foldl_map]

section Spelling

variable {s : Number.Spelling}

theorem places_placesText (hs : s.Proper) : Places s.placesText s.places := by
  unfold Number.Spelling.placesText
  cases hplaces : s.places with
  | nil => exact .none
  | cons c ds => exact .some fun x hx => isDigit_of_char (hs.places x (hplaces ▸ hx))

theorem exponent_exponentText (hs : s.Proper) : Exponent s.exponentText
    (if s.exponent.isSome then some s.exponentValue else none) := by
  unfold Number.Spelling.exponentText Number.Spelling.exponentValue
  cases hexponent : s.exponent with
  | none => exact .none
  | some e =>
      obtain ⟨negative, ds⟩ := e
      obtain ⟨hne, hds⟩ := hs.exponent _ hexponent
      obtain ⟨c, ds, rfl⟩ := List.exists_cons_of_ne_nil hne
      have hdigits : ∀ x ∈ c :: ds, isDigit x = true := fun x hx => isDigit_of_char (hds x hx)
      simp only [Option.isSome_some, if_true, ← ofDigits_eq]
      cases negative with
      | true => exact .some (Or.inl rfl) .minus hdigits
      | false => exact .some (Or.inl rfl) .plus hdigits

/-- A spelling is a numeral for its value. -/
theorem numeral_text (hs : s.Proper) (negative : Bool) :
    Numeral negative s.text (.float (if negative then -s.value else s.value)) := by
  have hexponent : (if s.exponent.isSome then some s.exponentValue else none).getD 0
      = s.exponentValue := by
    unfold Number.Spelling.exponentValue
    cases s.exponent <;> rfl
  have hsome : s.places ≠ [] ∨ (if s.exponent.isSome then some s.exponentValue else none) ≠ none :=
    hs.fraction.imp_right fun h => by rw [if_pos h]; exact Option.some_ne_none _
  have h : Numeral negative _ _ := .fraction (whole_of_head hs.whole hs.head)
    (places_placesText hs) (exponent_exponentText hs) hsome
  rwa [hexponent, ofDigits_eq] at h

end Spelling

/-- **A floating-point number is written as an atom**, if its text reads back. -/
theorem atom_floatChars {x : Float} (hx : Number.readFloat? (Number.chars x) = some x) :
    Atom (floatChars x) (.float x) := by
  unfold floatChars
  -- what is read back is the number, so the atom that is written is one of the number itself
  cases hparts : Number.parts x with
  | nan =>
      have hchars : Number.chars x = ['n', 'a', 'n'] := by rw [Number.chars, hparts]
      have hread : Number.readFloat? ['n', 'a', 'n'] = some (0.0 / 0.0) := rfl
      rw [hchars, hread] at hx
      rw [← Option.some.inj hx]
      exact .name (by simp [names])
  | infinite negative =>
      have hchars : Number.chars x = (if negative then ['-'] else []) ++ ['i', 'n', 'f'] := by
        rw [Number.chars, hparts]
      rw [hchars] at hx
      cases negative with
      | true =>
          have hread : Number.readFloat? ['-', 'i', 'n', 'f'] = some (-1.0 / 0.0) := by decide
          rw [← Option.some.inj (hread.symm.trans hx)]
          exact .name (by simp [names])
      | false =>
          have hread : Number.readFloat? ['i', 'n', 'f'] = some (1.0 / 0.0) := rfl
          rw [← Option.some.inj (hread.symm.trans hx)]
          exact .name (by simp [names])
  | finite negative m q =>
      obtain ⟨s, hs, htext⟩ := Number.exists_spelling hparts
      rw [htext, Number.readFloat?_spelling hs negative] at hx
      have hnumeral := numeral_text hs negative
      rw [Option.some.inj hx] at hnumeral
      show Atom (Number.chars x) _
      rw [htext]
      cases negative with
      | true => exact .negative hnumeral
      | false => exact .positive hnumeral

/-! ## Texts -/

def unitsOf (c : Char) : List Nat :=
  if c.toNat < 0x10000 then [c.toNat]
  else [0xD800 + (c.toNat - 0x10000) / 0x400, 0xDC00 + (c.toNat - 0x10000) % 0x400]

theorem hexValue?_digitChar : ∀ n < 16, Bytes.hexValue? (Nat.digitChar n) = some n := by decide

theorem hexDigits_four (n : Nat) :
    Text.hexDigits 4 n = [Nat.digitChar (n / 4096 % 16), Nat.digitChar (n / 256 % 16),
      Nat.digitChar (n / 16 % 16), Nat.digitChar (n % 16)] := by
  simp only [Text.hexDigits, Nat.div_div_eq_div_mul, List.nil_append, List.cons_append]

theorem hex4?_hexDigits {n : Nat} (hn : n < 0x10000) :
    hex4? (Nat.digitChar (n / 4096 % 16)) (Nat.digitChar (n / 256 % 16))
      (Nat.digitChar (n / 16 % 16)) (Nat.digitChar (n % 16)) = some n := by
  have hval : (((n / 4096 % 16) * 16 + n / 256 % 16) * 16 + n / 16 % 16) * 16 + n % 16 = n := by
    omega
  simp only [hex4?, hexValue?_digitChar _ (Nat.mod_lt _ (by decide : 16 > 0)),
    Option.bind_eq_bind, Option.bind_some, hval]

theorem Inside.unitEscape {n : Nat} {cs rest : List Char} {ns : List Nat} (hn : n < 0x10000)
    (h : Inside cs ns rest) : Inside (unitEscape n ++ cs) (n :: ns) rest := by
  rw [Json.unitEscape, hexDigits_four]
  exact .digits (hex4?_hexDigits hn) h

/-- Characters beyond the first plane are written as the two halves of a pair. -/
theorem charText_of_big {c : Char} (h : 0x10000 ≤ c.toNat) :
    charText c = unitEscape (0xD800 + (c.toNat - 0x10000) / 0x400)
      ++ unitEscape (0xDC00 + (c.toNat - 0x10000) % 0x400) := by
  have hne : ∀ d : Char, d.toNat < 0x10000 → c ≠ d := by
    rintro d hd rfl
    omega
  unfold charText
  rw [if_neg (hne _ (by decide)), if_neg (hne _ (by decide)), if_neg (hne _ (by decide)),
    if_neg (hne _ (by decide)), if_neg (hne _ (by decide)), if_neg (by omega),
    if_neg (by omega), if_neg (by omega), if_neg (by omega)]

/-- One character, as it is written, stands for its units. -/
theorem Inside.charText {cs rest : List Char} {ns : List Nat} (c : Char) (h : Inside cs ns rest) :
    Inside (charText c ++ cs) (unitsOf c ++ ns) rest := by
  by_cases hbig : c.toNat < 0x10000
  · rw [unitsOf, if_pos hbig]
    unfold Json.charText
    -- the escapes of one letter first
    split
    · rename_i hc
      subst hc
      exact .letter rfl h
    split
    · rename_i hc
      subst hc
      exact .letter rfl h
    split
    · rename_i hc
      subst hc
      exact .letter rfl h
    split
    · rename_i hc
      subst hc
      exact .letter rfl h
    split
    · rename_i hc
      subst hc
      exact .letter rfl h
    split
    · rename_i hc
      rw [hc]
      exact .letter rfl h
    split
    · rename_i hc
      rw [hc]
      exact .letter rfl h
    split
    · rename_i hquote hslash _ _ _ _ _ hplain
      exact .plain hquote hslash hplain.1 h
    · exact h.unitEscape hbig
  · -- a pair of halves, each an escape of its own
    have hv : c.toNat < 0xD800 ∨ 0xDFFF < c.toNat ∧ c.toNat < 0x110000 := c.valid
    rw [unitsOf, if_neg hbig, charText_of_big (Nat.not_lt.mp hbig), List.append_assoc]
    exact (h.unitEscape (by omega)).unitEscape (by omega)

theorem inside_flatMap (cs rest : List Char) :
    Inside (cs.flatMap charText ++ '"' :: rest) (cs.flatMap unitsOf) rest := by
  induction cs with
  | nil => exact .close rest
  | cons c cs ih =>
      rw [List.flatMap_cons, List.flatMap_cons, List.append_assoc]
      exact ih.charText c

/-- No character is half of a pair. -/
theorem not_isHalf (c : Char) : (isHighHalf c.toNat || isLowHalf c.toNat) = false := by
  have hv : c.toNat < 0xD800 ∨ 0xDFFF < c.toNat ∧ c.toNat < 0x110000 := c.valid
  rw [Bool.eq_false_iff]
  intro h
  simp only [isHighHalf, isLowHalf, Bool.or_eq_true, Bool.and_eq_true, decide_eq_true_eq] at h
  omega

theorem joinHalves_cons {n : Nat} (ns : List Nat) (h : (isHighHalf n || isLowHalf n) = false) :
    joinHalves (n :: ns) = Char.ofNat n :: joinHalves ns := by
  cases ns with
  | nil => simp only [joinHalves, h, Bool.false_eq_true, if_false]
  | cons b ns =>
      have hhigh : isHighHalf n = false := (Bool.or_eq_false_iff.mp h).1
      rw [joinHalves, h, hhigh, Bool.false_and, if_neg Bool.false_ne_true,
        if_neg Bool.false_ne_true]

theorem joinHalves_unitsOf (c : Char) (ns : List Nat) :
    joinHalves (unitsOf c ++ ns) = c :: joinHalves ns := by
  unfold unitsOf
  split
  · rw [List.singleton_append, joinHalves_cons ns (not_isHalf c), Char.ofNat_toNat]
  · next hbig =>
      have hv : c.toNat < 0xD800 ∨ 0xDFFF < c.toNat ∧ c.toNat < 0x110000 := c.valid
      have hhigh : isHighHalf (0xD800 + (c.toNat - 0x10000) / 0x400) = true := by
        simp only [isHighHalf, Bool.and_eq_true, decide_eq_true_eq]
        omega
      have hlow : isLowHalf (0xDC00 + (c.toNat - 0x10000) % 0x400) = true := by
        simp only [isLowHalf, Bool.and_eq_true, decide_eq_true_eq]
        omega
      have hval : 0x10000 + (0xD800 + (c.toNat - 0x10000) / 0x400 - 0xD800) * 0x400
          + (0xDC00 + (c.toNat - 0x10000) % 0x400 - 0xDC00) = c.toNat := by
        omega
      rw [List.cons_append, List.cons_append, List.nil_append, joinHalves, hhigh, hlow,
        Bool.and_self, if_pos rfl, hval, Char.ofNat_toNat]

theorem joinHalves_flatMap (cs : List Char) : joinHalves (cs.flatMap unitsOf) = cs := by
  induction cs with
  | nil => rfl
  | cons c cs ih => rw [List.flatMap_cons, joinHalves_unitsOf, ih]

/-- A text between quotes reads as itself. -/
theorem lexemes_textChars (cs rest : List Char) :
    lexemes (textChars cs ++ rest) = .text cs :: lexemes rest := by
  have happ : textChars cs ++ rest = '"' :: (cs.flatMap charText ++ '"' :: rest) := by
    simp [textChars]
  rw [happ, lexemes_inside (inside_flatMap cs rest), joinHalves_flatMap]

/-! ## Parts of a text -/

/-- The text is cut into these lexemes, if what follows it does not go on with a number. -/
def Cut (cs : List Char) (ls : List Lexeme) : Prop :=
  ∀ rest, EndsNumber rest → lexemes (cs ++ rest) = ls ++ lexemes rest

theorem endsNumber_blanks {blanks rest : List Char} (h : ∀ c ∈ blanks, isSpace c = true)
    (hr : EndsNumber rest) : EndsNumber (blanks ++ rest) := by
  cases blanks with
  | nil => exact hr
  | cons b blanks =>
      exact endsNumber_space _ (h b List.mem_cons_self)

def commas : List (List Lexeme) → List Lexeme
  | [] => []
  | [l] => l
  | l :: l' :: ls => l ++ .comma :: commas (l' :: ls)

/-- **Parts that are joined** by a comma, with blanks behind it, are cut one after another. -/
theorem cut_join {blanks : List Char} (hblanks : ∀ c ∈ blanks, isSpace c = true)
    {parts : List (List Char)} {ls : List (List Lexeme)} (h : List.Forall₂ Cut parts ls) :
    Cut (join (',' :: blanks) parts) (commas ls) := by
  induction h with
  | nil => exact fun rest _ => rfl
  | @cons part l parts ls hpart hparts ih =>
      cases hparts with
      | nil => exact hpart
      | @cons part' l' parts ls hpart' hparts' =>
          intro rest hr
          have happ : join (',' :: blanks) (part :: part' :: parts) ++ rest
              = part ++ ',' :: (blanks ++ (join (',' :: blanks) (part' :: parts) ++ rest)) := by
            simp [join]
          rw [happ, hpart _ (endsNumber_comma _), lexemes_comma, lexemes_blanks hblanks, ih rest hr,
            commas, List.append_assoc, List.cons_append]

/-- What stands between brackets, with blanks around it or not. -/
theorem cut_between {left right : Char} {l r : Lexeme}
    (hleft : ∀ cs, lexemes (left :: cs) = l :: lexemes cs)
    (hright : ∀ cs, lexemes (right :: cs) = r :: lexemes cs)
    (hends : ∀ cs, EndsNumber (right :: cs)) {before after : List Char}
    (hbefore : ∀ c ∈ before, isSpace c = true) (hafter : ∀ c ∈ after, isSpace c = true)
    {cs : List Char} {ls : List Lexeme} (h : Cut cs ls) :
    Cut (left :: (before ++ (cs ++ (after ++ [right])))) (l :: (ls ++ [r])) := by
  intro rest _
  have happ : left :: (before ++ (cs ++ (after ++ [right]))) ++ rest
      = left :: (before ++ (cs ++ (after ++ right :: rest))) := by
    simp
  rw [happ, hleft, lexemes_blanks hbefore, h _ (endsNumber_blanks hafter (hends rest)),
    lexemes_blanks hafter, hright, List.cons_append, List.append_assoc, List.singleton_append]

theorem cut_list {before after cs : List Char} {ls : List Lexeme}
    (hbefore : ∀ c ∈ before, isSpace c = true) (hafter : ∀ c ∈ after, isSpace c = true)
    (h : Cut cs ls) :
    Cut ('[' :: (before ++ (cs ++ (after ++ [']'])))) (.openList :: (ls ++ [.closeList])) :=
  cut_between lexemes_openList lexemes_closeList endsNumber_closeList hbefore hafter h

theorem cut_record {before after cs : List Char} {ls : List Lexeme}
    (hbefore : ∀ c ∈ before, isSpace c = true) (hafter : ∀ c ∈ after, isSpace c = true)
    (h : Cut cs ls) :
    Cut ('{' :: (before ++ (cs ++ (after ++ ['}'])))) (.openRecord :: (ls ++ [.closeRecord])) :=
  cut_between lexemes_openRecord lexemes_closeRecord endsNumber_closeRecord hbefore hafter h

/-! ## Lists and records -/

mutual

/-- Data that read as they were written: nothing foreign in them, whole numbers of few enough
digits, floating-point numbers whose texts read back, and records whose keys are texts, each of which
comes once. -/
def Plain : Datum → Prop
  | .null => True
  | .bool _ => True
  | .int i => (Number.digitChars i.natAbs).length ≤ Number.maxDigits
  | .float x => Number.readFloat? (Number.chars x) = some x
  | .text _ => True
  | .list xs => PlainItems xs
  | .record es => PlainMembers es ∧ Datum.ofEntries es = es
  | _ => False

def PlainItems : List Datum → Prop
  | [] => True
  | x :: xs => Plain x ∧ PlainItems xs

def PlainMembers : List (Datum × Datum) → Prop
  | [] => True
  | (k, v) :: es => (∃ s, k = .text s) ∧ Plain v ∧ PlainMembers es

end

def keyLexeme : Datum → Lexeme
  | .text s => .text s.toList
  | d => .atom d

mutual

def lexemesOf : Datum → List Lexeme
  | .text s => [.text s.toList]
  | .list xs => .openList :: (itemLexemes xs ++ [.closeList])
  | .record es => .openRecord :: (memberLexemes es ++ [.closeRecord])
  | d => [.atom d]

def itemLexemes : List Datum → List Lexeme
  | [] => []
  | [x] => lexemesOf x
  | x :: y :: xs => lexemesOf x ++ .comma :: itemLexemes (y :: xs)

def memberLexemes : List (Datum × Datum) → List Lexeme
  | [] => []
  | [(k, v)] => keyLexeme k :: .colon :: lexemesOf v
  | (k, v) :: e :: es => keyLexeme k :: .colon :: (lexemesOf v ++ .comma :: memberLexemes (e :: es))

end

def lexemesOfMember (e : Datum × Datum) : List Lexeme := keyLexeme e.1 :: .colon :: lexemesOf e.2

theorem itemLexemes_eq (xs : List Datum) : itemLexemes xs = commas (xs.map lexemesOf) := by
  induction xs with
  | nil => rfl
  | cons x xs ih =>
      cases xs with
      | nil => rfl
      | cons y xs =>
          rw [itemLexemes, ih]
          rfl

theorem memberLexemes_eq (es : List (Datum × Datum)) :
    memberLexemes es = commas (es.map lexemesOfMember) := by
  induction es with
  | nil => rfl
  | cons e es ih =>
      cases es with
      | nil => rfl
      | cons e' es =>
          rw [memberLexemes, ih]
          rfl

theorem cut_atom {cs : List Char} {d : Datum} (h : Atom cs d) : Cut cs [.atom d] :=
  fun _ hr => lexemes_atom h hr

theorem atom_null : Atom "null".toList .null := .name (by simp [names])

theorem atom_bool (b : Bool) : Atom (if b then "true" else "false").toList (.bool b) := by
  cases b <;> exact .name (by simp [names])

theorem cut_text (s : String) : Cut (textChars s.toList) [.text s.toList] :=
  fun rest _ => lexemes_textChars s.toList rest

theorem cut_member {k : Datum} (hk : ∃ s, k = .text s) {cs : List Char} {ls : List Lexeme}
    (h : Cut cs ls) : Cut (keyChars k ++ ':' :: ' ' :: cs) (keyLexeme k :: .colon :: ls) := by
  obtain ⟨s, rfl⟩ := hk
  intro rest hr
  have happ : keyChars (.text s) ++ ':' :: ' ' :: cs ++ rest
      = textChars s.toList ++ ':' :: ' ' :: (cs ++ rest) := by
    simp [keyChars]
  rw [happ, lexemes_textChars, lexemes_colon, lexemes_space _ rfl, h rest hr]
  rfl

/-! ## Values on one line -/

mutual

/-- **A value on one line is cut into its lexemes.** -/
theorem cut_compactChars : ∀ d : Datum, Plain d → Cut (compactChars d) (lexemesOf d)
  | .null, _ => cut_atom atom_null
  | .bool b, _ => cut_atom (atom_bool b)
  | .int _, hd => cut_atom (atom_intChars hd)
  | .float _, hd => cut_atom (atom_floatChars hd)
  | .text s, _ => cut_text s
  | .list xs, hd => by
      have hitems : Cut (join [',', ' '] (compactItems xs)) (itemLexemes xs) := by
        rw [itemLexemes_eq]
        exact cut_join (List.forall_mem_singleton.mpr rfl) (cut_compactItems xs hd)
      exact cut_list (nofun : ∀ c ∈ [], isSpace c = true) (nofun : ∀ c ∈ [], isSpace c = true) hitems
  | .record es, hd => by
      have hmembers : Cut (join [',', ' '] (compactMembers es)) (memberLexemes es) := by
        rw [memberLexemes_eq]
        exact cut_join (List.forall_mem_singleton.mpr rfl) (cut_compactMembers es hd.1)
      exact cut_record (nofun : ∀ c ∈ [], isSpace c = true) (nofun : ∀ c ∈ [], isSpace c = true)
        hmembers
  | .foreign _ _, hd => hd.elim

theorem cut_compactItems : ∀ xs : List Datum, PlainItems xs →
    List.Forall₂ Cut (compactItems xs) (xs.map lexemesOf)
  | [], _ => .nil
  | x :: xs, hd => .cons (cut_compactChars x hd.1) (cut_compactItems xs hd.2)

theorem cut_compactMembers : ∀ es : List (Datum × Datum), PlainMembers es →
    List.Forall₂ Cut (compactMembers es) (es.map lexemesOfMember)
  | [], _ => .nil
  | (_, v) :: es, hd =>
      .cons (cut_member hd.1 (cut_compactChars v hd.2.1)) (cut_compactMembers es hd.2.2)

end

end Perception.Json
