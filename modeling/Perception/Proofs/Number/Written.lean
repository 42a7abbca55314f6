import Mathlib.Data.List.DropRight
import Perception.Number.Read
import Perception.Number.Written
import Perception.Proofs.Number.Numeral

set_option autoImplicit false

/-! # How a floating-point number is written

A finite number is written as digits with places, an exponent or both (`Number.exists_spelling`):
its whole part is a zero or starts with none. Reading such a text gives the value of the spelling
(`Number.readFloat?_spelling`), so a number whose written form reads back is that value.
-/

namespace Perception.Number

open Perception.Text

/-! ## Spellings -/

/-- The digits of a number, those of its places, and its exponent: whether it is negative, and its
digits. -/
structure Spelling where
  whole : List Char
  places : List Char
  exponent : Option (Bool × List Char)

namespace Spelling

def placesText (s : Spelling) : List Char := if s.places.isEmpty then [] else '.' :: s.places

def exponentText (s : Spelling) : List Char :=
  match s.exponent with
  | none => []
  | some (negative, ds) => 'e' :: (if negative then '-' else '+') :: ds

def text (s : Spelling) : List Char := s.whole ++ (s.placesText ++ s.exponentText)

def valuesOf (ds : List Char) : List Nat := ds.map fun c => c.toNat - 48

def exponentValue (s : Spelling) : Int :=
  match s.exponent with
  | none => 0
  | some (negative, ds) =>
      if negative then -(ofDigitValues 10 (valuesOf ds) : Int) else ofDigitValues 10 (valuesOf ds)

def value (s : Spelling) : Float :=
  ofDecimal (ofDigitValues 10 (valuesOf (s.whole ++ s.places)))
    (s.exponentValue - s.places.length)

/-- A spelling with digits in all the places for digits, which shows that it is no whole number. -/
structure Proper (s : Spelling) : Prop where
  whole : ∀ c ∈ s.whole, c.isDigit = true
  places : ∀ c ∈ s.places, c.isDigit = true
  exponent : ∀ e ∈ s.exponent, e.2 ≠ [] ∧ ∀ c ∈ e.2, c.isDigit = true
  /-- The whole part is a zero or starts with none. -/
  head : s.whole = ['0'] ∨ ∃ d ds, s.whole = d :: ds ∧ d ≠ '0'
  fraction : s.places ≠ [] ∨ s.exponent.isSome = true

end Spelling

/-! ## Reading a spelling -/

/-- The text does not go on with a digit or an underscore. -/
def EndsRun (cs : List Char) : Prop := ∀ c ∈ cs.head?, digit? 10 c = none ∧ c ≠ '_'

theorem digitRun?_of_not_digit {c : Char} {cs : List Char} (h : digit? 10 c = none) :
    digitRun? 10 (c :: cs) = none := by
  rw [digitRun?.eq_def]
  split
  · rfl
  · next heq =>
      cases heq
      rw [h]
      rfl
  · next heq =>
      cases heq
      rw [h]
      rfl
  · next heq =>
      cases heq
      rw [h]
      rfl

/-- A run of digits ends where the digits do. -/
theorem digitRun?_append {ds rest : List Char} (hne : ds ≠ [])
    (hds : ∀ c ∈ ds, c.isDigit = true) (hr : EndsRun rest) :
    digitRun? 10 (ds ++ rest) = some (Spelling.valuesOf ds, rest) := by
  induction ds with
  | nil => exact absurd rfl hne
  | cons c ds ih =>
      have hc : digit? 10 c = some (c.toNat - 48) :=
        digit?_of_isDigit (hds c List.mem_cons_self) (Nat.le_refl _)
      -- the reader looks one character ahead for a low line
      cases ds with
      | nil =>
          cases rest with
          | nil =>
              show digitRun? 10 [c] = _
              rw [digitRun?, hc]
              rfl
          | cons c' rest =>
              obtain ⟨hnone, hunderscore⟩ := hr c' rfl
              show digitRun? 10 (c :: c' :: rest) = _
              rw [digitRun?, hc]
              · simp only [Option.bind_eq_bind, Option.bind_some, digitRun?_of_not_digit hnone]
                rfl
              · exact hunderscore
      | cons c' ds =>
          have hrest := ih (List.cons_ne_nil _ _) fun x hx => hds x (List.mem_cons_of_mem _ hx)
          have hunderscore : c' ≠ '_' := by
            rintro rfl
            exact absurd (hds '_' (by simp)) (by decide)
          show digitRun? 10 (c :: c' :: (ds ++ rest)) = _
          rw [digitRun?, hc]
          · rw [List.cons_append] at hrest
            simp only [Option.bind_eq_bind, Option.bind_some, hrest]
            rfl
          · exact hunderscore

namespace Spelling

variable {s : Spelling}

theorem endsRun_nil : EndsRun [] := nofun

theorem endsRun_exponentText (s : Spelling) : EndsRun s.exponentText := by
  unfold exponentText
  split
  · exact endsRun_nil
  · intro c hc
    cases hc
    decide

theorem Proper.whole_ne_nil (hs : s.Proper) : s.whole ≠ [] := by
  rcases hs.head with h | ⟨d, ds, h, -⟩ <;> rw [h] <;> exact List.cons_ne_nil _ _

theorem readExponent?_exponentText (hs : s.Proper) :
    readExponent? s.exponentText = some s.exponentValue := by
  unfold exponentText exponentValue
  cases hexponent : s.exponent with
  | none => rfl
  | some e =>
      obtain ⟨negative, ds⟩ := e
      obtain ⟨hne, hds⟩ := hs.exponent _ hexponent
      have hrun := digitRun?_append hne hds endsRun_nil
      rw [List.append_nil] at hrun
      cases negative <;> simp [readExponent?, splitSign, hrun]

theorem readUnsigned?_text (hs : s.Proper) : readUnsigned? s.text = some s.value := by
  have hexponent := readExponent?_exponentText hs
  unfold text placesText value
  cases hplaces : s.places with
  | nil =>
      -- without places there is an exponent
      have hrun := digitRun?_append hs.whole_ne_nil hs.whole (endsRun_exponentText s)
      simp only [List.isEmpty_nil, if_true, List.nil_append, List.append_nil, List.length_nil]
      unfold readUnsigned?
      rw [hrun]
      have hpoint : ∀ rest, s.exponentText ≠ '.' :: rest := by
        unfold exponentText
        split <;> nofun
      split
      · next heq => exact absurd (Prod.mk.inj (Option.some.inj heq)).2 (hpoint _)
      · next heq =>
          obtain ⟨rfl, rfl⟩ := Prod.mk.inj (Option.some.inj heq)
          rw [hexponent]
          simp
      · next heq => cases heq
  | cons c ds =>
      have hds : ∀ x ∈ c :: ds, x.isDigit = true := by
        rw [← hplaces]
        exact hs.places
      have hplacesRun := digitRun?_append (List.cons_ne_nil c ds) hds (endsRun_exponentText s)
      have hpoint : EndsRun ('.' :: (c :: ds ++ s.exponentText)) := by
        intro x hx
        cases hx
        decide
      have hrun := digitRun?_append hs.whole_ne_nil hs.whole hpoint
      simp only [List.isEmpty_cons, Bool.false_eq_true, if_false]
      unfold readUnsigned?
      rw [List.cons_append, hrun]
      simp only [hplacesRun, hexponent]
      simp [valuesOf]

theorem Proper.text_cons (hs : s.Proper) : ∃ c cs, s.text = c :: cs ∧ c.isDigit = true := by
  rcases hs.head with h | ⟨d, ds, h, -⟩
  · exact ⟨'0', s.placesText ++ s.exponentText, by rw [text, h, List.singleton_append], rfl⟩
  · refine ⟨d, ds ++ (s.placesText ++ s.exponentText), by rw [text, h, List.cons_append], ?_⟩
    exact hs.whole d (h ▸ List.mem_cons_self)

/-- A digit or a letter stands last. -/
theorem Proper.text_getLast (hs : s.Proper) : ∃ c, s.text.getLast? = some c ∧ c.isDigit = true := by
  have hlast {ds : List Char} (hne : ds ≠ []) (hds : ∀ c ∈ ds, c.isDigit = true) :
      ∃ c, ds.getLast? = some c ∧ c.isDigit = true :=
    ⟨ds.getLast hne, List.getLast?_eq_some_getLast hne, hds _ (List.getLast_mem hne)⟩
  unfold text placesText exponentText
  cases hexponent : s.exponent with
  | none =>
      have hplaces : s.places ≠ [] := hs.fraction.resolve_right (by rw [hexponent]; simp)
      obtain ⟨c, hc, hdigit⟩ := hlast hplaces hs.places
      refine ⟨c, ?_, hdigit⟩
      rw [if_neg (by simpa using hplaces)]
      simp [List.getLast?_append, List.getLast?_cons, hc]
  | some e =>
      obtain ⟨negative, ds⟩ := e
      obtain ⟨hne, hds⟩ := hs.exponent _ hexponent
      obtain ⟨c, hc, hdigit⟩ := hlast hne hds
      refine ⟨c, ?_, hdigit⟩
      simp [List.getLast?_append, List.getLast?_cons, hc]

end Spelling

theorem not_isMargin_of_isDigit {c : Char} (h : c.isDigit = true) : isMargin c = false :=
  not_isMargin_of_digit? (digit?_of_isDigit h (Nat.le_refl 10))

/-- A digit starts none of the names that are read as numbers. -/
theorem ofList_toLower_ne {c l : Char} {cs ls : List Char} (hc : c.isDigit = true)
    (hl : l.isDigit = false) : String.ofList ((c :: cs).map Char.toLower) ≠ String.ofList (l :: ls) := by
  intro heq
  have hhead : c.toLower = l := (List.cons.inj (String.ofList_injective heq)).1
  have hlower : c.toLower = c := by
    unfold Char.toLower
    split
    · next hupper =>
        have hlow : 65 ≤ c.toNat := hupper.1
        have := (range_of_isDigit hc).2
        omega
    · rfl
  rw [hlower] at hhead
  rw [← hhead, hc] at hl
  cases hl

theorem splitSign_text {s : Spelling} (hs : s.Proper) (negative : Bool) :
    splitSign (if negative then '-' :: s.text else s.text) = (negative, s.text) := by
  cases negative with
  | true => rfl
  | false =>
      obtain ⟨c, cs, htext, hc⟩ := hs.text_cons
      rw [if_neg Bool.false_ne_true, htext]
      unfold splitSign
      split
      · next heq =>
          cases heq
          cases hc
      · next heq =>
          cases heq
          cases hc
      · rfl

/-- No blank stands at either end. -/
theorem dropMargins_text {s : Spelling} (hs : s.Proper) (negative : Bool) :
    dropMargins (if negative then '-' :: s.text else s.text)
      = if negative then '-' :: s.text else s.text := by
  obtain ⟨c, cs, htext, hc⟩ := hs.text_cons
  obtain ⟨z, hlast, hz⟩ := hs.text_getLast
  have hstarts : ∀ x ∈ (if negative then '-' :: s.text else s.text).head?, isMargin x = false := by
    intro x hx
    cases negative with
    | true =>
        cases hx
        decide
    | false =>
        rw [if_neg Bool.false_ne_true, htext] at hx
        cases hx
        exact not_isMargin_of_isDigit hc
  have hends : ∀ x ∈ (if negative then '-' :: s.text else s.text).getLast?,
      isMargin x = false := by
    have hsame : (if negative then '-' :: s.text else s.text).getLast? = some z := by
      cases negative with
      | true => rw [if_pos rfl, List.getLast?_cons, hlast, Option.getD_some]
      | false => rw [if_neg Bool.false_ne_true, hlast]
    intro x hx
    rw [hsame] at hx
    cases hx
    exact not_isMargin_of_isDigit hz
  have hnone : ∀ x ∈ ([] : List Char), isMargin x = true := nofun
  have htrim := trimWhile_append hnone hnone hstarts hends
  rwa [List.nil_append, List.append_nil] at htrim

/-- **A spelling reads as its value.** -/
theorem readFloat?_spelling {s : Spelling} (hs : s.Proper) (negative : Bool) :
    readFloat? (if negative then '-' :: s.text else s.text)
      = some (if negative then -s.value else s.value) := by
  obtain ⟨c, cs, htext, hc⟩ := hs.text_cons
  have hname {l : Char} {ls : List Char} (hl : l.isDigit = false) :
      String.ofList (s.text.map Char.toLower) ≠ String.ofList (l :: ls) := by
    rw [htext]
    exact ofList_toLower_ne hc hl
  have hinf : String.ofList (s.text.map Char.toLower) ≠ "inf" := hname (by decide)
  have hinfinity : String.ofList (s.text.map Char.toLower) ≠ "infinity" := hname (by decide)
  have hnan : String.ofList (s.text.map Char.toLower) ≠ "nan" := hname (by decide)
  unfold readFloat?
  simp only [dropMargins_text hs, splitSign_text hs, hinf, hinfinity, hnan, or_self, if_false,
    Spelling.readUnsigned?_text hs]
  rfl

/-! ## Spelling a number -/

/-- A number of more than one digit starts with none that is zero. -/
theorem digitChars_head (n : Nat) :
    n = 0 ∧ digitChars n = ['0'] ∨
      ∃ d ds, digitChars n = d :: ds ∧ d ≠ '0' := by
  induction n using Nat.strongRecOn with
  | ind n ih =>
      by_cases hn : n < 10
      · by_cases h0 : n = 0
        · exact Or.inl ⟨h0, by rw [h0]; rfl⟩
        · refine Or.inr ⟨n.digitChar, [], Nat.toDigits_of_lt_base hn, ?_⟩
          intro h
          have := Nat.toNat_digitChar_sub_48_of_lt_ten hn
          rw [h] at this
          exact h0 this.symm
      · -- the first digit is that of the number without its last one
        have hsplit : digitChars n
            = digitChars (n / 10) ++ [(n % 10).digitChar] :=
          Nat.toDigits_of_base_le (by decide) (by omega)
        rcases ih (n / 10) (by omega) with ⟨h, _⟩ | ⟨d, ds, hd, hne⟩
        · omega
        · refine Or.inr ⟨d, ds ++ [(n % 10).digitChar], ?_, hne⟩
          rw [hsplit, hd, List.cons_append]

/-- The digits without the zeros at the end start as before. -/
theorem dropZeros_cons {d : Char} (ds : List Char) (hd : d ≠ '0') :
    ∃ ds', dropZeros (d :: ds) = d :: ds' ∧ ∀ c ∈ ds', c ∈ ds := by
  have hdrop : dropZeros (d :: ds) = (d :: ds).rdropWhile fun c => decide (c = '0') := rfl
  cases hzeros : dropZeros (d :: ds) with
  | nil =>
      rw [hdrop, List.rdropWhile_eq_nil_iff] at hzeros
      exact absurd (of_decide_eq_true (hzeros d List.mem_cons_self)) hd
  | cons d' ds' =>
      have hprefix : d' :: ds' <+: d :: ds := by
        rw [← hzeros, hdrop]
        exact List.rdropWhile_prefix _ _
      obtain ⟨rfl, htail⟩ := List.cons_prefix_cons.mp hprefix
      exact ⟨ds', rfl, fun c hc => htail.subset hc⟩

theorem candidate?_pos {m : Nat} {q k : Int} {places : Nat} {dec : Decimal}
    (h : candidate? m q k places = some dec) : 0 < dec.coefficient := by
  unfold candidate? at h
  dsimp only at h
  -- how far the interval reaches does not matter
  generalize (if m = 0x10000000000000 ∧ q ≠ -1074 then 1 else 2) = reach at h
  split at h
  · next hboth =>
      have hlower := (Bool.and_eq_true_iff.mp (Bool.and_eq_true_iff.mp hboth).1).1
      split at h <;> cases h
      · exact of_decide_eq_true hlower
      · exact Nat.succ_pos _
  · split at h
    · next hlower =>
        cases h
        exact of_decide_eq_true (Bool.and_eq_true_iff.mp hlower).1
    · split at h <;> cases h
      exact Nat.succ_pos _

theorem shortestFrom_pos {m : Nat} (hm : m ≠ 0) (q k : Int) (fuel places : Nat) :
    0 < (shortestFrom m q k fuel places).coefficient := by
  induction fuel generalizing places with
  | zero => exact Nat.pos_of_ne_zero hm
  | succ fuel ih =>
      unfold shortestFrom
      cases hcandidate : candidate? m q k places with
      | none => exact ih (places + 1)
      | some dec => exact candidate?_pos hcandidate

/-- The digits of a positive number, without the zeros at the end. -/
theorem exists_digits {m : Nat} (hm : m ≠ 0) (q : Int) :
    ∃ d ds, dropZeros (digitChars (shortest m q).coefficient) = d :: ds ∧ d ≠ '0' ∧
      ∀ c ∈ d :: ds, c.isDigit = true := by
  have hpos : 0 < (shortest m q).coefficient := shortestFrom_pos hm _ _ _ _
  have hdigit : ∀ c ∈ digitChars (shortest m q).coefficient, c.isDigit = true :=
    fun c hc => Nat.isDigit_of_mem_toDigits (by decide) (by decide) hc
  rcases digitChars_head (shortest m q).coefficient with ⟨hzero, -⟩ | ⟨d, ds, hds, hd⟩
  · exact absurd hzero hpos.ne'
  · rw [hds] at hdigit ⊢
    obtain ⟨ds', hdrop, hmem⟩ := dropZeros_cons ds hd
    refine ⟨d, ds', hdrop, hd, fun c hc => hdigit c ?_⟩
    rcases List.mem_cons.mp hc with rfl | hc
    · exact List.mem_cons_self
    · exact List.mem_cons_of_mem _ (hmem c hc)

/-- Digits with a point among them, in front of them or behind them. -/
theorem exists_positional {d : Char} {ds : List Char} (hd : d ≠ '0')
    (hds : ∀ c ∈ d :: ds, c.isDigit = true) (point : Int) :
    ∃ s : Spelling, s.Proper ∧ positionalChars ['.', '0'] (d :: ds) point = s.text := by
  have hzeros (n : Nat) : ∀ c ∈ List.replicate n '0', c.isDigit = true := by
    intro c hc
    rw [List.eq_of_mem_replicate hc]
    rfl
  have hboth {xs ys : List Char} (hxs : ∀ c ∈ xs, c.isDigit = true)
      (hys : ∀ c ∈ ys, c.isDigit = true) : ∀ c ∈ xs ++ ys, c.isDigit = true :=
    fun c hc => (List.mem_append.mp hc).elim (hxs c) (hys c)
  -- the point is in front of the digits, behind them or among them
  unfold positionalChars
  split
  · refine ⟨⟨['0'], List.replicate (-point).toNat '0' ++ d :: ds, none⟩,
      ⟨hzeros 1, hboth (hzeros _) hds, nofun, Or.inl rfl, Or.inl (by simp)⟩, ?_⟩
    simp [Spelling.text, Spelling.placesText, Spelling.exponentText]
  · next hpoint =>
      dsimp only
      split
      · refine ⟨⟨d :: ds ++ List.replicate (point.toNat - (d :: ds).length) '0', ['0'], none⟩,
          ⟨hboth hds (hzeros _), hzeros 1, nofun, Or.inr ⟨d, _, rfl, hd⟩,
            Or.inl (List.cons_ne_nil _ _)⟩, ?_⟩
        simp [Spelling.text, Spelling.placesText, Spelling.exponentText]
      · next hlong =>
          obtain ⟨p, hp⟩ : ∃ p, point.toNat = p + 1 := ⟨point.toNat - 1, by omega⟩
          rw [hp] at hlong ⊢
          have hplaces : (d :: ds).drop (p + 1) ≠ [] := by
            rw [Ne, List.drop_eq_nil_iff]
            exact hlong
          refine ⟨⟨(d :: ds).take (p + 1), (d :: ds).drop (p + 1), none⟩,
            ⟨fun c hc => hds c (List.mem_of_mem_take hc), fun c hc => hds c (List.mem_of_mem_drop hc),
              nofun, Or.inr ⟨d, ds.take p, rfl, hd⟩, Or.inl hplaces⟩, ?_⟩
          have hempty : ((d :: ds).drop (p + 1)).isEmpty = false := by
            rw [List.isEmpty_eq_false_iff]
            exact hplaces
          simp only [Spelling.text, Spelling.placesText, Spelling.exponentText, hempty,
            Bool.false_eq_true, if_false, List.append_nil]

/-- Digits with an exponent. -/
theorem exists_scientific {d : Char} {ds : List Char} (hd : d ≠ '0')
    (hds : ∀ c ∈ d :: ds, c.isDigit = true) (point : Int) :
    ∃ s : Spelling, s.Proper ∧ scientificChars (d :: ds) point = s.text := by
  let es := digitChars (point - 1).natAbs
  have hes : ∀ c ∈ es, c.isDigit = true :=
    fun c hc => Nat.isDigit_of_mem_toDigits (by decide) (by decide) hc
  let exponent := if es.length < 2 then '0' :: es else es
  have hexponent : exponent ≠ [] ∧ ∀ c ∈ exponent, c.isDigit = true := by
    show (if es.length < 2 then '0' :: es else es) ≠ [] ∧
      ∀ c ∈ (if es.length < 2 then '0' :: es else es), c.isDigit = true
    split
    · refine ⟨List.cons_ne_nil _ _, fun c hc => ?_⟩
      rcases List.mem_cons.mp hc with rfl | hc
      · rfl
      · exact hes c hc
    · exact ⟨Nat.toDigits_ne_nil, hes⟩
  refine ⟨⟨[d], ds, some (decide (point - 1 < 0), exponent)⟩,
    ⟨fun c hc => hds c (List.mem_singleton.mp hc ▸ List.mem_cons_self),
      fun c hc => hds c (List.mem_cons_of_mem _ hc), fun e he => ?_, Or.inr ⟨d, [], rfl, hd⟩,
      Or.inr rfl⟩, ?_⟩
  · cases he
    exact hexponent
  · simp [Spelling.text, Spelling.placesText, Spelling.exponentText, scientificChars, exponentChars,
      exponent, es]

/-- **A finite number** is written as a proper spelling, with its sign. -/
theorem exists_spelling {x : Float} {negative : Bool} {m : Nat} {q : Int}
    (hx : parts x = .finite negative m q) :
    ∃ s : Spelling, s.Proper ∧ chars x = if negative then '-' :: s.text else s.text := by
  unfold chars
  rw [hx]
  dsimp only
  by_cases hm : m = 0
  · refine ⟨⟨['0'], ['0'], none⟩,
      ⟨List.forall_mem_singleton.mpr rfl, List.forall_mem_singleton.mpr rfl, nofun, Or.inl rfl,
        Or.inl (List.cons_ne_nil _ _)⟩, ?_⟩
    rw [if_pos hm]
    rfl
  · rw [if_neg hm]
    obtain ⟨d, ds, hdigits, hd, hds⟩ := exists_digits hm q
    rw [hdigits]
    have hbody (point : Int) : ∃ s : Spelling, s.Proper ∧
        (if -4 < point ∧ point ≤ 16 then positionalChars ['.', '0'] (d :: ds) point
          else scientificChars (d :: ds) point) = s.text := by
      split
      · exact exists_positional hd hds point
      · exact exists_scientific hd hds point
    obtain ⟨s, hs, htext⟩ := hbody _
    exact ⟨s, hs, by rw [htext]⟩

end Perception.Number
