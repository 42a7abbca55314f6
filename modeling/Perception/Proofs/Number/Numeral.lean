import Mathlib.Algebra.Group.Nat.Defs
import Perception.Number.Read
import Perception.Proofs.Text.Trim

set_option autoImplicit false

/-! # What is read as a whole number

A numeral of a base is a text of digits with single underscores between them, which blanks, a sign
and the mark of the base may surround (`Number.Numeral`). Reading whole numbers accepts the numerals
and nothing else (`Number.readInt?_eq_some_iff`).
-/

namespace Perception.Number

open Perception.Text

variable {base d : Nat} {c : Char} {cs sign mark : List Char} {ds : List Nat}

/-! ## Numerals -/

/-- Digits of a base and their values, the most significant first. A single underscore may stand
between two digits. -/
inductive DigitRun (base : Nat) : List Char → List Nat → Prop
  | last {c : Char} {d : Nat} (digit : digit? base c = some d) : DigitRun base [c] [d]
  | next {c : Char} {d : Nat} {cs : List Char} {ds : List Nat} (digit : digit? base c = some d)
      (more : DigitRun base cs ds) : DigitRun base (c :: cs) (d :: ds)
  | spaced {c : Char} {d : Nat} {cs : List Char} {ds : List Nat} (digit : digit? base c = some d)
      (more : DigitRun base cs ds) : DigitRun base (c :: '_' :: cs) (d :: ds)

/-- A sign that may stand in front of a number, and whether it makes the number negative. -/
inductive IsSign : List Char → Bool → Prop
  | none : IsSign [] false
  | plus : IsSign ['+'] false
  | minus : IsSign ['-'] true

/-- A mark that may stand in front of the digits of a base: a zero and the letter of the base, and
an underscore behind them or not. -/
inductive IsMark (base : Nat) : List Char → Prop
  | none : IsMark base []
  | letter {c : Char} (letter : some c.toLower = baseMark? base) : IsMark base ['0', c]
  | spaced {c : Char} (letter : some c.toLower = baseMark? base) : IsMark base ['0', c, '_']

/-- The texts that write a whole number in a base. In base ten there is a limit to the digits. -/
inductive Numeral (base : Nat) : List Char → Int → Prop
  | written {left sign mark digits right : List Char} {negative : Bool} {values : List Nat}
      (hleft : ∀ c ∈ left, isMargin c = true) (hsign : IsSign sign negative)
      (hmark : IsMark base mark) (hdigits : DigitRun base digits values)
      (hright : ∀ c ∈ right, isMargin c = true) (hshort : base = 10 → values.length ≤ maxDigits) :
      Numeral base (left ++ (sign ++ (mark ++ digits)) ++ right)
        (if negative then -(ofDigitValues base values : Int) else ofDigitValues base values)

/-! ## Digits -/

/-- Every character with a value is a decimal digit of some script or an ASCII letter. -/
theorem digit?_cases (h : digit? base c = some d) :
    d < base ∧ ((∃ z ∈ zeroDigits, z ≤ c.toNat ∧ c.toNat ≤ z + 9 ∧ d = c.toNat - z) ∨
      (97 ≤ c.toNat ∧ c.toNat ≤ 122 ∧ d = c.toNat - 87) ∨
      (65 ≤ c.toNat ∧ c.toNat ≤ 90 ∧ d = c.toNat - 55)) := by
  obtain ⟨hvalue, hlt⟩ := Option.filter_eq_some_iff.mp h
  refine ⟨of_decide_eq_true hlt, ?_⟩
  -- a decimal digit of some script, or else a letter
  cases hdecimal : decimalDigit? c with
  | some n =>
      rw [hdecimal] at hvalue
      cases hvalue
      left
      rw [decimalDigit?] at hdecimal
      split at hdecimal
      · split at hdecimal
        · cases hdecimal
          next hrange =>
            have hlow : 48 ≤ c.toNat := hrange.1
            have hhigh : c.toNat ≤ 57 := hrange.2
            exact ⟨48, by decide, hlow, hhigh, rfl⟩
        · cases hdecimal
      · obtain ⟨z, hz, rfl⟩ := Option.map_eq_some_iff.mp hdecimal
        have hrange := List.find?_some hz
        simp only [Bool.and_eq_true, decide_eq_true_eq] at hrange
        exact ⟨z, List.mem_of_find?_eq_some hz, hrange.1, hrange.2, rfl⟩
  | none =>
      rw [hdecimal] at hvalue
      have hletter : letterDigit? c = some d := hvalue
      right
      rw [letterDigit?] at hletter
      split at hletter
      · cases hletter
        next hrange => exact Or.inl ⟨hrange.1, hrange.2, rfl⟩
      · split at hletter
        · cases hletter
          next hrange => exact Or.inr ⟨hrange.1, hrange.2, rfl⟩
        · cases hletter

theorem range_of_isDigit (h : c.isDigit = true) : 48 ≤ c.toNat ∧ c.toNat ≤ 57 := by
  simpa [Char.isDigit, UInt32.le_iff_toNat_le] using h

theorem digit?_of_isDigit (h : c.isDigit = true) (hbase : 10 ≤ base) :
    digit? base c = some (c.toNat - 48) := by
  have hrange := range_of_isDigit h
  have hdecimal : decimalDigit? c = some (c.toNat - 48) := by
    rw [decimalDigit?, if_pos (show c.toNat < 128 by omega), if_pos]
    exact hrange
  rw [digit?, hdecimal]
  exact Option.filter_some_pos (decide_eq_true (show c.toNat - 48 < base by omega))

/-- No blank is a digit. -/
theorem not_isMargin_of_digit? (h : digit? base c = some d) : isMargin c = false := by
  -- the zeros of all scripts are far enough from the blanks
  have hzeros : ∀ z ∈ zeroDigits, (0x20 < z ∧ z + 9 < 0x85) ∨ (0xa0 < z ∧ z + 9 < 0x1680) ∨
      (0x1680 < z ∧ z + 9 < 0x2000) ∨ 0x3000 < z := by decide
  have hvalue := (digit?_cases h).2
  rw [Bool.eq_false_iff]
  intro hmargin
  simp only [isMargin, isBlank, Bool.and_eq_true, Bool.or_eq_true, decide_eq_true_eq,
    beq_iff_eq] at hmargin
  rcases hvalue with ⟨z, hz, hrange⟩ | hrange | hrange
  · have := hzeros z hz
    omega
  · omega
  · omega

theorem digit?_underscore (base : Nat) : digit? base '_' = none := by
  have hnone : ((decimalDigit? '_').orElse fun _ => letterDigit? '_') = none := by decide
  rw [digit?, hnone]
  rfl

/-- A character is in lower case, or is an ASCII capital. -/
theorem toLower_cases (c : Char) : c.toLower = c ∨ c.toLower.toNat = c.toNat + 32 := by
  unfold Char.toLower
  split
  · next h =>
      right
      have hhigh : c.toNat ≤ 90 := h.2
      show (c.val + 32).toNat = c.toNat + 32
      rw [UInt32.toNat_add]
      exact Nat.mod_eq_of_lt (show c.toNat + 32 < 2 ^ 32 by omega)
  · exact Or.inl rfl

theorem baseMark?_cases {l : Char} (h : some l = baseMark? base) :
    base = 2 ∧ l = 'b' ∨ base = 8 ∧ l = 'o' ∨ base = 16 ∧ l = 'x' := by
  unfold baseMark? at h
  split at h
  · next hbase => exact Or.inl ⟨hbase, Option.some.inj h⟩
  · split at h
    · next hbase => exact Or.inr (Or.inl ⟨hbase, Option.some.inj h⟩)
    · split at h
      · next hbase => exact Or.inr (Or.inr ⟨hbase, Option.some.inj h⟩)
      · cases h

/-- The letter of a base is none of its digits. -/
theorem digit?_baseMark (h : some c.toLower = baseMark? base) : digit? base c = none := by
  have hcases {l : Char} (hl : c.toLower = l) : c = l ∨ c = Char.ofNat (l.toNat - 32) := by
    rcases toLower_cases c with hsame | hcapital
    · exact Or.inl (hsame.symm.trans hl)
    · right
      rw [← hl, hcapital, Nat.add_sub_cancel, Char.ofNat_toNat]
  rcases baseMark?_cases h with ⟨rfl, hl⟩ | ⟨rfl, hl⟩ | ⟨rfl, hl⟩
  · rcases hcases hl with rfl | rfl <;> decide
  · rcases hcases hl with rfl | rfl <;> decide
  · rcases hcases hl with rfl | rfl <;> decide

/-! ## Runs of digits -/

theorem digitRun_of_digitRun? (h : digitRun? base cs = some (ds, [])) : DigitRun base cs ds := by
  induction cs using digitRun?.induct generalizing ds with
  | case1 => cases h
  | case2 c =>
      obtain ⟨d, hd, heq⟩ := Option.map_eq_some_iff.mp h
      cases heq
      exact .last hd
  | case3 c rest ih =>
      obtain ⟨d, hd, hrest⟩ := Option.bind_eq_some_iff.mp h
      split at hrest
      · next ds' more hmore =>
          cases hrest
          exact .spaced hd (ih hmore)
      · cases hrest
  | case4 c c' rest hne ih =>
      rw [digitRun?] at h
      · obtain ⟨d, hd, hrest⟩ := Option.bind_eq_some_iff.mp h
        split at hrest
        · next ds' more hmore =>
            cases hrest
            exact .next hd (ih hmore)
        · cases hrest
      · exact hne

theorem DigitRun.head (h : DigitRun base cs ds) :
    ∃ c rest d, cs = c :: rest ∧ digit? base c = some d := by
  cases h with
  | last digit => exact ⟨_, _, _, rfl, digit⟩
  | next digit more => exact ⟨_, _, _, rfl, digit⟩
  | spaced digit more => exact ⟨_, _, _, rfl, digit⟩

theorem DigitRun.getLast (h : DigitRun base cs ds) :
    ∃ c d, cs.getLast? = some c ∧ digit? base c = some d := by
  induction h with
  | last digit => exact ⟨_, _, rfl, digit⟩
  | next digit more ih =>
      obtain ⟨c, d, hc, hd⟩ := ih
      refine ⟨c, d, ?_, hd⟩
      rw [List.getLast?_cons, hc]
      rfl
  | spaced digit more ih =>
      obtain ⟨c, d, hc, hd⟩ := ih
      refine ⟨c, d, ?_, hd⟩
      rw [List.getLast?_cons, List.getLast?_cons, hc]
      rfl

theorem DigitRun.digitRun? (h : DigitRun base cs ds) : digitRun? base cs = some (ds, []) := by
  induction h with
  | last digit => rw [Number.digitRun?, digit, Option.map_some]
  | next digit more ih =>
      obtain ⟨c', rest, d', rfl, hd'⟩ := more.head
      have hne : c' = '_' → False := by
        rintro rfl
        rw [digit?_underscore] at hd'
        cases hd'
      rw [Number.digitRun?, digit]
      · simp only [Option.bind_eq_bind, Option.bind_some, ih]
      · exact hne
  | spaced digit more ih =>
      rw [Number.digitRun?, digit]
      simp only [Option.bind_eq_bind, Option.bind_some, ih]

/-- **A run of digits** is read to its end, and nothing else is. -/
theorem digitRun?_eq_some_iff : digitRun? base cs = some (ds, []) ↔ DigitRun base cs ds :=
  ⟨digitRun_of_digitRun?, DigitRun.digitRun?⟩

theorem DigitRun.length_le (h : DigitRun base cs ds) : ds.length ≤ cs.length := by
  induction h with
  | last digit => exact Nat.le_refl _
  | next digit more ih => exact Nat.succ_le_succ ih
  | spaced digit more ih => exact Nat.le_succ_of_le (Nat.succ_le_succ ih)

/-- Characters that all are digits make a run. -/
theorem exists_digitRun (hne : cs ≠ []) (h : ∀ c ∈ cs, ∃ d, digit? base c = some d) :
    ∃ ds, DigitRun base cs ds := by
  induction cs with
  | nil => exact absurd rfl hne
  | cons c cs ih =>
      obtain ⟨d, hd⟩ := h c List.mem_cons_self
      cases cs with
      | nil => exact ⟨[d], .last hd⟩
      | cons c' cs =>
          obtain ⟨ds, hds⟩ := ih (List.cons_ne_nil _ _) fun x hx => h x (List.mem_cons_of_mem _ hx)
          exact ⟨d :: ds, .next hd hds⟩

theorem DigitRun.concat (h : DigitRun base cs ds) (hdigit : digit? base c = some d) :
    DigitRun base (cs ++ [c]) (ds ++ [d]) := by
  induction h with
  | last digit => exact .next digit (.last hdigit)
  | next digit more ih => exact .next digit ih
  | spaced digit more ih => exact .spaced digit ih

theorem ofDigitValues_concat (base d : Nat) (ds : List Nat) :
    ofDigitValues base (ds ++ [d]) = ofDigitValues base ds * base + d := by
  simp [ofDigitValues]

theorem DigitRun.lt_base (h : DigitRun base cs ds) : ∀ d ∈ ds, d < base := by
  induction h with
  | last digit =>
      intro d hd
      rw [List.mem_singleton.mp hd]
      exact (digit?_cases digit).1
  | next digit more ih =>
      intro d hd
      rcases List.mem_cons.mp hd with rfl | hd
      · exact (digit?_cases digit).1
      · exact ih d hd
  | spaced digit more ih =>
      intro d hd
      rcases List.mem_cons.mp hd with rfl | hd
      · exact (digit?_cases digit).1
      · exact ih d hd

/-- So many digits write a number below that power of the base. -/
theorem ofDigitValues_lt (h : ∀ d ∈ ds, d < base) : ofDigitValues base ds < base ^ ds.length := by
  have key : ∀ (ds : List Nat) (n : Nat), (∀ d ∈ ds, d < base) →
      ds.foldl (fun n d => n * base + d) n < (n + 1) * base ^ ds.length := by
    intro ds
    induction ds with
    | nil =>
        intro n _
        simp
    | cons d ds ih =>
        intro n h
        have hd : d < base := h d List.mem_cons_self
        calc (d :: ds).foldl (fun n d => n * base + d) n
            = ds.foldl (fun n d => n * base + d) (n * base + d) := rfl
          _ < (n * base + d + 1) * base ^ ds.length :=
              ih _ fun x hx => h x (List.mem_cons_of_mem _ hx)
          _ ≤ ((n + 1) * base) * base ^ ds.length := by
              refine Nat.mul_le_mul_right _ ?_
              rw [Nat.add_mul, Nat.one_mul]
              omega
          _ = (n + 1) * base ^ (d :: ds).length := by
              rw [List.length_cons, Nat.pow_succ, Nat.mul_assoc, Nat.mul_comm base]
  have hlt := key ds 0 h
  rwa [Nat.zero_add, Nat.one_mul] at hlt

/-! ## Signs and marks -/

theorem splitSign_cases (cs : List Char) :
    ∃ sign, cs = sign ++ (splitSign cs).2 ∧ IsSign sign (splitSign cs).1 := by
  unfold splitSign
  split
  · exact ⟨['-'], rfl, .minus⟩
  · exact ⟨['+'], rfl, .plus⟩
  · exact ⟨[], rfl, .none⟩

theorem dropMark_cases (base : Nat) (cs : List Char) :
    ∃ mark, cs = mark ++ dropMark base cs ∧ IsMark base mark := by
  unfold dropMark
  split
  · next x rest =>
      split
      · next hletter =>
          split
          · exact ⟨['0', x, '_'], rfl, .spaced hletter⟩
          · exact ⟨['0', x], rfl, .letter hletter⟩
      · exact ⟨[], rfl, .none⟩
  · exact ⟨[], rfl, .none⟩

/-- Digits do not start with a mark. -/
theorem DigitRun.not_mark {x : Char} {rest : List Char} (h : DigitRun base ('0' :: x :: rest) ds) :
    some x.toLower ≠ baseMark? base := by
  intro hmark
  cases h with
  | next digit more =>
      obtain ⟨x', rest', d, heq, hd⟩ := more.head
      cases heq
      rw [digit?_baseMark hmark] at hd
      cases hd
  | spaced digit more =>
      rcases baseMark?_cases hmark with ⟨-, hl⟩ | ⟨-, hl⟩ | ⟨-, hl⟩
      · exact absurd hl (by decide)
      · exact absurd hl (by decide)
      · exact absurd hl (by decide)

theorem dropMark_append (hm : IsMark base mark) (hd : DigitRun base cs ds) :
    dropMark base (mark ++ cs) = cs := by
  cases hm with
  | none =>
      rw [List.nil_append]
      unfold dropMark
      split
      · rw [if_neg hd.not_mark]
      · rfl
  | letter hletter =>
      obtain ⟨c, rest, d, rfl, hdigit⟩ := hd.head
      have hne : c ≠ '_' := by
        rintro rfl
        rw [digit?_underscore] at hdigit
        cases hdigit
      show (if some _ = baseMark? base then _ else _) = _
      rw [if_pos hletter]
      split
      · next heq =>
          cases heq
          exact absurd rfl hne
      · rfl
  | spaced hletter =>
      show (if some _ = baseMark? base then _ else _) = _
      rw [if_pos hletter]
      rfl

/-- The digits of a number, with its mark or without, start with no blank and no sign. -/
theorem head_mark_append (hm : IsMark base mark) (hd : DigitRun base cs ds) :
    ∃ c rest, mark ++ cs = c :: rest ∧ isMargin c = false ∧ c ≠ '-' ∧ c ≠ '+' := by
  have hsign (l : Char) (hl : ((decimalDigit? l).orElse fun _ => letterDigit? l) = none) :
      digit? base l = none := by
    rw [digit?, hl]
    rfl
  cases hm with
  | none =>
      obtain ⟨c, rest, d, rfl, hdigit⟩ := hd.head
      refine ⟨c, rest, rfl, not_isMargin_of_digit? hdigit, ?_, ?_⟩
      · rintro rfl
        rw [hsign '-' (by decide)] at hdigit
        cases hdigit
      · rintro rfl
        rw [hsign '+' (by decide)] at hdigit
        cases hdigit
  | letter hletter => exact ⟨'0', _, rfl, by decide, by decide, by decide⟩
  | spaced hletter => exact ⟨'0', _, rfl, by decide, by decide, by decide⟩

theorem splitSign_append {negative : Bool} (hs : IsSign sign negative) (hm : IsMark base mark)
    (hd : DigitRun base cs ds) :
    splitSign (sign ++ (mark ++ cs)) = (negative, mark ++ cs) := by
  cases hs with
  | none =>
      obtain ⟨c, rest, hcs, -, hminus, hplus⟩ := head_mark_append hm hd
      rw [List.nil_append, hcs]
      unfold splitSign
      split
      · next heq =>
          cases heq
          exact absurd rfl hminus
      · next heq =>
          cases heq
          exact absurd rfl hplus
      · rfl
  | plus => rfl
  | minus => rfl

/-- A sign and digits start and end with no blank. -/
theorem dropMargins_append {left right : List Char} {negative : Bool}
    (hleft : ∀ c ∈ left, isMargin c = true) (hright : ∀ c ∈ right, isMargin c = true)
    (hs : IsSign sign negative) (hm : IsMark base mark) (hd : DigitRun base cs ds) :
    dropMargins (left ++ (sign ++ (mark ++ cs)) ++ right) = sign ++ (mark ++ cs) := by
  refine trimWhile_append hleft hright (fun c hc => ?_) (fun c hc => ?_)
  · cases hs with
    | none =>
        obtain ⟨c', rest, hcs, hmargin, -⟩ := head_mark_append hm hd
        rw [List.nil_append, hcs] at hc
        cases hc
        exact hmargin
    | plus =>
        cases hc
        decide
    | minus =>
        cases hc
        decide
  · obtain ⟨c', d, hlast, hdigit⟩ := hd.getLast
    rw [List.getLast?_append, List.getLast?_append, hlast] at hc
    cases hc
    exact not_isMargin_of_digit? hdigit

/-! ## Whole numbers -/

/-- Digits alone are a numeral. -/
theorem DigitRun.numeral (h : DigitRun base cs ds) (hshort : base = 10 → ds.length ≤ maxDigits) :
    Numeral base cs (ofDigitValues base ds) := by
  have hnone : ∀ c ∈ ([] : List Char), isMargin c = true := nofun
  have hnumeral := Numeral.written hnone .none .none h hnone hshort
  rwa [List.append_nil] at hnumeral

/-- **Whole numbers are read from numerals** and from nothing else. -/
theorem readInt?_eq_some_iff {i : Int} : readInt? base cs = some i ↔ Numeral base cs i := by
  constructor
  · intro h
    obtain ⟨left, right, hcs, hleft, hright⟩ := exists_of_trimWhile isMargin cs
    obtain ⟨sign, hsplit, hsign⟩ := splitSign_cases (dropMargins cs)
    obtain ⟨mark, hdrop, hmark⟩ := dropMark_cases base (splitSign (dropMargins cs)).2
    unfold readInt? at h
    dsimp only at h
    split at h
    · next values hrun =>
        split at h
        · cases h
        · next hlong =>
            have hshort : base = 10 → values.length ≤ maxDigits :=
              fun hbase => Nat.not_lt.mp fun hlt => hlong ⟨hbase, hlt⟩
            -- the parts of the text are those that the reader split off
            have hnumeral := Numeral.written hleft hsign hmark (digitRun?_eq_some_iff.mp hrun) hright
              hshort
            rw [← hdrop, ← hsplit] at hnumeral
            rw [hcs, ← Option.some.inj h]
            exact hnumeral
    · cases h
  · rintro ⟨hleft, hsign, hmark, hrun, hright, hshort⟩
    have hlong := fun hbase => Nat.not_lt.mpr (hshort hbase)
    unfold readInt?
    dsimp only
    rw [dropMargins_append hleft hright hsign hmark hrun, splitSign_append hsign hmark hrun]
    dsimp only
    rw [dropMark_append hmark hrun, digitRun?_eq_some_iff.mpr hrun]
    dsimp only
    rw [if_neg fun h => hlong h.1 h.2]

/-- **A numeral of so many characters** writes a number below that power of its base, which is
negative only behind a minus sign. -/
theorem Numeral.bounds {i : Int} (h : Numeral base cs i) (hbase : 0 < base) :
    i.natAbs < base ^ cs.length ∧ (i < 0 → '-' ∈ cs) := by
  obtain ⟨hleft, hsign, hmark, hdigits, hright, hshort⟩ := h
  rename_i left sign mark digits right negative values
  constructor
  · have habs : (if negative then -(ofDigitValues base values : Int)
        else ofDigitValues base values).natAbs = ofDigitValues base values := by
      cases negative <;> simp
    have hlength : values.length ≤ (left ++ (sign ++ (mark ++ digits)) ++ right).length := by
      have := hdigits.length_le
      simp only [List.length_append]
      omega
    rw [habs]
    exact Nat.lt_of_lt_of_le (ofDigitValues_lt hdigits.lt_base)
      (Nat.pow_le_pow_right hbase hlength)
  · intro hneg
    cases hsign with
    | minus => simp
    | none => exact absurd hneg (Int.not_lt.mpr (Int.natCast_nonneg _))
    | plus => exact absurd hneg (Int.not_lt.mpr (Int.natCast_nonneg _))

end Perception.Number
