import Perception.Proofs.Json.Grammar
import Perception.Proofs.Json.Lexemes

set_option autoImplicit false

/-! # How texts and atoms are cut

What the grammar calls a text or an atom is cut into that lexeme (`lexemes_inside`, `lexemes_atom`).
A number ends only where what follows does not go on with one (`EndsNumber`), which no blank, no comma
and no closing bracket does.
-/

namespace Perception.Json

/-! ## What follows -/

def EndsNumber (cs : List Char) : Prop :=
  ∀ c ∈ cs.head?, isDigit c = false ∧ c ≠ '.' ∧ c ≠ 'e' ∧ c ≠ 'E'

theorem endsNumber_cons {c : Char} (cs : List Char) (hd : isDigit c = false) (hp : c ≠ '.')
    (he : c ≠ 'e') (hE : c ≠ 'E') : EndsNumber (c :: cs) := by
  intro c' hc'
  cases hc'
  exact ⟨hd, hp, he, hE⟩

theorem endsNumber_space {c : Char} (cs : List Char) (hc : isSpace c = true) :
    EndsNumber (c :: cs) := by
  simp only [isSpace, Bool.or_eq_true, decide_eq_true_eq] at hc
  rcases hc with ((rfl | rfl) | rfl) | rfl <;>
    exact endsNumber_cons cs rfl (by decide) (by decide) (by decide)

theorem endsNumber_comma (cs : List Char) : EndsNumber (',' :: cs) :=
  endsNumber_cons cs rfl (by decide) (by decide) (by decide)

theorem endsNumber_closeList (cs : List Char) : EndsNumber (']' :: cs) :=
  endsNumber_cons cs rfl (by decide) (by decide) (by decide)

theorem endsNumber_closeRecord (cs : List Char) : EndsNumber ('}' :: cs) :=
  endsNumber_cons cs rfl (by decide) (by decide) (by decide)

def EndsDigits (cs : List Char) : Prop := ∀ c ∈ cs.head?, isDigit c = false

theorem EndsNumber.endsDigits {cs : List Char} (h : EndsNumber cs) : EndsDigits cs :=
  fun c hc => (h c hc).1

theorem endsDigits_cons {c : Char} (cs : List Char) (hc : isDigit c = false) :
    EndsDigits (c :: cs) := by
  intro c' hc'
  cases hc'
  exact hc

/-- The text goes on with neither a digit nor a point. -/
def EndsPlaces (cs : List Char) : Prop := ∀ c ∈ cs.head?, isDigit c = false ∧ c ≠ '.'

theorem EndsNumber.endsPlaces {cs : List Char} (h : EndsNumber cs) : EndsPlaces cs :=
  fun c hc => ⟨(h c hc).1, (h c hc).2.1⟩

theorem EndsPlaces.endsDigits {cs : List Char} (h : EndsPlaces cs) : EndsDigits cs :=
  fun c hc => (h c hc).1

theorem takeWhile_isDigit_append {ds rest : List Char} (hd : ∀ c ∈ ds, isDigit c = true)
    (hr : EndsDigits rest) : (ds ++ rest).takeWhile isDigit = ds := by
  rw [List.takeWhile_append_of_pos hd]
  cases rest with
  | nil => simp
  | cons c cs => simp [hr c rfl]

theorem dropWhile_isDigit_append {ds rest : List Char} (hd : ∀ c ∈ ds, isDigit c = true)
    (hr : EndsDigits rest) : (ds ++ rest).dropWhile isDigit = rest := by
  rw [List.dropWhile_append_of_pos hd]
  cases rest with
  | nil => rfl
  | cons c cs => simp [hr c rfl]

/-! ## Blanks -/

theorem Blanks.lexemes_eq {cs rest : List Char} (h : Blanks cs rest) : lexemes cs = lexemes rest := by
  induction h with
  | nil cs => rfl
  | cons hc _ ih => rw [lexemes_space _ hc, ih]

theorem Blanks.endsNumber {cs rest : List Char} (h : Blanks cs rest) (hr : EndsNumber rest) :
    EndsNumber cs := by
  cases h with
  | nil => exact hr
  | cons hc _ => exact endsNumber_space _ hc

/-! ## Texts -/

theorem Inside.ne_nil {cs rest : List Char} {ns : List Nat} (h : Inside cs ns rest) : cs ≠ [] := by
  cases h <;> exact List.cons_ne_nil _ _

theorem textBody_of_inside {cs rest : List Char} {ns : List Nat} (h : Inside cs ns rest)
    (start : Nat) : textBody start cs = .ok (ns, rest) := by
  induction h with
  | close rest => rfl
  | @plain c cs rest ns hquote hslash hc _ ih =>
      have hlow : ¬c.toNat < 0x20 := Nat.not_lt.mpr hc
      rw [textBody]
      · rw [if_neg hlow, ih]
        rfl
      · exact hquote
      · exact fun h _ => hslash h
      · exact fun _ h _ => hslash h
      · exact fun _ _ h _ => hslash h
  | @letter c n cs rest ns hc _ ih =>
      rw [textBody]
      · rw [hc]
        dsimp only
        rw [ih]
        rfl
      · rintro rfl
        cases hc
  | @digits a b c d n cs rest ns hn h ih =>
      -- at least the closing quote follows the digits
      obtain ⟨e, more, rfl⟩ := List.exists_cons_of_ne_nil h.ne_nil
      simp only [textBody, hn, ih]
      rfl

theorem lexemes_inside {cs rest : List Char} {ns : List Nat} (h : Inside cs ns rest) :
    lexemes ('"' :: cs) = .text (joinHalves ns) :: lexemes rest := by
  refine lexemes_first rfl ?_ rfl
  simp only [first, textBody_of_inside h]

/-! ## Numbers -/

section Numbers

variable {cs rest ds p q places : List Char} {e : Option Int} {negative : Bool}

theorem Exponent.endsPlaces (h : Exponent q e) (hr : EndsNumber rest) : EndsPlaces (q ++ rest) := by
  cases h with
  | none => exact hr.endsPlaces
  | some he _ _ =>
      intro c hc
      cases hc
      rcases he with rfl | rfl <;> exact ⟨rfl, by decide⟩

theorem Places.endsDigits (h : Places p places) (hr : EndsPlaces rest) :
    EndsDigits (p ++ rest) := by
  cases h with
  | none => exact hr.endsDigits
  | some _ => exact endsDigits_cons _ rfl

theorem wholePart_of_whole (h : Whole ds) (hr : EndsDigits rest) :
    wholePart (ds ++ rest) = (ds, rest) := by
  have htake := takeWhile_isDigit_append h.isDigit hr
  have hdrop := dropWhile_isDigit_append h.isDigit hr
  cases h with
  | zero => rfl
  | digits hc _ =>
      unfold wholePart
      split
      · rename_i heq
        exact absurd (List.cons.inj heq).1 hc
      · rw [htake, hdrop]

theorem placesPart_of_places (h : Places p places) (hr : EndsPlaces rest) :
    placesPart (p ++ rest) = (places, rest) := by
  cases h with
  | none =>
      show placesPart rest = _
      unfold placesPart
      split
      · exact absurd rfl (hr '.' rfl).2
      · rfl
  | @some c ds hd =>
      have hmore : ∀ x ∈ ds, isDigit x = true := fun x hx => hd x (List.mem_cons_of_mem _ hx)
      simp only [List.cons_append, placesPart, hd c List.mem_cons_self, if_true,
        takeWhile_isDigit_append hmore hr.endsDigits, dropWhile_isDigit_append hmore hr.endsDigits]

/-- Digits behind the letter of an exponent start with no sign. -/
theorem ne_sign {c : Char} (hc : isDigit c = true) : c ≠ '-' ∧ c ≠ '+' := by
  constructor
  · rintro rfl
    cases hc
  · rintro rfl
    cases hc

theorem exponentPart_of_exponent (h : Exponent q e) (hr : EndsNumber rest) :
    exponentPart (q ++ rest) = (e, rest) := by
  cases h with
  | none =>
      show exponentPart rest = _
      cases rest with
      | nil => rfl
      | cons c cs =>
          obtain ⟨-, -, he, hE⟩ := hr c rfl
          simp only [exponentPart, not_or_intro he hE, if_false]
  | @some e c sign ds negative he hs hd =>
      have htake := takeWhile_isDigit_append hd hr.endsDigits
      have hdrop := dropWhile_isDigit_append hd hr.endsDigits
      rw [List.cons_append] at htake hdrop
      cases hs with
      | none =>
          -- the first digit is not taken for a sign
          obtain ⟨hminus, hplus⟩ := ne_sign (hd c List.mem_cons_self)
          simp only [List.cons_append, List.nil_append, exponentPart, he, if_true]
          split
          · rename_i heq
            exact absurd (List.cons.inj heq).1 hminus
          · rename_i heq
            exact absurd (List.cons.inj heq).1 hplus
          · simp only [htake, hdrop, List.isEmpty_cons, Bool.false_eq_true, if_false]
      | plus =>
          simp only [List.cons_append, List.nil_append, exponentPart, he, if_true, htake, hdrop,
            List.isEmpty_cons, Bool.false_eq_true, if_false]
      | minus =>
          simp only [List.cons_append, List.nil_append, exponentPart, he, if_true, htake, hdrop,
            List.isEmpty_cons, Bool.false_eq_true, if_false]

/-- **A numeral is read as its number.** -/
theorem number?_of_numeral {d : Datum} (h : Numeral negative cs d) (hr : EndsNumber rest) :
    number? negative (cs ++ rest) = some (.atom d, rest) := by
  have hempty {ds : List Char} (hw : Whole ds) : ds.isEmpty = false := by
    cases hw <;> rfl
  cases h with
  | whole hw hlen =>
      have hplaces : placesPart rest = ([], rest) := placesPart_of_places .none hr.endsPlaces
      have hexponent : exponentPart rest = (none, rest) := exponentPart_of_exponent .none hr
      simp only [number?, wholePart_of_whole hw hr.endsDigits, hplaces, hexponent, hempty hw,
        Bool.false_eq_true, if_false, List.isEmpty_nil, Option.isNone_none, Bool.and_self, if_true,
        if_neg (Nat.not_lt.mpr hlen)]
  | @fraction _ _ places _ e hw hp hq hsome =>
      have hends := hq.endsPlaces hr
      -- the places or the exponent show that it is no whole number
      have hfraction : (places.isEmpty && e.isNone) = false := by
        rw [Bool.and_eq_false_iff, List.isEmpty_eq_false_iff, Option.isNone_eq_false_iff,
          Option.isSome_iff_ne_none]
        exact hsome
      rw [List.append_assoc, List.append_assoc]
      simp only [number?, wholePart_of_whole hw (hp.endsDigits hends), placesPart_of_places hp hends,
        exponentPart_of_exponent hq hr, hempty hw, hfraction, Bool.false_eq_true, if_false]

/-- A digit starts a number and nothing else. -/
theorem first_of_isDigit {c : Char} {l : Lexeme} (hc : isDigit c = true)
    (h : number? false (c :: cs) = some (l, rest)) : first c cs = (l, rest) := by
  unfold first
  split
  all_goals first | (exact absurd hc (by decide)) | skip
  simp only [(ne_sign hc).1, if_false, h, Option.orElse_some, Option.getD_some]

theorem not_isSpace_of_isDigit {c : Char} (hc : isDigit c = true) : isSpace c = false := by
  rw [Bool.eq_false_iff]
  intro hs
  simp only [isSpace, Bool.or_eq_true, decide_eq_true_eq] at hs
  rcases hs with ((rfl | rfl) | rfl) | rfl <;> exact absurd hc (by decide)

theorem Numeral.head {d : Datum} (h : Numeral negative cs d) :
    ∃ c cs', cs = c :: cs' ∧ isDigit c = true := by
  have hwhole {ds : List Char} (hw : Whole ds) : ∃ c ds', ds = c :: ds' ∧ isDigit c = true := by
    cases hw with
    | zero => exact ⟨_, _, rfl, rfl⟩
    | digits _ hd => exact ⟨_, _, rfl, hd _ List.mem_cons_self⟩
  cases h with
  | whole hw _ => exact hwhole hw
  | fraction hw _ _ _ =>
      obtain ⟨c, ds', rfl, hc⟩ := hwhole hw
      exact ⟨c, _, rfl, hc⟩

/-- **An atom is cut into its value**, where no number goes on behind it. -/
theorem lexemes_atom {d : Datum} (h : Atom cs d) (hr : EndsNumber rest) :
    lexemes (cs ++ rest) = .atom d :: lexemes rest := by
  cases h with
  | name h =>
      simp only [names, List.mem_cons, List.not_mem_nil, or_false] at h
      rcases h with h | h | h | h | h | h <;> cases h <;> exact lexemes_first rfl rfl rfl
  | positive h =>
      have hnumber := number?_of_numeral h hr
      obtain ⟨c, cs', rfl, hc⟩ := h.head
      exact lexemes_first (not_isSpace_of_isDigit hc) (first_of_isDigit hc hnumber) rfl
  | @negative cs d h =>
      refine lexemes_first rfl ?_ rfl
      show (((number? true (cs ++ rest)).orElse _).getD _) = _
      rw [number?_of_numeral h hr]
      rfl

end Numbers

end Perception.Json
