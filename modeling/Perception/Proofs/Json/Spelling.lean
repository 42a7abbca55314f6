import Perception.Proofs.Json.Atoms

set_option autoImplicit false

/-! # How lexemes are spelled

The cutter finds the words of the grammar: where the first lexeme of a text is neither broken nor too
long a number, the text starts with blanks and a spelling of that lexeme (`Spells`), and is cut on
behind it (`exists_spells`).
-/

namespace Perception.Json

/-! ## Texts that were read -/

theorem inside_of_textBody {start : Nat} {cs rest : List Char} {ns : List Nat}
    (h : textBody start cs = .ok (ns, rest)) : Inside cs ns rest := by
  -- the cases that fail are closed at the end; those left are a quote, two escapes and a letter
  fun_induction textBody start cs generalizing ns with
  | case2 rest' =>
      cases h
      exact .close _
  | case5 a b c d e more n hn ih =>
      cases hb : textBody start (e :: more) with
      | error f =>
          rw [hb] at h
          cases h
      | ok p =>
          rw [hb] at h
          cases h
          exact .digits hn (ih hb)
  | case8 c rest' _ n hc ih =>
      cases hb : textBody start rest' with
      | error f =>
          rw [hb] at h
          cases h
      | ok p =>
          rw [hb] at h
          cases h
          exact .letter hc (ih hb)
  | case10 c rest' hquote hend hu hslash hlow ih =>
      cases hb : textBody start rest' with
      | error f =>
          rw [hb] at h
          cases h
      | ok p =>
          rw [hb] at h
          cases h
          refine .plain hquote ?_ (Nat.not_lt.mp hlow) (ih hb)
          rintro rfl
          cases rest' with
          | nil => exact hend rfl rfl
          | cons x more => exact hslash x more rfl rfl
  | _ => cases h

/-! ## Numbers that were read -/

section Numbers

variable {cs rest ds places : List Char} {e : Option Int} {negative : Bool}

theorem forall_takeWhile (cs : List Char) : ∀ c ∈ cs.takeWhile isDigit, isDigit c = true :=
  fun _ hc => (List.all_eq_true.mp List.all_takeWhile) _ hc

theorem whole_of_wholePart (hw : wholePart cs = (ds, rest)) (hne : ds ≠ []) :
    cs = ds ++ rest ∧ Whole ds := by
  unfold wholePart at hw
  split at hw
  · cases hw
    exact ⟨rfl, .zero⟩
  · rename_i hzero
    cases hw
    refine ⟨List.takeWhile_append_dropWhile.symm, ?_⟩
    have hdigits := forall_takeWhile cs
    cases cs with
    | nil => exact absurd rfl hne
    | cons c cs =>
        by_cases hc : isDigit c = true
        · rw [List.takeWhile_cons_of_pos hc] at hdigits ⊢
          exact .digits (fun h => hzero cs (h ▸ rfl)) hdigits
        · rw [List.takeWhile_cons_of_neg hc] at hne
          exact absurd rfl hne

theorem places_of_placesPart (hp : placesPart cs = (places, rest)) :
    ∃ p, cs = p ++ rest ∧ Places p places := by
  unfold placesPart at hp
  split at hp
  · rename_i c more
    split at hp
    · rename_i hc
      cases hp
      refine ⟨'.' :: c :: more.takeWhile isDigit, ?_, .some ?_⟩
      · rw [List.cons_append, List.cons_append, List.takeWhile_append_dropWhile]
      · exact List.forall_mem_cons.mpr ⟨hc, forall_takeWhile more⟩
    · cases hp
      exact ⟨[], rfl, .none⟩
  · cases hp
    exact ⟨[], rfl, .none⟩

/-- What is read of an exponent whose letter and sign are known. -/
theorem exponent_of_body {x : Char} (hx : x = 'e' ∨ x = 'E') {sign body : List Char}
    (hs : Sign sign negative)
    (h : (if (body.takeWhile isDigit).isEmpty then (none, x :: (sign ++ body))
      else (some (if negative then -(ofDigits (body.takeWhile isDigit) : Int)
        else ofDigits (body.takeWhile isDigit)), body.dropWhile isDigit)) = (e, rest)) :
    ∃ q, x :: (sign ++ body) = q ++ rest ∧ Exponent q e := by
  cases hds : body.takeWhile isDigit with
  | nil =>
      rw [hds] at h
      cases h
      exact ⟨[], rfl, .none⟩
  | cons c ds =>
      have hdigits := forall_takeWhile body
      rw [hds] at h hdigits
      cases h
      refine ⟨x :: (sign ++ c :: ds), ?_, .some hx hs hdigits⟩
      rw [← hds, List.cons_append, List.append_assoc, List.takeWhile_append_dropWhile]

theorem exponent_of_exponentPart (hq : exponentPart cs = (e, rest)) :
    ∃ q, cs = q ++ rest ∧ Exponent q e := by
  have hnone : (none, cs) = (e, rest) → ∃ q, cs = q ++ rest ∧ Exponent q e := by
    intro heq
    cases heq
    exact ⟨[], rfl, .none⟩
  unfold exponentPart at hq
  split at hq
  · exact hnone hq
  · rename_i x more
    split at hq
    · rename_i hx
      dsimp only at hq
      -- one case for each sign
      split at hq
      · exact exponent_of_body hx .minus hq
      · exact exponent_of_body hx .plus hq
      · exact exponent_of_body hx .none hq
    · exact hnone hq

/-- **What is read as a number is a numeral.** -/
theorem numeral_of_number? {d : Datum} (h : number? negative cs = some (.atom d, rest)) :
    ∃ s, cs = s ++ rest ∧ Numeral negative s d := by
  rcases hw : wholePart cs with ⟨ds, r₁⟩
  rcases hp : placesPart r₁ with ⟨places, r₂⟩
  rcases hq : exponentPart r₂ with ⟨e, r₃⟩
  simp only [number?, hw, hp, hq] at h
  split at h
  · cases h
  · rename_i hne
    obtain ⟨rfl, hwhole⟩ := whole_of_wholePart hw (mt List.isEmpty_iff.mpr hne)
    obtain ⟨p, rfl, hplaces⟩ := places_of_placesPart hp
    obtain ⟨q, rfl, hexponent⟩ := exponent_of_exponentPart hq
    split at h
    · rename_i hint
      split at h
      · cases h
      · rename_i hlen
        cases h
        -- without places and exponent nothing stands between the digits and what follows
        obtain ⟨hnoPlaces, hnoExponent⟩ := Bool.and_eq_true_iff.mp hint
        rw [List.isEmpty_iff.mp hnoPlaces] at hplaces
        rw [Option.isNone_iff_eq_none.mp hnoExponent] at hexponent
        cases hplaces
        cases hexponent
        exact ⟨ds, rfl, .whole hwhole (Nat.not_lt.mp hlen)⟩
    · rename_i hfraction
      cases h
      refine ⟨ds ++ (p ++ q), by rw [List.append_assoc, List.append_assoc],
        .fraction hwhole hplaces hexponent ?_⟩
      cases places with
      | cons c places => exact Or.inl (List.cons_ne_nil _ _)
      | nil =>
          refine Or.inr ?_
          rintro rfl
          exact hfraction rfl

/-- A number is an atom or too long. -/
theorem number?_cases {l : Lexeme} (h : number? negative cs = some (l, rest)) :
    l = .longNumber ∨ ∃ d, l = .atom d := by
  unfold number? at h
  dsimp only at h
  split at h
  · cases h
  · split at h
    · split at h
      · cases h
        exact Or.inl rfl
      · cases h
        exact Or.inr ⟨_, rfl⟩
    · cases h
      exact Or.inr ⟨_, rfl⟩

/-! ## Names that were read -/

theorem name_of_name? {l : Lexeme} (h : name? cs = some (l, rest)) :
    ∃ s d, cs = s ++ rest ∧ l = .atom d ∧ (s, d) ∈ names := by
  obtain ⟨⟨s, d⟩, he, hl⟩ := List.exists_of_findSome?_eq_some h
  obtain ⟨rest', hrest, heq⟩ := Option.map_eq_some_iff.mp hl
  cases heq
  exact ⟨s, d, Text.after?_eq_some.mp hrest, rfl, he⟩

end Numbers

/-! ## From lexemes to the grammar -/

/-- A lexeme at the start of a text, and what follows it. -/
inductive Spells : List Char → Lexeme → List Char → Prop
  | openList (rest : List Char) : Spells ('[' :: rest) .openList rest
  | closeList (rest : List Char) : Spells (']' :: rest) .closeList rest
  | openRecord (rest : List Char) : Spells ('{' :: rest) .openRecord rest
  | closeRecord (rest : List Char) : Spells ('}' :: rest) .closeRecord rest
  | comma (rest : List Char) : Spells (',' :: rest) .comma rest
  | colon (rest : List Char) : Spells (':' :: rest) .colon rest
  | text {cs rest : List Char} {ns : List Nat} (h : Inside cs ns rest) :
      Spells ('"' :: cs) (.text (joinHalves ns)) rest
  | atom {cs : List Char} {d : Datum} (h : Atom cs d) (rest : List Char) :
      Spells (cs ++ rest) (.atom d) rest

/-- The lexeme was read to its end and has a value, if it is one that stands for a value. -/
def Lexeme.isSound : Lexeme → Bool
  | .longNumber => false
  | l => l.goesOn

theorem goesOn_of_isSound {l : Lexeme} (h : l.isSound = true) : l.goesOn = true := by
  cases l with
  | longNumber => rfl
  | _ => exact h

theorem spells_of_first {c : Char} {cs rest : List Char} {l : Lexeme} (hf : first c cs = (l, rest))
    (hl : l.isSound = true) : Spells (c :: cs) l rest := by
  -- a number that is too long is no sound lexeme
  have hnumber {negative : Bool} {s : List Char} (h : number? negative s = some (l, rest)) :
      ∃ t d, s = t ++ rest ∧ l = .atom d ∧ Numeral negative t d := by
    rcases number?_cases h with rfl | ⟨d, rfl⟩
    · cases hl
    · obtain ⟨t, ht, hnumeral⟩ := numeral_of_number? h
      exact ⟨t, d, ht, rfl, hnumeral⟩
  have hname (h : (name? (c :: cs)).getD (.stray, cs) = (l, rest)) : Spells (c :: cs) l rest := by
    cases hn : name? (c :: cs) with
    | none =>
        rw [hn] at h
        cases h
        cases hl
    | some found =>
        rw [hn] at h
        cases h
        obtain ⟨s, d, hs, rfl, hmem⟩ := name_of_name? hn
        rw [hs]
        exact .atom (.name hmem) rest
  -- the first character is one of the six signs, a quote or anything else
  unfold first at hf
  split at hf
  · cases hf
    exact .openList _
  · cases hf
    exact .closeList _
  · cases hf
    exact .openRecord _
  · cases hf
    exact .closeRecord _
  · cases hf
    exact .comma _
  · cases hf
    exact .colon _
  · split at hf
    · rename_i hbody
      cases hf
      exact .text (inside_of_textBody hbody)
    · cases hf
      cases hl
  · dsimp only at hf
    split at hf
    · -- behind a minus stand a number or the rest of a name
      rename_i hminus
      subst hminus
      cases hn : number? true cs with
      | none =>
          rw [hn] at hf
          exact hname hf
      | some found =>
          rw [hn] at hf
          cases hf
          obtain ⟨t, d, rfl, rfl, hnumeral⟩ := hnumber hn
          exact .atom (.negative hnumeral) rest
    · cases hn : number? false (c :: cs) with
      | none =>
          rw [hn] at hf
          exact hname hf
      | some found =>
          rw [hn] at hf
          cases hf
          obtain ⟨t, d, hs, rfl, hnumeral⟩ := hnumber hn
          rw [hs]
          exact .atom (.positive hnumeral) rest

/-- What is no space starts with a lexeme. -/
theorem lexemes_cons {c : Char} (cs : List Char) (hc : isSpace c = false) :
    ∃ ls, lexemes (c :: cs) = (first c cs).1 :: ls := by
  simp only [lexemes, tokens, List.length_cons, tokensFrom, hc, Bool.false_eq_true, if_false]
  exact ⟨_, rfl⟩

theorem exists_spells {cs : List Char} {l : Lexeme} {ls : List Lexeme} (h : lexemes cs = l :: ls)
    (hl : l.isSound = true) : ∃ a rest, Blanks cs a ∧ Spells a l rest ∧ ls = lexemes rest := by
  induction cs with
  | nil => cases h
  | cons c cs ih =>
      cases hc : isSpace c with
      | true =>
          rw [lexemes_space cs hc] at h
          obtain ⟨a, rest, ha, hspells, hls⟩ := ih h
          exact ⟨a, rest, .cons hc ha, hspells, hls⟩
      | false =>
          rcases hf : first c cs with ⟨l', rest⟩
          obtain ⟨ls', hls'⟩ := lexemes_cons cs hc
          rw [hf, h] at hls'
          obtain rfl := (List.cons.inj hls').1
          rw [lexemes_first hc hf (goesOn_of_isSound hl)] at h
          exact ⟨c :: cs, rest, .nil _, spells_of_first hf hl, (List.cons.inj h).2.symm⟩

theorem blanks_of_lexemes_nil {cs : List Char} (h : lexemes cs = []) : Blanks cs [] := by
  induction cs with
  | nil => exact .nil []
  | cons c cs ih =>
      cases hc : isSpace c with
      | true =>
          rw [lexemes_space cs hc] at h
          exact .cons hc (ih h)
      | false =>
          obtain ⟨ls, hls⟩ := lexemes_cons cs hc
          rw [h] at hls
          cases hls

end Perception.Json
