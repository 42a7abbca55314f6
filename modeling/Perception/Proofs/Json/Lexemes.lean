import Perception.Json.Reader
import Perception.Proofs.Text.Cut

set_option autoImplicit false

/-! # What a text is cut into

`lexemes cs` is what the tokens of the text `cs` are, without their places. The cutter runs on fuel;
since each token takes at least one character away (`length_first_le`), the length of the text is
always enough (`tokensFrom_of_le`), and `lexemes` obeys equations without fuel: a space is dropped
(`lexemes_space`), and anything else gives one lexeme and goes on behind it (`lexemes_first`).
-/

namespace Perception.Json

/-! ## Each token takes something away -/

theorem length_after? {pre cs rest : List Char} (h : Text.after? pre cs = some rest) :
    rest.length + pre.length = cs.length := by
  rw [Text.after?_eq_some.mp h, List.length_append, Nat.add_comm]

theorem length_textBody_lt {start : Nat} {cs : List Char} {ns : List Nat} {rest : List Char}
    (h : textBody start cs = .ok (ns, rest)) : rest.length < cs.length := by
  fun_induction textBody start cs generalizing ns with
  | case2 rest' => cases h; simp
  | case5 a b c d e more n _ ih =>
      cases hb : textBody start (e :: more) with
      | error f => rw [hb] at h; cases h
      | ok p =>
          rw [hb] at h
          cases h
          have := ih hb
          simp only [List.length_cons] at this ⊢
          omega
  | case8 c rest' _ n _ ih =>
      cases hb : textBody start rest' with
      | error f => rw [hb] at h; cases h
      | ok p =>
          rw [hb] at h
          cases h
          have := ih hb
          simp only [List.length_cons]
          omega
  | case10 c rest' _ _ _ _ _ ih =>
      cases hb : textBody start rest' with
      | error f => rw [hb] at h; cases h
      | ok p =>
          rw [hb] at h
          cases h
          have := ih hb
          simp only [List.length_cons]
          omega
  | _ => cases h

theorem length_wholePart (cs : List Char) :
    (wholePart cs).1.length + (wholePart cs).2.length = cs.length := by
  unfold wholePart
  split
  · simp only [List.length_cons, List.length_nil]
    omega
  · rw [← List.length_append, List.takeWhile_append_dropWhile]

theorem length_placesPart_le (cs : List Char) : (placesPart cs).2.length ≤ cs.length := by
  unfold placesPart
  split
  · next c rest =>
      split
      · have := (List.dropWhile_sublist isDigit (l := rest)).length_le
        simp only [List.length_cons]
        omega
      · exact Nat.le_refl _
  · exact Nat.le_refl _

theorem length_exponentPart_le (cs : List Char) : (exponentPart cs).2.length ≤ cs.length := by
  cases cs with
  | nil => exact Nat.le_refl _
  | cons e rest =>
      have hdrop : ∀ body : List Char, (body.dropWhile isDigit).length ≤ body.length :=
        fun body => (List.dropWhile_sublist isDigit).length_le
      unfold exponentPart
      split
      · next heq => cases heq
      · next e' rest' heq =>
          cases heq
          split
          · dsimp only
            -- one case for each sign in front of the digits
            split
            · next more =>
                have := hdrop more
                dsimp only
                split <;> simp only [List.length_cons] <;> omega
            · next more =>
                have := hdrop more
                dsimp only
                split <;> simp only [List.length_cons] <;> omega
            · have := hdrop rest
              dsimp only
              split <;> simp only [List.length_cons] <;> omega
          · exact Nat.le_refl _

theorem length_number?_lt {negative : Bool} {cs rest : List Char} {l : Lexeme}
    (h : number? negative cs = some (l, rest)) : rest.length < cs.length := by
  have hw := length_wholePart cs
  have hp := length_placesPart_le (wholePart cs).2
  have he := length_exponentPart_le (placesPart (wholePart cs).2).2
  unfold number? at h
  dsimp only at h
  split at h
  · cases h
  · next hne =>
      have hpos : 0 < (wholePart cs).1.length := by
        rw [List.length_pos_iff]
        simpa using hne
      have hrest : rest = (exponentPart (placesPart (wholePart cs).2).2).2 := by
        split at h
        · split at h <;> cases h <;> rfl
        · cases h; rfl
      rw [hrest]
      omega

theorem length_name?_lt {cs rest : List Char} {l : Lexeme} (h : name? cs = some (l, rest)) :
    rest.length < cs.length := by
  obtain ⟨e, he, hl⟩ := List.exists_of_findSome?_eq_some h
  obtain ⟨rest', hrest, heq⟩ := Option.map_eq_some_iff.mp hl
  cases heq
  have hlen := length_after? hrest
  have hpos : 0 < e.1.length := by
    simp only [names, List.mem_cons, List.not_mem_nil, or_false] at he
    rcases he with rfl | rfl | rfl | rfl | rfl | rfl <;> decide
  omega

/-- A token takes away its first character at least. -/
theorem length_first_le (c : Char) (cs : List Char) : (first c cs).2.length ≤ cs.length := by
  unfold first
  split
  all_goals try exact Nat.le_refl _
  · split
    · next ns rest h => exact Nat.le_of_lt (length_textBody_lt h)
    · exact Nat.zero_le _
  · dsimp only
    cases hn : (if c = '-' then number? true cs else number? false (c :: cs)) with
    | some p =>
        simp only [Option.orElse_some, Option.getD_some]
        split at hn
        · exact Nat.le_of_lt (length_number?_lt hn)
        · exact Nat.le_of_lt_succ (length_number?_lt hn)
    | none =>
        simp only [Option.orElse_none]
        cases hm : name? (c :: cs) with
        | some p => exact Nat.le_of_lt_succ (length_name?_lt hm)
        | none => exact Nat.le_refl _

/-! ## Cutting without fuel -/

theorem tokensFrom_of_le {m n : Nat} {cs : List Char} (hm : cs.length ≤ m) (hn : cs.length ≤ n) :
    tokensFrom m cs = tokensFrom n cs := by
  induction m generalizing n cs with
  | zero =>
      have hnil : cs = [] := List.length_eq_zero_iff.mp (by omega)
      subst hnil
      cases n <;> rfl
  | succ m ih =>
      cases cs with
      | nil => cases n <;> rfl
      | cons c cs =>
          cases n with
          | zero => simp at hn
          | succ n =>
              simp only [List.length_cons] at hm hn
              have hrest := length_first_le c cs
              have hspace : tokensFrom m cs = tokensFrom n cs := ih (by omega) (by omega)
              have hfirst : tokensFrom m (first c cs).2 = tokensFrom n (first c cs).2 :=
                ih (by omega) (by omega)
              simp only [tokensFrom, hspace, hfirst]

def lexemes (cs : List Char) : List Lexeme := (tokens cs).map Token.lexeme

theorem lexemes_space {c : Char} (cs : List Char) (h : isSpace c = true) :
    lexemes (c :: cs) = lexemes cs := by
  simp only [lexemes, tokens, List.length_cons, tokensFrom, h, if_true]

theorem lexemes_blanks {blanks : List Char} (h : ∀ c ∈ blanks, isSpace c = true)
    (cs : List Char) : lexemes (blanks ++ cs) = lexemes cs := by
  induction blanks with
  | nil => rfl
  | cons b blanks ih =>
      rw [List.cons_append, lexemes_space _ (h b List.mem_cons_self),
        ih fun c hc => h c (List.mem_cons_of_mem _ hc)]

/-- Is this a lexeme behind which a text is cut on? -/
def Lexeme.goesOn : Lexeme → Bool
  | .stray => false
  | .brokenText _ _ => false
  | _ => true

theorem lexemes_first {c : Char} {cs rest : List Char} {l : Lexeme} (hc : isSpace c = false)
    (hf : first c cs = (l, rest)) (hl : l.goesOn = true) :
    lexemes (c :: cs) = l :: lexemes rest := by
  have hrest : rest.length ≤ cs.length := by
    have := length_first_le c cs
    rwa [hf] at this
  have hfuel : tokensFrom cs.length rest = tokensFrom rest.length rest :=
    tokensFrom_of_le hrest (Nat.le_refl _)
  simp only [lexemes, tokens, List.length_cons, tokensFrom, hc, hf, hfuel, Bool.false_eq_true,
    if_false]
  cases l with
  | stray => cases hl
  | brokenText cause n => cases hl
  | _ => rfl

/-! ## Signs -/

theorem lexemes_openList (cs : List Char) : lexemes ('[' :: cs) = .openList :: lexemes cs :=
  lexemes_first rfl rfl rfl

theorem lexemes_closeList (cs : List Char) : lexemes (']' :: cs) = .closeList :: lexemes cs :=
  lexemes_first rfl rfl rfl

theorem lexemes_openRecord (cs : List Char) :
    lexemes ('{' :: cs) = .openRecord :: lexemes cs :=
  lexemes_first rfl rfl rfl

theorem lexemes_closeRecord (cs : List Char) :
    lexemes ('}' :: cs) = .closeRecord :: lexemes cs :=
  lexemes_first rfl rfl rfl

theorem lexemes_comma (cs : List Char) : lexemes (',' :: cs) = .comma :: lexemes cs :=
  lexemes_first rfl rfl rfl

theorem lexemes_colon (cs : List Char) : lexemes (':' :: cs) = .colon :: lexemes cs :=
  lexemes_first rfl rfl rfl

end Perception.Json
