import Perception.Proofs.Uri.Percent

set_option autoImplicit false

/-! # Addresses of files

The address of a file has the scheme of files, no authority, and the escaped path
(`Uri.parse?_ofPath`). An absolute path with one slash in front is no address: it has neither a
scheme nor an authority, whatever marks of addresses occur in it (`Uri.parse?_top`).
-/

namespace Perception.Uri

variable {rest : List Char}

/-- A text that starts with no control and has none of the characters that count for nothing. -/
theorem clean_eq {c : Char} (hc : isControl c = false)
    (h : ∀ d ∈ c :: rest, isIgnored d = false) : clean (c :: rest) = c :: rest := by
  have hstart : ¬isControl c = true := by
    rw [hc]
    exact Bool.false_ne_true
  rw [clean, List.dropWhile_cons_of_neg hstart, List.filter_eq_self]
  intro d hd
  rw [h d hd]
  rfl

/-! ## Written addresses -/

theorem splitScheme_file (rest : List Char) :
    splitScheme ('f' :: 'i' :: 'l' :: 'e' :: ':' :: rest) = (['f', 'i', 'l', 'e'], rest) := rfl

/-- An authority that is there, but empty. -/
theorem splitAuthority_empty (rest : List Char) :
    splitAuthority ('/' :: '/' :: '/' :: rest) = ([], '/' :: rest) := rfl

theorem encodePath_slash (rest : List Char) : encodePath ('/' :: rest) = '/' :: encodePath rest :=
  rfl

/-- **The address of a file** has its scheme, and the escaped path. -/
theorem parse?_ofPath (rest : List Char) :
    parse? (ofPath ('/' :: rest)) = some ⟨['f', 'i', 'l', 'e'], [], encodePath ('/' :: rest)⟩ := by
  have hinert : ∀ c ∈ encodePath ('/' :: rest), Inert c := inert_of_mem_encodePath
  have hclean : clean (ofPath ('/' :: rest)) = ofPath ('/' :: rest) := by
    have hmarks : ∀ c ∈ ['f', 'i', 'l', 'e', ':', '/', '/'], isIgnored c = false := by
      simp [isIgnored]
    have hkept : ∀ c ∈ ofPath ('/' :: rest), isIgnored c = false := by
      intro c hc
      rcases List.mem_append.mp hc with hc | hc
      · exact hmarks c hc
      · exact (hinert c hc).kept
    exact clean_eq rfl hkept
  have hscheme : splitScheme (ofPath ('/' :: rest))
      = (['f', 'i', 'l', 'e'], '/' :: '/' :: '/' :: encodePath rest) := splitScheme_file _
  have hpath : (encodePath ('/' :: rest)).takeWhile (fun c => c ≠ '#' && c ≠ '?')
      = encodePath ('/' :: rest) := by
    -- no escaped character ends a path
    refine List.takeWhile_eq_self_iff.mpr fun c hc => ?_
    simp [(hinert c hc).noFragment, (hinert c hc).noQuery]
  rw [parse?, hclean, hscheme]
  dsimp only
  rw [splitAuthority_empty, ← encodePath_slash]
  dsimp only
  rw [hpath]
  rfl

/-! ## Paths -/

/-- A scheme does not start with a slash. -/
theorem splitScheme_slash (rest : List Char) : splitScheme ('/' :: rest) = ([], '/' :: rest) := by
  have hcut : Text.cutAt? (· = ':') ('/' :: rest)
      = (Text.cutAt? (· = ':') rest).map fun cut => ('/' :: cut.1, cut.2) := rfl
  rw [splitScheme, hcut]
  cases Text.cutAt? (· = ':') rest <;> rfl

/-- One slash in front is no authority. -/
theorem splitAuthority_slash (h : rest.head? ≠ some '/') :
    splitAuthority ('/' :: rest) = ([], '/' :: rest) := by
  unfold splitAuthority
  split
  · next heq =>
      cases heq
      exact absurd rfl h
  · rfl

/-- **An absolute path** has neither a scheme nor an authority. -/
theorem parse?_top (hignored : ∀ c ∈ '/' :: rest, isIgnored c = false)
    (h : rest.head? ≠ some '/') :
    parse? ('/' :: rest) = some ⟨[], [], ('/' :: rest).takeWhile fun c => c ≠ '#' && c ≠ '?'⟩ := by
  rw [parse?, clean_eq rfl hignored, splitScheme_slash]
  dsimp only
  rw [splitAuthority_slash h]
  rfl

end Perception.Uri
