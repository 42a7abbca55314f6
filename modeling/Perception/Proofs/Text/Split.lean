import Perception.Text.Blank

set_option autoImplicit false

/-! # Texts split at marks

Splitting a text at a mark is undone by joining the parts (`Text.intercalate_splitAt`), and parts
without the mark are what their joined text splits into (`Text.splitAt_intercalate`).
-/

namespace Perception.Text

variable {p : Char → Bool} {mark : Char} {cs : List Char} {parts : List (List Char)}

theorem splitAt_eq (p : Char → Bool) (cs : List Char) : splitAt p cs = cs.splitOnP p := by
  induction cs with
  | nil => rfl
  | cons c cs ih =>
      rw [List.splitOnP_cons_eq_if_modifyHead, splitAt, ih]
      by_cases hc : p c = true
      · rw [if_pos hc, if_pos hc]
      · rw [if_neg hc, if_neg hc]
        cases hparts : cs.splitOnP p with
        | nil => exact absurd hparts (List.splitOnP_ne_nil p cs)
        | cons l ls => rfl

theorem splitAt_ne_nil (p : Char → Bool) (cs : List Char) : splitAt p cs ≠ [] := by
  rw [splitAt_eq]
  exact List.splitOnP_ne_nil p cs

theorem intercalate_splitAt (mark : Char) (cs : List Char) :
    [mark].intercalate (splitAt (· = mark) cs) = cs := by
  rw [splitAt_eq]
  exact List.intercalate_splitOn mark

theorem splitAt_intercalate (hparts : ∀ l ∈ parts, mark ∉ l) (hne : parts ≠ []) :
    splitAt (· = mark) ([mark].intercalate parts) = parts := by
  rw [splitAt_eq]
  exact List.splitOn_intercalate mark hparts hne

/-- **The parts** hold characters of the text, without the mark. -/
theorem mem_of_mem_splitAt (cs : List Char) :
    ∀ l ∈ splitAt (· = mark) cs, ∀ c ∈ l, c ≠ mark ∧ c ∈ cs := by
  induction cs with
  | nil =>
      intro l hl
      rw [List.mem_singleton.mp hl]
      exact fun c hc => absurd hc List.not_mem_nil
  | cons d cs ih =>
      -- a character of the rest is one of the whole
      have hrest (l : List Char) (hl : l ∈ splitAt (· = mark) cs) :
          ∀ c ∈ l, c ≠ mark ∧ c ∈ d :: cs :=
        fun c hc => ⟨(ih l hl c hc).1, List.mem_cons_of_mem d (ih l hl c hc).2⟩
      rw [splitAt]
      by_cases hd : d = mark
      · rw [if_pos (decide_eq_true hd)]
        intro l hl
        rcases List.mem_cons.mp hl with rfl | hl
        · exact fun c hc => absurd hc List.not_mem_nil
        · exact hrest l hl
      · rw [if_neg (by simpa using hd)]
        cases hparts : splitAt (· = mark) cs with
        | nil => exact absurd hparts (splitAt_ne_nil _ cs)
        | cons first rest =>
            rw [hparts] at hrest
            intro l hl
            rcases List.mem_cons.mp hl with rfl | hl
            · intro c hc
              rcases List.mem_cons.mp hc with rfl | hc
              · exact ⟨hd, List.mem_cons_self⟩
              · exact hrest first List.mem_cons_self c hc
            · exact hrest l (List.mem_cons_of_mem _ hl)

theorem not_mem_of_splitAt (cs : List Char) : ∀ l ∈ splitAt (· = mark) cs, mark ∉ l :=
  fun l hl hmark => (mem_of_mem_splitAt cs l hl mark hmark).1 rfl

end Perception.Text
