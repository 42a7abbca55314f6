import Mathlib.Data.List.TakeWhile
import Perception.Text.Blank

set_option autoImplicit false

/-! # Texts trimmed at both ends

Trimming takes characters of one kind off both ends of a text (`Text.exists_of_trimWhile`), and all
of them: what starts and ends with other characters is left alone (`Text.trimWhile_append`).
-/

namespace Perception.Text

variable {p : Char → Bool} {left body right : List Char}

theorem dropEndWhile_append (hright : ∀ c ∈ right, p c = true)
    (hlast : ∀ c ∈ body.getLast?, p c = false) : dropEndWhile p (body ++ right) = body := by
  have hreverse : ∀ c ∈ right.reverse, p c = true := fun c hc => hright c (List.mem_reverse.mp hc)
  rw [dropEndWhile, List.reverse_append, List.dropWhile_append_of_pos hreverse]
  have hkeep : body.reverse.dropWhile p = body.reverse := by
    cases hbody : body.reverse with
    | nil => rfl
    | cons c cs =>
        have hc : p c = false := by
          refine hlast c ?_
          rw [List.getLast?_eq_head?_reverse, hbody]
          rfl
        rw [List.dropWhile_cons_of_neg (by rw [hc]; exact Bool.false_ne_true)]
  rw [hkeep, List.reverse_reverse]

/-- **Trimming** takes off what stands around a text that starts and ends otherwise. -/
theorem trimWhile_append (hleft : ∀ c ∈ left, p c = true) (hright : ∀ c ∈ right, p c = true)
    (hhead : ∀ c ∈ body.head?, p c = false) (hlast : ∀ c ∈ body.getLast?, p c = false) :
    trimWhile p (left ++ body ++ right) = body := by
  rw [trimWhile, List.append_assoc, List.dropWhile_append_of_pos hleft]
  cases body with
  | nil =>
      have hnil : ([] ++ right).dropWhile p = [] := by
        rw [List.nil_append, List.dropWhile_eq_nil_iff]
        exact hright
      rw [hnil]
      rfl
  | cons c cs =>
      have hc : p c = false := hhead c rfl
      rw [List.cons_append, List.dropWhile_cons_of_neg (by rw [hc]; exact Bool.false_ne_true),
        ← List.cons_append]
      exact dropEndWhile_append hright hlast

/-- What trimming takes off both ends is of the kind that it takes off. -/
theorem exists_of_trimWhile (p : Char → Bool) (cs : List Char) :
    ∃ left right, cs = left ++ trimWhile p cs ++ right ∧ (∀ c ∈ left, p c = true) ∧
      ∀ c ∈ right, p c = true := by
  let rest := cs.dropWhile p
  refine ⟨cs.takeWhile p, (rest.reverse.takeWhile p).reverse, ?_, ?_, ?_⟩
  · have hrest : rest = trimWhile p cs ++ (rest.reverse.takeWhile p).reverse := by
      show rest = (rest.reverse.dropWhile p).reverse ++ (rest.reverse.takeWhile p).reverse
      rw [← List.reverse_append, List.takeWhile_append_dropWhile, List.reverse_reverse]
    rw [List.append_assoc, ← hrest]
    exact List.takeWhile_append_dropWhile.symm
  · exact fun c hc => List.mem_takeWhile_imp hc
  · exact fun c hc => List.mem_takeWhile_imp (List.mem_reverse.mp hc)

end Perception.Text
