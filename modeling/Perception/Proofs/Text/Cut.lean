import Perception.Text.Blank

set_option autoImplicit false

/-! # Texts cut in two

A cut is made behind a mark at the head (`Text.after?_eq_some`), or at a character of some kind, the
first one (`Text.cutAt?_eq_some`) or the last one (`Text.cutAtLast?_eq_some`).
-/

namespace Perception.Text

variable {q : Char → Bool} {before after : List Char} {c : Char} {cs : List Char}

theorem after?_eq_some {mark rest : List Char} :
    after? mark cs = some rest ↔ cs = mark ++ rest := by
  induction mark generalizing cs with
  | nil => simp [after?]
  | cons m mark ih =>
      cases cs with
      | nil => simp [after?]
      | cons c cs =>
          rw [after?]
          split
          · next h => rw [ih, h, List.cons_append, List.cons.injEq, eq_self, true_and]
          · next h =>
              refine ⟨nofun, fun heq => ?_⟩
              cases heq
              exact absurd rfl h

theorem cutAt?_append (hbefore : ∀ b ∈ before, q b = false) (hc : q c = true) :
    cutAt? q (before ++ c :: after) = some (before, after) := by
  induction before with
  | nil => rw [List.nil_append, cutAt?, if_pos hc]
  | cons b before ih =>
      have hb : q b = false := hbefore b List.mem_cons_self
      have hrest := ih fun x hx => hbefore x (List.mem_cons_of_mem _ hx)
      rw [List.cons_append, cutAt?, hb, hrest]
      rfl

theorem cutAt?_eq_some (h : cutAt? q cs = some (before, after)) :
    ∃ c, q c = true ∧ cs = before ++ c :: after := by
  induction cs generalizing before with
  | nil => cases h
  | cons x cs ih =>
      rw [cutAt?] at h
      by_cases hx : q x = true
      · rw [if_pos hx] at h
        cases h
        exact ⟨x, hx, rfl⟩
      · rw [if_neg hx, Option.map_eq_some_iff] at h
        obtain ⟨⟨a, b⟩, hcut, heq⟩ := h
        cases heq
        obtain ⟨c, hc, rfl⟩ := ih hcut
        exact ⟨c, hc, rfl⟩

theorem cutAtLast?_append (hc : q c = true) (hafter : ∀ a ∈ after, q a = false) :
    cutAtLast? q (before ++ c :: after) = some (before, after) := by
  have hreverse : (before ++ c :: after).reverse = after.reverse ++ c :: before.reverse := by
    simp
  have hafter' : ∀ a ∈ after.reverse, q a = false :=
    fun a ha => hafter a (List.mem_reverse.mp ha)
  rw [cutAtLast?, hreverse, cutAt?_append hafter' hc]
  simp

theorem cutAtLast?_eq_some (h : cutAtLast? q cs = some (before, after)) :
    ∃ c, q c = true ∧ cs = before ++ c :: after := by
  rw [cutAtLast?, Option.map_eq_some_iff] at h
  obtain ⟨⟨a, b⟩, hcut, heq⟩ := h
  cases heq
  obtain ⟨c, hc, hcs⟩ := cutAt?_eq_some hcut
  refine ⟨c, hc, ?_⟩
  have hreverse := congrArg List.reverse hcs
  simpa using hreverse

end Perception.Text
