import Perception.Proofs.Classification.Ranking
import Perception.Proofs.Json.Spread

set_option autoImplicit false

/-! # Classifications as documents

The text form of a classification reads as the list of its items in the order of their ranks, each
with its label and its probability (`Classification.parse?_toJson`). It holds for labels of any
characters, and for probabilities whose texts read back.
-/

namespace Perception

def Scored.entry (s : Scored) : Datum :=
  Datum.object [("class_name", s.label), ("probability", .float s.probability)]

/-- An item that can be read from what is written: its label is a text, and the text of its
probability reads back. -/
structure Scored.Readable (s : Scored) : Prop where
  label : ∃ name, s.label = .text name
  probability : Number.readFloat? (Number.chars s.probability) = some s.probability

theorem Scored.Readable.plain {s : Scored} (h : s.Readable) : Json.Plain s.entry := by
  obtain ⟨⟨name, hlabel⟩, hprobability⟩ := h
  rw [Scored.entry, hlabel]
  exact ⟨⟨⟨_, rfl⟩, trivial, ⟨_, rfl⟩, hprobability, trivial⟩, rfl⟩

theorem Scored.Readable.depthOf_le {s : Scored} (h : s.Readable) : Json.depthOf s.entry ≤ 1 := by
  obtain ⟨name, hlabel⟩ := h.label
  rw [Scored.entry, hlabel]
  exact Nat.le_refl _

theorem plain_entries {items : List Scored} (h : ∀ s ∈ items, s.Readable) :
    Json.Plain (.list (items.map Scored.entry)) := by
  rw [Json.Plain]
  induction items with
  | nil => trivial
  | cons s items ih =>
      exact ⟨(h s List.mem_cons_self).plain, ih fun t ht => h t (List.mem_cons_of_mem _ ht)⟩

theorem depthOf_entries_le {items : List Scored} (h : ∀ s ∈ items, s.Readable) :
    Json.depthOf (.list (items.map Scored.entry)) ≤ 2 := by
  rw [Json.depthOf]
  have hitems : Json.itemsDepth (items.map Scored.entry) ≤ 1 := by
    induction items with
    | nil => simp [Json.itemsDepth]
    | cons s items ih =>
        have hs := (h s List.mem_cons_self).depthOf_le
        have hmore := ih fun t ht => h t (List.mem_cons_of_mem _ ht)
        rw [List.map_cons, Json.itemsDepth]
        omega
  omega

namespace Classification

variable {c : Classification}

theorem toList_toJson (c : Classification) :
    c.toJson.toList = Json.spreadChars 0 (.list (c.ranked.map Scored.entry)) ++ ['\n'] := by
  rw [toJson, Json.spread, String.toList_append, String.toList_ofList]
  rfl

/-- The text starts with a bracket. -/
theorem toJson_head (c : Classification) : c.toJson.toList.head? = some '[' := by
  rw [toList_toJson]
  cases c.ranked <;> rfl

/-- **The text form** reads as the items in the order of their ranks. -/
theorem parse?_toJson (h : ∀ s ∈ c.ranked, s.Readable) :
    Json.parse? c.toJson.toList = .ok (.list (c.ranked.map Scored.entry)) := by
  have hdepth : Json.depthOf (.list (c.ranked.map Scored.entry)) ≤ Json.maxDepth :=
    Nat.le_trans (depthOf_entries_le h) (by decide)
  have hread := Json.read?_spreadChars 0 (plain_entries h) hdepth
    (show ∀ c ∈ ['\n'], Json.isSpace c = true from List.forall_mem_singleton.mpr rfl)
  have hmark : ¬c.toJson.toList.head? = some (Char.ofNat 0xFEFF) := by
    rw [toJson_head]
    decide
  rw [Json.parse?, if_neg hmark, toList_toJson, hread]

end Classification

end Perception
