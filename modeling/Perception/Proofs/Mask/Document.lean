import Perception.Proofs.Json.Reading
import Perception.Proofs.Mask.Validity

set_option autoImplicit false

/-! # Masks in documents

A text gives the mask whose grid it denotes. It must be a document, the document a record, and the
last value under `mask` a grid of indices (`Json.HasLast`); blanks, the order of the members and
the other members have no part in it, and every other text is refused as a bad value. Main result:
`Mask.ofJson_denotes`.
-/

namespace Perception.Mask

variable {classes : List String} {text : String}

theorem isSound_nested (v : Datum) : (ArrayLike.nested v).IsSound := trivial

/-- The one value of the last member called `mask` is what a text that is not nested too deeply is
read for. -/
theorem ofJson_of_hasLast {v : Datum} (hn : Json.nesting text.toList ≤ Json.maxDepth)
    (hv : Json.HasLast "mask" v text.toList) :
    ofJson classes text = ofArray classes (.nested v) := by
  obtain ⟨d, hd, hfind⟩ := Json.Document.find?_of_hasLast hv
  rw [ofJson, (Json.parse?_eq_ok_iff hn).mpr hd]
  simp only [ofDocument, hfind]

/-- Without such a member the text is a bad value. -/
theorem ofJson_of_no_member (classes : List String) (hn : Json.nesting text.toList ≤ Json.maxDepth)
    (hno : ∀ v, ¬Json.HasLast "mask" v text.toList) :
    ∃ e, ofJson classes text = .error e ∧ e.kind.isValue = true := by
  rw [ofJson]
  cases hparse : Json.parse? text.toList with
  | error fault =>
      refine ⟨_, rfl, ?_⟩
      cases fault with
      | malformed cause line column offset => rfl
      | tooManyDigits => rfl
      | tooDeep => exact absurd hparse (Json.parse?_ne_tooDeep hn)
  | ok d =>
      have hdoc := (Json.parse?_eq_ok_iff hn).mp hparse
      cases hfind : d.find? "mask" with
      | none =>
          refine ⟨.noMask, ?_, rfl⟩
          simp only [ofDocument, hfind]
      | some v => exact absurd (hdoc.hasLast_of_find? hfind) (hno v)

theorem exists_hasLast_of_ofJson (hn : Json.nesting text.toList ≤ Json.maxDepth) {m : Mask}
    (h : ofJson classes text = .ok m) :
    ∃ v, Json.HasLast "mask" v text.toList ∧ ofArray classes (.nested v) = .ok m := by
  by_cases hv : ∃ v, Json.HasLast "mask" v text.toList
  · obtain ⟨v, hv⟩ := hv
    exact ⟨v, hv, (ofJson_of_hasLast hn hv).symm.trans h⟩
  · obtain ⟨e, he, -⟩ := ofJson_of_no_member classes hn fun v h => hv ⟨v, h⟩
    rw [h] at he
    cases he

/-- **A text gives the mask that it denotes.** Of a text that is not nested too deeply comes a mask
exactly if the text is a document of a record and a mask is made of the last value under `mask`, and
then this is the mask. With at most as many names as 32 bits with a sign can count, such a value is
a grid of indices, and the mask has its numbers in their places; of every other text comes a failure
about a value. -/
theorem ofJson_denotes (classes : List String) (text : String)
    (hn : Json.nesting text.toList ≤ Json.maxDepth) :
    (∀ m, ofJson classes text = .ok m ↔
      ∃ v, Json.HasLast "mask" v text.toList ∧ ofArray classes (.nested v) = .ok m) ∧
    (classes.length ≤ indexBound →
      ((∃ m, ofJson classes text = .ok m) ↔ ∃ v g, Json.HasLast "mask" v text.toList ∧
        (ArrayLike.nested v).IsGrid g ∧ ∀ i ∈ g.cells, IsIndex classes.length i) ∧
      (∀ m v, ofJson classes text = .ok m → Json.HasLast "mask" v text.toList →
        m.classes = classes ∧ (ArrayLike.nested v).IsGrid (m.cells.map Int.ofNat)) ∧
      ∀ e, ofJson classes text = .error e → e.kind.isValue = true) := by
  refine ⟨fun m => ⟨exists_hasLast_of_ofJson hn, ?_⟩, fun hclasses => ⟨⟨?_, ?_⟩, ?_, ?_⟩⟩
  · rintro ⟨v, hv, hm⟩
    exact (ofJson_of_hasLast hn hv).trans hm
  · rintro ⟨m, hm⟩
    obtain ⟨v, hv, hm⟩ := exists_hasLast_of_ofJson hn hm
    obtain ⟨-, hg, hin⟩ := isGrid_of_ofArray hclasses (isSound_nested v) hm
    exact ⟨v, _, hv, hg, hin⟩
  · rintro ⟨v, g, hv, hg, hin⟩
    obtain ⟨m, hm, -⟩ := ofArray_of_inside hclasses hg hin
    exact ⟨m, (ofJson_of_hasLast hn hv).trans hm⟩
  · intro m v hm hv
    rw [ofJson_of_hasLast hn hv] at hm
    obtain ⟨hnames, hg, -⟩ := isGrid_of_ofArray hclasses (isSound_nested v) hm
    exact ⟨hnames, hg⟩
  · intro e he
    -- either the value is no grid of indices, or the text has no such value
    by_cases hv : ∃ v, Json.HasLast "mask" v text.toList
    · obtain ⟨v, hv⟩ := hv
      rw [ofJson_of_hasLast hn hv] at he
      rw [kind_of_ofArray hclasses (isSound_nested v) he]
      rfl
    · obtain ⟨e', he', hkind⟩ := ofJson_of_no_member classes hn
        fun v h => hv ⟨v, h⟩
      rw [he'] at he
      cases he
      exact hkind

/-- A record with two values under `mask`, of which the second is a grid. -/
def twoMasks : String := "\x7b\"mask\": 0, \"by\": [\x7b\x7d],\n\"mask\" :[[1,0]] \x7d"

theorem toList_twoMasks : twoMasks.toList = ['{', '"', 'm', 'a', 's', 'k', '"', ':', ' ', '0', ',', ' ',
    '"', 'b', 'y', '"', ':', ' ', '[', '{', '}', ']', ',', '\n', '"', 'm', 'a', 's', 'k', '"', ' ',
    ':', '[', '[', '1', ',', '0', ']', ']', ' ', '}'] := by decide

theorem hasLast_twoMasks :
    Json.HasLast "mask" (.list [.list [.int 1, .int 0]]) twoMasks.toList := by
  have hread : Json.read? twoMasks.toList = .ok (.record
      [(.text "mask", .list [.list [.int 1, .int 0]]), (.text "by", .list [.record []])]) := by
    rw [toList_twoMasks]
    rfl
  exact (Json.document_of_read? hread).hasLast_of_find? rfl

theorem ofJson_denotes_twoMasks :
    Json.nesting twoMasks.toList ≤ Json.maxDepth ∧ ["sky", "tree"].length ≤ indexBound ∧
      ∃ m, ofJson ["sky", "tree"] twoMasks = .ok m ∧
        (ArrayLike.nested (.list [.list [.int 1, .int 0]])).IsGrid (m.cells.map Int.ofNat) := by
  have hn : Json.nesting twoMasks.toList ≤ Json.maxDepth := by
    rw [toList_twoMasks]
    decide
  have hclasses : ["sky", "tree"].length ≤ indexBound := by decide
  obtain ⟨hreturns, hkeeps, -⟩ := (ofJson_denotes ["sky", "tree"] twoMasks hn).2 hclasses
  have hgrid : (ArrayLike.nested (.list [.list [.int 1, .int 0]])).IsGrid ⟨2, 1, #[1, 0], rfl⟩ :=
    @ArrayLike.IsGrid.nested [[.int 1, .int 0]] _ ⟨by decide, by decide⟩ rfl
      ⟨_, List.mem_cons_self, 1, List.mem_cons_self⟩
  obtain ⟨m, hm⟩ := hreturns.mpr ⟨_, _, hasLast_twoMasks, hgrid, by unfold IsIndex; decide⟩
  exact ⟨hn, hclasses, m, hm, (hkeeps m _ hm hasLast_twoMasks).2⟩

end Perception.Mask
