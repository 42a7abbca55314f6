import Perception.Proofs.NdArray.Tensor

set_option autoImplicit false

/-! # Samples and their labels

A dataset in memory has as many labels as samples, and its arrays are well formed
(`ArrayDataset.wellFormed_of_make`). The samples at some indices, if there is one at all, make a
batch, in which each sample stands with its own label (`ArrayDataset.batch_ok`).
-/

namespace Perception

/-- The samples of a batch, each with the label in the same place. -/
def Batch.pairs (b : Batch) : List (NdArray × NdArray) :=
  (List.range b.size).map fun i => (b.data.row i, b.labels.row i)

namespace ArrayDataset

def pair (d : ArrayDataset) (i : Nat) : NdArray × NdArray := (d.data.row i, d.labels.row i)

/-- Both arrays are well formed, and agree in their first extents. -/
structure WellFormed (d : ArrayDataset) : Prop where
  data : d.data.WellFormed
  labels : d.labels.WellFormed
  dataShape : ∃ s, d.data.shape = d.size :: s
  labelShape : ∃ s, d.labels.shape = d.size :: s

theorem firstExtent_ok {a : NdArray} {n : Nat} (h : firstExtent a = .ok n) :
    ∃ s, a.shape = n :: s := by
  unfold firstExtent at h
  split at h
  · cases h
    exact ⟨_, ‹_›⟩
  · cases h

/-- **Datasets are well formed.** -/
theorem wellFormed_of_make {data labels : ArrayLike} (hdata : data.WellFormed)
    (hlabels : labels.WellFormed) {d : ArrayDataset} (h : make data labels = .ok d) :
    d.WellFormed := by
  unfold make at h
  obtain ⟨a, ha, h⟩ := Outcome.exists_of_bind_ok h
  obtain ⟨b, hb, h⟩ := Outcome.exists_of_bind_ok h
  obtain ⟨n, hn, h⟩ := Outcome.exists_of_bind_ok h
  obtain ⟨m, hm, h⟩ := Outcome.exists_of_bind_ok h
  obtain ⟨s, hs⟩ := firstExtent_ok hn
  obtain ⟨s', hs'⟩ := firstExtent_ok hm
  by_cases hne : n ≠ m
  · rw [if_pos hne] at h
    cases h
  · rw [if_neg hne] at h
    cases h
    have hsize : size ⟨a, b⟩ = n := by rw [size, hs, List.headD_cons]
    refine ⟨NdArray.wellFormed_asTensor hdata ha, NdArray.wellFormed_asTensor hlabels hb,
      ⟨s, ?_⟩, ⟨s', ?_⟩⟩
    · rw [hsize]
      exact hs
    · rw [hsize, Decidable.not_not.mp hne]
      exact hs'

/-- A batch of the samples at some indices, each with its label. -/
structure IsBatch (d : ArrayDataset) (indices : List Nat) (b : Batch) : Prop where
  size : b.size = indices.length
  labelCount : b.labels.shape.headD 0 = indices.length
  pairs : b.pairs = indices.map d.pair

theorem stack_rows {a : NdArray} (hwf : a.WellFormed) {n : Nat} {s : List Nat}
    (hshape : a.shape = n :: s) {indices : List Nat} (hne : indices ≠ [])
    (hlt : ∀ i ∈ indices, i < n) :
    ∃ b, NdArray.stack (indices.map a.row) = .ok b ∧ b.shape.headD 0 = indices.length ∧
      ∀ i (hi : i < indices.length), b.row i = a.row indices[i] := by
  have hrows : ∀ r ∈ indices.map a.row, NdArray.IsRow a.type s r := by
    intro r hr
    obtain ⟨i, hi, rfl⟩ := List.mem_map.mp hr
    exact NdArray.isRow_row hwf hshape (hlt i hi)
  obtain ⟨b, hb, hstack⟩ := NdArray.stack_ok (by simpa using hne) hrows
  refine ⟨b, hb, ?_, fun i hi => ?_⟩
  · rw [hstack.shape, List.headD_cons, List.length_map]
  · have hi' : i < (indices.map a.row).length := by rwa [List.length_map]
    rw [hstack.row i hi', List.getElem_map]

/-- **The samples at some indices make a batch**, each with its own label. -/
theorem batch_ok {d : ArrayDataset} (hd : d.WellFormed) {indices : List Nat} (hne : indices ≠ [])
    (hlt : ∀ i ∈ indices, i < d.size) :
    ∃ b, d.batch indices = .ok b ∧ d.IsBatch indices b := by
  obtain ⟨s, hs⟩ := hd.dataShape
  obtain ⟨s', hs'⟩ := hd.labelShape
  obtain ⟨a, ha, hcount, hrow⟩ := stack_rows hd.data hs hne hlt
  obtain ⟨b, hb, hcount', hrow'⟩ := stack_rows hd.labels hs' hne hlt
  refine ⟨⟨a, b⟩, ?_, hcount, hcount', ?_⟩
  · rw [batch, ha, hb]
    rfl
  · have hsize : Batch.size ⟨a, b⟩ = indices.length := hcount
    rw [Batch.pairs, hsize]
    refine List.ext_getElem (by simp) fun i hi hi' => ?_
    rw [List.length_map] at hi'
    rw [List.getElem_map, List.getElem_map, List.getElem_range, hrow i hi', hrow' i hi', pair]

end ArrayDataset

end Perception
