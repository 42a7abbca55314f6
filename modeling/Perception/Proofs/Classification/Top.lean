import Perception.Proofs.Classification.Document

set_option autoImplicit false

/-! # The most probable items

Asked for as many items as there are, a classification gives all of them in the order of their ranks;
asked for fewer, it gives the front of that ranking, and its best item is the first one that nothing
exceeds. A ranking that is ranked again stays as it is, so the front of a ranking can be kept in its
place. All this is in `Classification.make_ranks`, with the text form, which lists the ranking.
-/

namespace Perception

open Ranking (precedes)

variable {items : List Scored}

/-- An item that is as probable as any, and comes before the others that are. -/
def IsFirstMost (items : List Scored) (s : Scored) : Prop :=
  ∃ front back, items = front ++ s :: back ∧ (∀ t ∈ front, t.probability < s.probability) ∧
    ∀ t ∈ back, t.probability ≤ s.probability

/-! ## Rankings -/

theorem ranking_perm (h : ∀ s ∈ items, s.probability.isNaN = false) :
    (ranking items).Perm items := by
  rw [ranking_eq_mergeSort h]
  exact List.mergeSort_perm items precedes

theorem pairwise_ranking (h : ∀ s ∈ items, s.probability.isNaN = false) :
    (ranking items).Pairwise fun s t => precedes s t = true := by
  rw [ranking_eq_mergeSort h]
  exact List.pairwise_mergeSort Ranking.precedes_trans Ranking.precedes_total items

/-- What is in the order of its ranks stays so. -/
theorem ranking_of_pairwise (h : ∀ s ∈ items, s.probability.isNaN = false)
    (hsorted : items.Pairwise fun s t => precedes s t = true) : ranking items = items := by
  rw [ranking_eq_mergeSort h]
  exact List.mergeSort_of_pairwise hsorted

theorem le_of_precedes {s t : Scored} (hs : s.probability.isNaN = false)
    (ht : t.probability.isNaN = false) (h : precedes s t = true) : t.probability ≤ s.probability :=
  (Number.le_iff_orderKey (Ranking.orderKey?_of_number ht) (Ranking.orderKey?_of_number hs)).mpr
    (of_decide_eq_true h)

/-- An item that comes before another one in the order of ranks is no less probable. -/
theorem Ranking.Before.le {s t : Scored} {i j : Nat} (hs : s.probability.isNaN = false)
    (ht : t.probability.isNaN = false) (h : Before (s, i) (t, j)) :
    t.probability ≤ s.probability := by
  have hkeys := orderKey?_of_number hs
  have hkeyt := orderKey?_of_number ht
  rw [Number.le_iff_orderKey hkeyt hkeys]
  rcases h with hlt | ⟨heq, -⟩
  · exact Int.le_of_lt ((Number.lt_iff_orderKey hkeyt hkeys).mp hlt)
  · exact Int.le_of_eq ((Number.beq_iff_orderKey hkeys hkeyt).mp heq).symm

/-- **The first item of a ranking** is the first one that nothing exceeds. -/
theorem IsRanking.head {s : Scored} {rest : List Scored} (hitems : IsRanking items (s :: rest))
    (h : ∀ s ∈ items, s.probability.isNaN = false) : IsFirstMost items s := by
  obtain ⟨placed, hperm, hfst, hbefore⟩ := hitems
  obtain ⟨⟨s', i⟩, others, rfl, rfl, -⟩ := List.map_eq_cons_iff.mp hfst
  have hplaced (t : Scored) (j : Nat) : (t, j) ∈ (s', i) :: others ↔ items[j]? = some t := by
    rw [hperm.mem_iff, List.mk_mem_zipIdx_iff_getElem?]
  have hi : items[i]? = some s' := (hplaced s' i).mp List.mem_cons_self
  have hnumber {t : Scored} {j : Nat} (hj : items[j]? = some t) : t.probability.isNaN = false :=
    h t (List.mem_of_getElem? hj)
  -- every other item comes behind the first one
  have hother {t : Scored} {j : Nat} (hj : items[j]? = some t) (hne : j ≠ i) :
      Ranking.Before (s', i) (t, j) := by
    rcases List.mem_cons.mp ((hplaced t j).mpr hj) with heq | hmem
    · exact absurd (congrArg Prod.snd heq) hne
    · exact List.rel_of_pairwise_cons hbefore hmem
  obtain ⟨hlt, hget⟩ := List.getElem?_eq_some_iff.mp hi
  refine ⟨items.take i, items.drop (i + 1), ?_, fun t ht => ?_, fun t ht => ?_⟩
  · rw [← hget, ← List.drop_eq_getElem_cons hlt, List.take_append_drop]
  · obtain ⟨j, hj⟩ := List.mem_iff_getElem?.mp ht
    obtain ⟨hji, hj⟩ : j < i ∧ items[j]? = some t := by
      simpa [List.getElem?_take] using hj
    rcases hother hj (Nat.ne_of_lt hji) with hbelow | ⟨-, hplace⟩
    · exact hbelow
    · exact absurd hplace (Nat.lt_asymm hji)
  · obtain ⟨k, hk⟩ := List.mem_iff_getElem?.mp ht
    rw [List.getElem?_drop] at hk
    have hbehind : Ranking.Before (s', i) (t, i + 1 + k) := hother hk (by omega)
    exact hbehind.le (hnumber hi) (hnumber hk)

namespace Classification

variable {c : Classification} {names : List String} {probabilities : List Float}

/-! ## The front of a ranking -/

theorem top_natCast (c : Classification) (k : Nat) : c.top k = c.ranked.take k := by
  rw [top, Datum.upTo, if_pos (Int.natCast_nonneg k), Int.toNat_natCast]

theorem top_length (h : ∀ s ∈ c.items, s.probability.isNaN = false) :
    c.top c.items.length = c.ranked := by
  rw [top_natCast, ← (ranking_perm h).length_eq]
  exact List.take_length

theorem numbers_ranked (h : ∀ s ∈ c.items, s.probability.isNaN = false) :
    ∀ s ∈ c.ranked, s.probability.isNaN = false :=
  fun s hs => h s ((ranking_perm h).mem_iff.mp hs)

/-- **The best item** is the first one that nothing exceeds. -/
theorem exists_best (h : ∀ s ∈ c.items, s.probability.isNaN = false) (hne : c.items ≠ []) :
    ∃ s, c.best = .ok s ∧ IsFirstMost c.items s := by
  obtain ⟨s, rest, hcons⟩ : ∃ s rest, c.ranked = s :: rest := by
    refine List.exists_cons_of_ne_nil fun hnil => hne ?_
    have hperm : ([] : List Scored).Perm c.items := hnil ▸ ranking_perm h
    exact hperm.nil_eq.symm
  have hranking : IsRanking c.items (s :: rest) := by
    rw [← hcons]
    exact isRanking_ranking h
  refine ⟨s, ?_, hranking.head h⟩
  have htop : c.top 1 = [s] := by
    rw [← Int.natCast_one, top_natCast, hcons]
    rfl
  rw [best, htop]

/-- Labels and probabilities of items make the classification of these items. -/
theorem make_items (items : List Scored) :
    make (items.map Scored.label) (items.map Scored.probability) = .ok ⟨items⟩ := by
  have hzip : List.zipWith Scored.mk (items.map Scored.label) (items.map Scored.probability)
      = items := by
    rw [List.zipWith_map, List.zipWith_self]
    exact List.map_id items
  rw [make, if_pos (by rw [List.length_map, List.length_map]), hzip]

/-- **A front of a ranking** that is ranked again stays as it is. -/
theorem top_top (h : ∀ s ∈ c.items, s.probability.isNaN = false) (j k : Nat) :
    (⟨c.top k⟩ : Classification).top j = c.top (min j k : Nat) := by
  have hfront : ranking (c.top k) = c.top k := by
    rw [top_natCast]
    exact ranking_of_pairwise (fun s hs => numbers_ranked h s (List.mem_of_mem_take hs))
      ((pairwise_ranking h).sublist (List.take_sublist k c.ranked))
  rw [top_natCast, ranked, hfront, top_natCast, top_natCast, List.take_take]

/-- The items of a classification, ranked. -/
structure Ranked (c : Classification) : Prop where
  /-- Asked for as many items as there are, it gives all of them, -/
  perm : (c.top c.items.length).Perm c.items
  /-- the most probable ones first, -/
  falls : (c.top c.items.length).Pairwise fun s t => t.probability ≤ s.probability
  /-- and those that are equally probable in the order in which they were given. -/
  keeps : IsRanking c.items (c.top c.items.length)
  /-- Asked for fewer, it gives the front of that. -/
  front : ∀ k : Nat, c.top k = (c.top c.items.length).take k ∧
    (c.top k).length = min k c.items.length
  /-- The best item is the first one that nothing exceeds. -/
  best : c.items ≠ [] → ∃ s, c.best = .ok s ∧ IsFirstMost c.items s
  /-- A front of the ranking that is ranked again stays as it is. -/
  again : ∀ k : Nat, ∃ c' : Classification,
    make ((c.top k).map Scored.label) ((c.top k).map Scored.probability) = .ok c' ∧
      ∀ j : Nat, c'.top j = c.top (min j k : Nat)

theorem ranked_of_numbers (h : ∀ s ∈ c.items, s.probability.isNaN = false) : c.Ranked where
  perm := by
    rw [top_length h]
    exact ranking_perm h
  falls := by
    have hnumbers := numbers_ranked h
    rw [top_length h]
    exact (pairwise_ranking h).imp_of_mem fun hs ht hst =>
      le_of_precedes (hnumbers _ hs) (hnumbers _ ht) hst
  keeps := by
    rw [top_length h]
    exact isRanking_ranking h
  front k := by
    rw [top_length h, top_natCast, List.length_take, ranked, (ranking_perm h).length_eq]
    exact ⟨rfl, rfl⟩
  best := exists_best h
  again k := ⟨⟨c.top k⟩, make_items _, fun j => top_top h j k⟩

/-! ## Labels and probabilities -/

def ReadsBack (p : Float) : Prop := Number.readFloat? (Number.chars p) = some p

/-- **Labels and probabilities**, equally many and all of them numbers, make a classification that
ranks its items, and whose text form reads as the ranking. -/
theorem make_ranks (hlength : names.length = probabilities.length)
    (hnumbers : ∀ p ∈ probabilities, p.isNaN = false) :
    ∃ c, make (names.map .text) probabilities = .ok c ∧
      c.items = List.zipWith (fun name p => ⟨.text name, p⟩) names probabilities ∧ c.Ranked ∧
      ((∀ p ∈ probabilities, ReadsBack p) →
        Json.parse? c.toJson.toList = .ok (.list ((c.top names.length).map Scored.entry))) := by
  let items : List Scored := List.zipWith (fun name p => ⟨.text name, p⟩) names probabilities
  have hmake : make (names.map .text) probabilities = .ok ⟨items⟩ := by
    rw [make, if_pos (by rw [List.length_map, hlength]), List.zipWith_map_left]
  have hitems : ∀ s ∈ items, (∃ name, s.label = .text name) ∧ s.probability ∈ probabilities := by
    intro s hs
    obtain ⟨i, hi, rfl⟩ := List.mem_iff_getElem.mp hs
    rw [List.getElem_zipWith]
    exact ⟨⟨_, rfl⟩, List.getElem_mem _⟩
  have hitemNumbers : ∀ s ∈ items, s.probability.isNaN = false :=
    fun s hs => hnumbers _ (hitems s hs).2
  refine ⟨⟨items⟩, hmake, rfl, ranked_of_numbers hitemNumbers, fun hreads => ?_⟩
  have hlen : names.length = items.length := by rw [List.length_zipWith, hlength, Nat.min_self]
  rw [hlen, top_length hitemNumbers]
  refine parse?_toJson fun s hs => ?_
  obtain ⟨hlabel, hmem⟩ := hitems s ((ranking_perm hitemNumbers).mem_iff.mp hs)
  exact ⟨hlabel, hreads _ hmem⟩

/-- Names with characters that are escaped, and two probabilities that are equal. -/
def animalNames : List String := ["zèbre", "\"cat\"", "狐"]

def animalProbabilities : List Float := [0.25, 0.5, 0.25]

theorem make_ranks_animals :
    animalNames.length = animalProbabilities.length ∧
      (∀ p ∈ animalProbabilities, p.isNaN = false) ∧
      (∀ p ∈ animalProbabilities, ReadsBack p) ∧
      ∃ c, make (animalNames.map .text) animalProbabilities = .ok c ∧ c.Ranked ∧
        Json.parse? c.toJson.toList = .ok (.list ((c.top 3).map Scored.entry)) := by
  have hnumbers : ∀ p ∈ animalProbabilities, p.isNaN = false := by decide +kernel
  have hreads : ∀ p ∈ animalProbabilities, ReadsBack p := by
    intro p hp
    simp only [animalProbabilities, List.mem_cons, List.not_mem_nil, or_false] at hp
    rcases hp with rfl | rfl | rfl <;> rfl
  have hlength : animalNames.length = animalProbabilities.length := rfl
  obtain ⟨c, hmake, -, hranked, hparse⟩ := make_ranks hlength hnumbers
  exact ⟨hlength, hnumbers, hreads, c, hmake, hranked, hparse hreads⟩

end Classification

end Perception
