import Mathlib.Data.Int.ModEq
import Perception.Random.Streams

set_option autoImplicit false

/-! # Seeds of workers

The seeds of workers go round in strides that have no divisor in common with the number of seeds
there are. So two workers have one seed only if their numbers are apart by a multiple of that number
(`Streams.workerSeed_eq_iff`), and different seeds lead to different generators
(`Generator.ofLowWord_inj`): `Streams.workers_apart`.
-/

namespace Perception.Random

namespace Generator

/-! ## Generators of different seeds -/

/-- Words that are pushed behind others leave the first one in its place. -/
theorem first_foldl_push {seed : UInt32} (f : Array UInt32 × UInt32 → Nat → UInt32)
    (places : List Nat) {state : Array UInt32 × UInt32} (h : state.1[0]? = some seed) :
    (places.foldl (fun s i => (s.1.push (f s i), f s i)) state).1[0]? = some seed := by
  induction places generalizing state with
  | nil => exact h
  | cons i places ih =>
      refine ih ?_
      have hpos : 0 < state.1.size := (Array.getElem?_eq_some_iff.mp h).1
      rw [Array.getElem?_push_lt hpos, ← Array.getElem?_eq_getElem hpos, h]

/-- The first state word is the seed. -/
theorem getElem?_spread (seed : UInt32) : (spread seed)[0]? = some seed :=
  first_foldl_push _ _ rfl

theorem ofSeed_inj {seed seed' : UInt32} (h : ofSeed seed = ofSeed seed') : seed = seed' := by
  rw [ofSeed, ofSeed, Generator.mk.injEq] at h
  have hfirst := getElem?_spread seed
  rw [h.1, getElem?_spread] at hfirst
  exact (Option.some.inj hfirst).symm

/-- **Different seeds for arrays** give different generators. -/
theorem ofLowWord_inj {i j : Int} (hi : 0 ≤ i ∧ i < 0x100000000) (hj : 0 ≤ j ∧ j < 0x100000000)
    (h : ofLowWord i = ofLowWord j) : i = j := by
  have hword := congrArg UInt32.toNat (ofSeed_inj h)
  rw [UInt32.toNat_ofNat', UInt32.toNat_ofNat'] at hword
  omega

end Generator

namespace Streams

/-! ## Seeds -/

/-- **A seed of a worker** is below the greatest number of 32 bits. -/
theorem workerSeed_bounds (base worker : Int) :
    0 ≤ workerSeed base worker ∧ workerSeed base worker ≤ 2 ^ 32 - 2 := by
  unfold workerSeed
  omega

/-- **Workers share a seed** only if a multiple of the number of seeds lies between them. -/
theorem workerSeed_eq_iff {base w v : Int} :
    workerSeed base w = workerSeed base v ↔ w ≡ v [ZMOD 0xFFFFFFFF] := by
  have hcoprime : Int.gcd 0xFFFFFFFF 9973 = 1 := by decide
  show base + w * 9973 ≡ base + v * 9973 [ZMOD 0xFFFFFFFF] ↔ _
  constructor
  · intro h
    have hstride : w * 9973 ≡ v * 9973 [ZMOD 0xFFFFFFFF] := h.add_left_cancel' base
    -- the modulus is kept, since it has no divisor in common with the stride
    have hcancel := hstride.cancel_right_div_gcd (by decide)
    rw [hcoprime] at hcancel
    exact hcancel
  · intro h
    exact (h.mul_right 9973).add_left base

/-- Seeding a worker sets its generators as seeding with that seed does, which never fails. -/
theorem seed_workerSeed (base worker : Int) (s : Streams) :
    s.seed (workerSeed base worker)
      = ({ s.seedWorker base worker with tensors := .ofLowWord (workerSeed base worker) }, .ok ()) := by
  obtain ⟨hlow, hhigh⟩ := workerSeed_bounds base worker
  have htensor : isTensorSeed (workerSeed base worker) = true := by
    simp only [isTensorSeed, Bool.and_eq_true, decide_eq_true_eq]
    omega
  rw [seed, isArraySeed_workerSeed, htensor]
  rfl

/-- **Workers get seeds of their own.** Whatever the base, two workers whose numbers are in the range
of the seeds have different seeds, and so do their generators for arrays differ, from whatever they
were before. Each seed is in range and taken as a seed for arrays, which it sets as seeding with it
does. -/
theorem workers_apart (base : Int) :
    (∀ w v : Int, 0 ≤ w → w ≤ 2 ^ 32 - 2 → 0 ≤ v → v ≤ 2 ^ 32 - 2 → w ≠ v →
      workerSeed base w ≠ workerSeed base v ∧
        ∀ s t : Streams, (s.seedWorker base w).arrays ≠ (t.seedWorker base v).arrays) ∧
    ∀ w : Int, 0 ≤ workerSeed base w ∧ workerSeed base w ≤ 2 ^ 32 - 2 ∧
      isArraySeed (workerSeed base w) = true ∧
      ∀ s : Streams, s.seed (workerSeed base w)
        = ({ s.seedWorker base w with tensors := .ofLowWord (workerSeed base w) }, .ok ()) := by
  refine ⟨fun w v hw hw' hv hv' hne => ?_, fun w => ?_⟩
  · have hseed : workerSeed base w ≠ workerSeed base v := by
      intro heq
      -- numbers in the range of the seeds are their own remainders
      have hmod : w % 0xFFFFFFFF = v % 0xFFFFFFFF := workerSeed_eq_iff.mp heq
      omega
    refine ⟨hseed, fun s t heq => hseed ?_⟩
    obtain ⟨hlow, hhigh⟩ := workerSeed_bounds base w
    obtain ⟨hlow', hhigh'⟩ := workerSeed_bounds base v
    exact Generator.ofLowWord_inj ⟨hlow, by omega⟩ ⟨hlow', by omega⟩ heq
  · obtain ⟨hlow, hhigh⟩ := workerSeed_bounds base w
    exact ⟨hlow, hhigh, isArraySeed_workerSeed base w, seed_workerSeed base w⟩

/-- Two workers at the ends of the range, and a base below zero. -/
theorem workers_apart_ends :
    (0 : Int) ≤ 2 ^ 32 - 2 ∧ (0 : Int) ≠ 2 ^ 32 - 2 ∧
      workerSeed (-5) 0 ≠ workerSeed (-5) (2 ^ 32 - 2) ∧
      ∀ s t : Streams,
        (s.seedWorker (-5) 0).arrays ≠ (t.seedWorker (-5) (2 ^ 32 - 2)).arrays := by
  have hlow : (0 : Int) ≤ 2 ^ 32 - 2 := by decide
  have hne : (0 : Int) ≠ 2 ^ 32 - 2 := by decide
  exact ⟨hlow, hne, (workers_apart (-5)).1 0 (2 ^ 32 - 2) le_rfl hlow hlow le_rfl hne⟩

end Streams

end Perception.Random
