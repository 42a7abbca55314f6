import Perception.Random.Streams

set_option autoImplicit false

/-! # Draws one after another

A generator is a stream of draws. `Generator.after k` is the generator after `k` of them, and
`Generator.byteAt k` the byte that draw number `k` gives. What is drawn later in the stream is what
is drawn from the generator as it is then (`Generator.byteAt_add`), and several words are the next
draws in their order (`Generator.take_eq`).
-/

namespace Perception.Random.Generator

def after : Nat → Generator → Generator
  | 0, g => g
  | k + 1, g => after k g.next.2

/-- The byte that draw number `k` gives, counted from zero. -/
def byteAt (g : Generator) (k : Nat) : UInt8 := (g.after k).byte.1

@[simp] theorem after_zero (g : Generator) : g.after 0 = g := rfl

/-- Draws add up. -/
theorem after_add (g : Generator) (j k : Nat) : g.after (j + k) = (g.after j).after k := by
  induction j generalizing g with
  | zero => rw [Nat.zero_add, after_zero]
  | succ j ih =>
      rw [Nat.succ_add]
      exact ih g.next.2

theorem byteAt_add (g : Generator) (j k : Nat) : g.byteAt (j + k) = (g.after j).byteAt k := by
  rw [byteAt, byteAt, after_add]

/-- **Several words** are those of the next draws, and leave the generator after these. -/
theorem take_eq (n : Nat) (g : Generator) :
    (take n g).1.map UInt32.toUInt8 = (List.range n).map g.byteAt ∧ (take n g).2 = g.after n := by
  induction n generalizing g with
  | zero => exact ⟨rfl, rfl⟩
  | succ n ih =>
      obtain ⟨hbytes, hafter⟩ := ih g.next.2
      refine ⟨?_, hafter⟩
      have hlater : (fun k => g.byteAt (k + 1)) = g.next.2.byteAt := by
        funext k
        rw [Nat.add_comm, byteAt_add]
        rfl
      rw [List.range_succ_eq_map, List.map_cons, List.map_map]
      show g.next.1.toUInt8 :: (take n g.next.2).1.map UInt32.toUInt8
        = g.byteAt 0 :: (List.range n).map fun k => g.byteAt (k + 1)
      rw [hbytes, hlater]
      rfl

end Perception.Random.Generator
