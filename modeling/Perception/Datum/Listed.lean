import Perception.Failure

set_option autoImplicit false

/-! # Loose data as lists

What a value lists where items are asked for one after another, and the front part of a list whose
end is given by a whole number of either sign.
-/

namespace Perception.Datum

/-- What a value lists: the items of a list, the characters of a text, the keys of a record. -/
def listed (d : Datum) : Outcome (List Datum) :=
  match d with
  | .list xs => .ok xs
  | .text s => .ok (s.toList.map fun c => .text (String.singleton c))
  | .record es => .ok (es.map Prod.fst)
  | _ => .error (.plain .type)

/-- The front part of a list up to a place, which counts from the end if it is negative. -/
def upTo {α : Type} (k : Int) (xs : List α) : List α :=
  if 0 ≤ k then xs.take k.toNat else xs.take (xs.length - k.natAbs)

end Perception.Datum
