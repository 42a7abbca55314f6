import Perception.Failure
import Perception.Number.Read

set_option autoImplicit false

/-! # Loose data as numbers

What a value counts for where a whole or a fractional number is asked for: truth values are 0 and 1,
fractions are cut towards zero, texts are read.
-/

namespace Perception.Datum

def toInt : Datum → Outcome Int
  | bool b => .ok (if b then 1 else 0)
  | int i => .ok i
  | float x =>
      match Number.truncate? x with
      | some i => .ok i
      | none => .error (.plain (if x.isNaN then .value else .overflow))
  | text s =>
      match Number.readInt? 10 s.toList with
      | some i => .ok i
      | none => .error (.plain .value)
  | _ => .error (.plain .type)

def toFloat : Datum → Outcome Float
  | bool b => .ok (if b then 1.0 else 0.0)
  | int i => if Number.exceedsFloat i then .error (.plain .overflow) else .ok (Number.ofInt i)
  | float x => .ok x
  | text s =>
      match Number.readFloat? s.toList with
      | some x => .ok x
      | none => .error (.plain .value)
  | _ => .error (.plain .type)

end Perception.Datum
