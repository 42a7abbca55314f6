set_option autoImplicit false

/-! # Powers of two and of ten -/

namespace Perception.Number

def powerOfTwo (k : Nat) : Nat := Nat.pow 2 k

def powerOfTen (k : Nat) : Nat := Nat.pow 10 k

end Perception.Number
