set_option autoImplicit false

/-! # Devices

What a model can be run on, and which device is chosen where several are there.
-/

namespace Perception

/-- What a model is run on. -/
inductive Device
  | cpu
  | cuda
  | mps
  deriving DecidableEq, Repr

namespace Device

def name : Device → String
  | cpu => "cpu"
  | cuda => "cuda"
  | mps => "mps"

/-- The device of choice, by which others than the processor are there. -/
def choose (hasMps hasCuda : Bool) : Device :=
  if hasMps then mps else if hasCuda then cuda else cpu

/-- The seeds that seeding everything hands to the graphics processors. -/
def cudaSeeds (hasCuda : Bool) (seed : Int) : List Int := if hasCuda then [seed] else []

end Device

end Perception
