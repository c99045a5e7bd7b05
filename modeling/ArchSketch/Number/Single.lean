import ArchSketch.Number.Shortest

/-! Single precision numbers: a sign and a place in the order of magnitudes. -/
namespace ArchSketch.Number

structure Single where
  negative : Bool
  magnitude : Nat
  le_infinity : magnitude ≤ Binary.single.infinity := by decide
  deriving DecidableEq

namespace Single

def isFinite (x : Single) : Bool := x.magnitude < Binary.single.infinity

/-- The number nearest to `x`, with the sign given on its own so that zero has one too. -/
def nearest (negative : Bool) (x : Rat) : Single where
  negative
  magnitude := Binary.single.round x
  le_infinity := by
    unfold Binary.round
    split
    · exact Nat.zero_le _
    · exact Nat.min_le_left ..

end Single
end ArchSketch.Number
