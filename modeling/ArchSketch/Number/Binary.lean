/-! Binary floating point. The nonnegative numbers of a format, infinity last, are numbered from
zero in their order; a real number goes to the one nearest to it, and from the middle between two
to the one with an even number. -/
namespace ArchSketch.Number

structure Binary where
  /-- How many bits follow the leading one. -/
  bits : Nat
  /-- The least positive number is two to this power. -/
  lowest : Int
  infinity : Nat

namespace Binary

def single : Binary := ⟨23, -149, 255 <<< 23⟩

def double : Binary := ⟨52, -1074, 2047 <<< 52⟩

def share (f : Binary) : Nat := 1 <<< f.bits

/-- What stands at a place of the order; infinity stands for the power of two that comes next. -/
def value (f : Binary) (n : Nat) : Rat :=
  let binade := n / f.share
  let fraction := n % f.share
  if binade = 0 then (fraction : Rat) * 2 ^ f.lowest
  else ((f.share + fraction : Nat) : Rat) * 2 ^ (f.lowest + (binade - 1 : Nat))

def exponentOf (x : Rat) : Int :=
  let guess : Int := (x.num.toNat.log2 : Int) - x.den.log2
  if x < 2 ^ guess then guess - 1 else guess

def roundEven (x : Rat) : Nat :=
  let below := x.floor.toNat
  let excess := x - below
  if excess < 1 / 2 then below else if 1 / 2 < excess then below + 1 else below + below % 2

/-- The place of the number nearest to `x`, which is not negative. -/
def round (f : Binary) (x : Rat) : Nat :=
  if x ≤ 0 then 0
  else
    let unit := max (exponentOf x - f.bits) f.lowest
    min f.infinity ((unit - f.lowest).toNat * f.share + roundEven (x / 2 ^ unit))

end Binary
end ArchSketch.Number
