import ArchSketch.Number.Binary
import ArchSketch.Number.Digits

/-! The shortest decimal that reads back as a given binary number: as few digits as possible, and
of those the nearest to the number. -/
namespace ArchSketch.Number

structure Decimal where
  digits : Nat
  exponent : Int
  deriving DecidableEq, Repr

namespace Decimal

def value (d : Decimal) : Rat := d.digits * 10 ^ d.exponent

/-- The same number without zeros at the end; `fuel` bounds how many are taken off. -/
def stripFrom : (fuel : Nat) → Decimal → Decimal
  | 0, d => d
  | fuel + 1, d =>
    if d.digits % 10 = 0 then stripFrom fuel ⟨d.digits / 10, d.exponent + 1⟩ else d

def strip (d : Decimal) : Decimal := stripFrom d.digits.log2 d

end Decimal

namespace Binary

def reaches (f : Binary) (n : Nat) (x : Rat) : Bool :=
  let low := (f.value (n - 1) + f.value n) / 2
  let high := (f.value n + f.value (n + 1)) / 2
  if n % 2 = 0 then low ≤ x && x ≤ high else low < x && x < high

def tenExponentOf (x : Rat) : Int :=
  let guess : Int := (decimal x.num.toNat).length - (decimal x.den).length
  if x < 10 ^ guess then guess - 1 else guess

/-- The decimal with this exponent that reads back as place `n` and is nearest to it; from the
middle the even one is taken. -/
def onGrid? (f : Binary) (n : Nat) (exponent : Int) : Option Decimal :=
  let x := f.value n / 10 ^ exponent
  let below : Decimal := ⟨x.floor.toNat, exponent⟩
  let above : Decimal := ⟨x.floor.toNat + 1, exponent⟩
  match f.reaches n below.value, f.reaches n above.value with
  | true, true => some ⟨roundEven x, exponent⟩
  | true, false => some below
  | false, true => some above
  | false, false => none

/-- Tries one digit, then two, and so on; `fuel` bounds how many. -/
def shortestFrom (f : Binary) (n : Nat) : (fuel : Nat) → Int → Decimal
  | 0, exponent => ⟨roundEven (f.value n / 10 ^ exponent), exponent⟩
  | fuel + 1, exponent =>
    match f.onGrid? n exponent with
    | some d => d
    | none => shortestFrom f n fuel (exponent - 1)

def shortest (f : Binary) (n : Nat) : Decimal :=
  (shortestFrom f n (f.bits + 1) (tenExponentOf (f.value n))).strip

end Binary
end ArchSketch.Number
