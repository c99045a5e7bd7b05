import ArchSketch.Number.Digits
import ArchSketch.Number.Single

/-! Numbers as JSON writes them, digit by digit, and the binary numbers they stand for. A reader
keeps the numeral, so what a number is worth is decided only where it is used. -/
namespace ArchSketch.Json

open Number

structure Numeral where
  negative : Bool
  whole : Nat
  fraction : List Digit
  exponent : Option Int
  deriving DecidableEq, Repr

namespace Numeral

def ofNat (n : Nat) : Numeral := ⟨false, n, [], none⟩

def exponentText : Option Int → List Char
  | none => []
  | some e => 'e' :: (if e < 0 then '-' else '+') :: decimal e.natAbs

def text (n : Numeral) : List Char :=
  (if n.negative then ['-'] else []) ++ decimal n.whole ++
    (if n.fraction.isEmpty then [] else '.' :: n.fraction.map Digit.char) ++
    exponentText n.exponent

def isInteger (n : Numeral) : Bool :=
  n.fraction.isEmpty && n.exponent.isNone && !(n.negative && n.whole == 0)

/-- Digits join the significand from the left as long as it stays below 2^64. The second part
counts those that did. -/
def absorb : (significand : Nat) → List Nat → Nat × Nat
  | s, [] => (s, 0)
  | s, d :: ds =>
    if s * 10 + d < UInt64.size then ((absorb (s * 10 + d) ds).1, (absorb (s * 10 + d) ds).2 + 1)
    else (s, 0)

/-- The significand and the power of ten it is taken times. Whole digits that found no room count
in the power, digits of the fraction that found none are dropped. -/
def parts (n : Numeral) : Nat × Int :=
  let digits := (decimal n.whole).map fun c => c.toNat - '0'.toNat
  let whole := absorb 0 digits
  let all := absorb whole.1 (n.fraction.map Fin.val)
  (all.1, (digits.length - whole.2 : Nat) - (all.2 : Int) + n.exponent.getD 0)

def power (e : Nat) : Rat := Binary.double.value (Binary.double.round (10 ^ e))

/-- Divides by a power of ten whose exponent may lie outside the range of double precision, in
steps that each stay inside. -/
def divide (m : Nat) (e : Nat) : Nat :=
  if e ≤ 308 then Binary.double.round (Binary.double.value m / power e)
  else if m = 0 then 0
  else divide (Binary.double.round (Binary.double.value m / power 308)) (e - 308)
termination_by e
decreasing_by omega

/-- The magnitude in double precision, rounded once for the significand and once for each step of
scaling; none when it is too large. -/
def magnitude? (n : Numeral) : Option Nat :=
  let m := Binary.double.round n.parts.1
  match n.parts.2 with
  | .negSucc e => some (divide m (e + 1))
  | .ofNat e =>
    if e ≤ 308 then
      let scaled := Binary.double.round (Binary.double.value m * power e)
      if scaled < Binary.double.infinity then some scaled else none
    else if m = 0 then some 0 else none

/-- The single precision number a numeral stands for. An integer of 64 bits is rounded once, any
other number by way of double precision. -/
def toSingle? (n : Numeral) : Option Single :=
  let bound := if n.negative then UInt64.size / 2 else UInt64.size - 1
  if n.isInteger && n.whole ≤ bound then some (Single.nearest n.negative n.whole)
  else n.magnitude?.map fun m => Single.nearest n.negative (Binary.double.value m)

def ofDecimal (negative : Bool) (d : Decimal) : Numeral :=
  let length := (decimal d.digits).length
  let leading := d.exponent + length - 1
  if leading < -6 || 12 < leading then
    ⟨negative, withoutLast (length - 1) d.digits, lastDigits (length - 1) d.digits, some leading⟩
  else match d.exponent with
    | .ofNat e => ⟨negative, withZeros e d.digits, [Digit.ofNat 0], none⟩
    | .negSucc e => ⟨negative, withoutLast (e + 1) d.digits, lastDigits (e + 1) d.digits, none⟩

def ofSingle (x : Single) : Numeral :=
  if x.magnitude = 0 then ⟨x.negative, 0, [Digit.ofNat 0], none⟩
  else ofDecimal x.negative (Binary.single.shortest x.magnitude)

end Numeral
end ArchSketch.Json
