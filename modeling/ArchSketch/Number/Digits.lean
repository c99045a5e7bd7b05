/-! Decimal digits of natural numbers. -/
namespace ArchSketch.Number

abbrev Digit := Fin 10

def Digit.char (d : Digit) : Char := Nat.digitChar d.val

def Digit.ofNat (n : Nat) : Digit := Fin.ofNat 10 n

def decimal (n : Nat) : List Char := Nat.toDigits 10 n

def lastDigits : (count : Nat) → Nat → List Digit
  | 0, _ => []
  | count + 1, n => lastDigits count (n / 10) ++ [Digit.ofNat n]

def withoutLast (count n : Nat) : Nat := n / Nat.pow 10 count

def withZeros (count n : Nat) : Nat := n * Nat.pow 10 count

def padded (width n : Nat) : List Char :=
  List.replicate (width - (decimal n).length) '0' ++ decimal n

@[simp] theorem length_lastDigits (count n : Nat) : (lastDigits count n).length = count := by
  induction count generalizing n with
  | zero => rfl
  | succ count ih => simp [lastDigits, ih]

end ArchSketch.Number
