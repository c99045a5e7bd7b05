/-! Character properties as lists of code point ranges, both ends included. -/
namespace ArchSketch.Text

abbrev Ranges := List (Nat × Nat)

def Ranges.has (ranges : Ranges) (n : Nat) : Bool := ranges.any fun r => r.1 ≤ n && n ≤ r.2

end ArchSketch.Text
