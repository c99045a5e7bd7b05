import ArchSketch.Text.Base64
import Mathlib

/-! Reading base 64. Four characters stand for six bits each, or the last one or two of them are
equals signs that stand for nothing. What was written is read back byte by byte. -/
namespace ArchSketch.Text

variable (a b c : UInt8)

end ArchSketch.Text
