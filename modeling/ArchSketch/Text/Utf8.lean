/-! UTF-8 that may be wrong. Every longest piece of a sequence that breaks off, and every byte
that starts none, is shown as one replacement character. -/
namespace ArchSketch.Text

/-- A sequence in progress: its value so far, how many bytes are still due, and the bounds of the
next one. -/
structure Utf8Pending where
  value : Nat
  due : Nat
  low : Nat
  high : Nat

def replacement : Char := '\ufffd'

def utf8Start (b : Nat) : Option Utf8Pending × List Char :=
  if b < 0x80 then (none, [Char.ofNat b])
  else if 0xC2 ≤ b && b ≤ 0xDF then (some ⟨b - 0xC0, 1, 0x80, 0xBF⟩, [])
  else if b == 0xE0 then (some ⟨0, 2, 0xA0, 0xBF⟩, [])
  else if b == 0xED then (some ⟨0xD, 2, 0x80, 0x9F⟩, [])
  else if 0xE1 ≤ b && b ≤ 0xEF then (some ⟨b - 0xE0, 2, 0x80, 0xBF⟩, [])
  else if b == 0xF0 then (some ⟨0, 3, 0x90, 0xBF⟩, [])
  else if 0xF1 ≤ b && b ≤ 0xF3 then (some ⟨b - 0xF0, 3, 0x80, 0xBF⟩, [])
  else if b == 0xF4 then (some ⟨4, 3, 0x80, 0x8F⟩, [])
  else (none, [replacement])

def utf8Step (pending : Option Utf8Pending) (b : Nat) : Option Utf8Pending × List Char :=
  match pending with
  | none => utf8Start b
  | some p =>
    if p.low ≤ b && b ≤ p.high then
      let value := p.value * 64 + (b - 0x80)
      if p.due ≤ 1 then (none, [Char.ofNat value]) else (some ⟨value, p.due - 1, 0x80, 0xBF⟩, [])
    else ((utf8Start b).1, replacement :: (utf8Start b).2)

def utf8From (pending : Option Utf8Pending) : List UInt8 → List Char
  | [] => if pending.isSome then [replacement] else []
  | b :: bs =>
    let next := utf8Step pending b.toNat
    next.2 ++ utf8From next.1 bs

def utf8Lossy (bytes : ByteArray) : List Char := utf8From none bytes.toList

end ArchSketch.Text
