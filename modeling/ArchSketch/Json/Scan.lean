import ArchSketch.Json.Numeral

/-! The tokens of a JSON text. Reading a token gives the token and the text after it, or the flaw
that reading met. A value that nobody looks at is passed over with less care: its numbers may be
cut off anywhere with the same result, and its text may hold escapes that are no character. -/
namespace ArchSketch.Json

open Number

inductive Flaw where
  | truncated
  | malformed
  deriving DecidableEq, Repr

inductive Scan (α : Type) where
  | done (a : α) (rest : List Char)
  /-- The flaw for a reader that wants the token, and for one that passes it over. -/
  | broken (kept skipped : Flaw)

def isSpace (c : Char) : Bool := c == ' ' || c == '\n' || c == '\t' || c == '\r'

def skipSpace (t : List Char) : List Char := t.dropWhile isSpace

/-- A character of a text as it is written; an escape by number is a unit of UTF-16. -/
inductive TextUnit where
  | char (c : Char)
  | code (n : Nat)
  deriving DecidableEq, Repr

def hexValue? (c : Char) : Option Nat :=
  if '0' ≤ c && c ≤ '9' then some (c.toNat - '0'.toNat)
  else if 'a' ≤ c && c ≤ 'f' then some (c.toNat - 'a'.toNat + 10)
  else if 'A' ≤ c && c ≤ 'F' then some (c.toNat - 'A'.toNat + 10)
  else none

def hexNumber? (digits : List Char) : Option Nat :=
  digits.foldl (fun n c => n.bind fun n => (hexValue? c).map (16 * n + ·)) (some 0)

def unescape? (c : Char) : Option Char :=
  if c == '\x22' || c == '\\' || c == '/' then some c
  else if c == 'b' then some '\x08'
  else if c == 'f' then some '\x0c'
  else if c == 'n' then some '\n'
  else if c == 'r' then some '\r'
  else if c == 't' then some '\t'
  else none

inductive TextEnd where
  | closed (rest : List Char)
  | flawed (f : Flaw)

/-- The flaw of an escape by number that has no four digits: four bytes or more are wrong, fewer
are too few. -/
def shortEscape (t : List Char) : Flaw :=
  if 4 ≤ (String.ofList t).utf8ByteSize then .malformed else .truncated

def scanUnits : List Char → List TextUnit × TextEnd
  | [] => ([], .flawed .truncated)
  | '\\' :: 'u' :: a :: b :: c :: d :: t =>
    match hexNumber? [a, b, c, d] with
    | some n => (.code n :: (scanUnits t).1, (scanUnits t).2)
    | none => ([], .flawed .malformed)
  | '\\' :: 'u' :: t => ([], .flawed (shortEscape t))
  | '\\' :: e :: t =>
    match unescape? e with
    | some c => (.char c :: (scanUnits t).1, (scanUnits t).2)
    | none => ([], .flawed .malformed)
  | ['\\'] => ([], .flawed .truncated)
  | c :: t =>
    if c == '\x22' then ([], .closed t)
    else if c.toNat < 0x20 then ([], .flawed .malformed)
    else (.char c :: (scanUnits t).1, (scanUnits t).2)

def isLeading (n : Nat) : Bool := 0xD800 ≤ n && n ≤ 0xDBFF

def isTrailing (n : Nat) : Bool := 0xDC00 ≤ n && n ≤ 0xDFFF

def characters? : List TextUnit → Option (List Char)
  | [] => some []
  | .char c :: us => (characters? us).map (c :: ·)
  | .code n :: .code m :: us =>
    if isLeading n then
      if isTrailing m then
        (characters? us).map (Char.ofNat (0x10000 + (n - 0xD800) * 0x400 + (m - 0xDC00)) :: ·)
      else none
    else if isTrailing n then none
    else (characters? (.code m :: us)).map (Char.ofNat n :: ·)
  | .code n :: us =>
    if isLeading n || isTrailing n then none else (characters? us).map (Char.ofNat n :: ·)

/-- The units before a leading surrogate at the end, which may still be waiting for its other
half. -/
def settled (us : List TextUnit) : List TextUnit :=
  match us.getLast? with
  | some (.code n) => if isLeading n then us.dropLast else us
  | _ => us

def scanText (t : List Char) : Scan (Option String) :=
  match scanUnits t with
  | (us, .closed rest) => .done ((characters? us).map String.ofList) rest
  | (us, .flawed f) => .broken (if (characters? (settled us)).isSome then f else .malformed) f

def digitsOf (t : List Char) : List Char := t.takeWhile Char.isDigit

def numberOf (digits : List Char) : Nat := Nat.ofDigitChars 10 digits 0

def noDigit {α : Type} (t : List Char) : Scan α :=
  .broken (if t.isEmpty then .truncated else .malformed) .malformed

def scanExponent (n : Numeral) (t : List Char) : Scan Numeral :=
  match t with
  | c :: t =>
    if c == 'e' || c == 'E' then
      let (negative, t) := match t with
        | '-' :: t => (true, t)
        | '+' :: t => (false, t)
        | t => (false, t)
      if (digitsOf t).isEmpty then noDigit t
      else
        let e : Int := numberOf (digitsOf t)
        .done { n with exponent := some (if negative then -e else e) } (t.dropWhile Char.isDigit)
    else .done n (c :: t)
  | [] => .done n []

def scanFraction (n : Numeral) (t : List Char) : Scan Numeral :=
  match t with
  | '.' :: t =>
    if (digitsOf t).isEmpty then noDigit t
    else
      let fraction := (digitsOf t).map fun c => Number.Digit.ofNat (c.toNat - '0'.toNat)
      scanExponent { n with fraction } (t.dropWhile Char.isDigit)
  | t => scanExponent n t

def scanUnsigned (negative : Bool) (t : List Char) : Scan Numeral :=
  let digits := digitsOf t
  if digits.isEmpty then noDigit t
  else if digits.head? == some '0' && 1 < digits.length then .broken .malformed .malformed
  else scanFraction ⟨negative, numberOf digits, [], none⟩ (t.dropWhile Char.isDigit)

def scanNumber : List Char → Scan Numeral
  | '-' :: t => scanUnsigned true t
  | t => scanUnsigned false t

def scanWord (word : List Char) (t : List Char) : Scan Unit :=
  match word, t with
  | [], t => .done () t
  | _ :: _, [] => .broken .truncated .truncated
  | w :: word, c :: t => if c == w then scanWord word t else .broken .malformed .malformed

end ArchSketch.Json
