import ArchSketch.Number.Digits
import ArchSketch.Render.Format

/-! Moments of a calendar, to the second, and the names of files drawn at them. A minute may end in
a leap second, its sixty-first. Every field has a fixed width in a name, but for years outside four
digits, which carry a sign. -/
namespace ArchSketch

open Number

def isLeapYear (year : Int) : Bool := year % 4 == 0 && (year % 100 != 0 || year % 400 == 0)

def daysInMonth (year : Int) (month : Nat) : Nat :=
  if month == 2 then (if isLeapYear year then 29 else 28)
  else if month == 4 || month == 6 || month == 9 || month == 11 then 30
  else 31

structure Moment where
  year : Int
  month : Nat
  day : Nat
  hour : Nat
  minute : Nat
  second : Nat
  month_bounds : 1 ≤ month ∧ month ≤ 12
  day_bounds : 1 ≤ day ∧ day ≤ daysInMonth year month
  hour_lt : hour < 24
  minute_lt : minute < 60
  second_le : second ≤ 60
  deriving DecidableEq, Repr

namespace Moment

def ofParts? (year : Int) (month day hour minute second : Nat) : Option Moment :=
  if h : (1 ≤ month ∧ month ≤ 12) ∧ (1 ≤ day ∧ day ≤ daysInMonth year month) ∧ hour < 24 ∧
      minute < 60 ∧ second < 60 then
    some ⟨year, month, day, hour, minute, second, h.1, h.2.1, h.2.2.1, h.2.2.2.1,
      Nat.le_of_lt h.2.2.2.2⟩
  else none

def yearText (year : Int) : List Char :=
  (if year < 0 then ['-'] else if 9999 < year then ['+'] else []) ++ padded 4 year.natAbs

def stamp (m : Moment) : List Char :=
  yearText m.year ++ padded 2 m.month ++ padded 2 m.day ++ '_' :: padded 2 m.hour ++
    padded 2 m.minute ++ padded 2 m.second

end Moment

/-- The name of a file drawn at a moment. Drawings within one second share a name. -/
def artifactName (m : Moment) (format : ImageFormat) : String :=
  String.ofList ("diagram_".toList ++ m.stamp ++ '.' :: format.name.toList)

end ArchSketch
