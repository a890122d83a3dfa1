/-
Times of archive entries.

An archive stores a time in two words of 16 bits, to two seconds.  The words can say days and
hours that do not exist; such a time is none.
-/
namespace ClassRelabel

structure Timestamp where
  year : Int
  month : Nat
  day : Nat
  hour : Nat
  minute : Nat
  second : Nat
deriving DecidableEq, Repr

namespace Timestamp

def isLeapYear (year : Int) : Bool :=
  year % 4 == 0 && (year % 100 != 0 || year % 400 == 0)

def monthLength (year : Int) (month : Nat) : Nat :=
  if month = 2 then
    if isLeapYear year then 29 else 28
  else if [4, 6, 9, 11].contains month then
    30
  else
    31

/-- Whether the calendar and the clock have the time. -/
def isReal (t : Timestamp) : Bool :=
  1 ≤ t.month && t.month ≤ 12 && 1 ≤ t.day && t.day ≤ monthLength t.year t.month &&
    t.hour < 24 && t.minute < 60 && t.second < 60

def firstYear : Int := 1980

def lastYear : Int := 2107

def first : Timestamp := ⟨firstYear, 1, 1, 0, 0, 0⟩

/-! ## Words -/

def dateWord (t : Timestamp) : Nat :=
  (t.year - firstYear).toNat * 512 + t.month * 32 + t.day

def timeWord (t : Timestamp) : Nat :=
  t.hour * 2048 + t.minute * 32 + t.second / 2

def ofWords? (date time : Nat) : Option Timestamp :=
  let t : Timestamp :=
    ⟨firstYear + date / 512, date / 32 % 16, date % 32, time / 2048, time / 32 % 64, time % 32 * 2⟩
  if t.isReal then some t else none

def isStorable (t : Timestamp) : Bool := firstYear ≤ t.year && t.year ≤ lastYear

/-! ## Text -/

def padded (width n : Nat) : String :=
  let digits := toString n
  String.ofList (List.replicate (width - digits.length) '0') ++ digits

/-- A year has four digits at least, and a sign unless four are enough. -/
def yearText (year : Int) : String :=
  let sign := if year < 0 then "-" else if 9999 < year then "+" else ""
  sign ++ padded 4 year.natAbs

protected def toString (t : Timestamp) : String :=
  s!"{yearText t.year}-{padded 2 t.month}-{padded 2 t.day} " ++
    s!"{padded 2 t.hour}:{padded 2 t.minute}:{padded 2 t.second}"

instance : ToString Timestamp := ⟨Timestamp.toString⟩

end Timestamp
end ClassRelabel
