import CrystalModel.Numeric.Reading

/-! # Dates and times in TOML

A moment is a date, a time of day, or both, and with both it may name its distance to universal
time. Moments are recognised, but have no value. -/
namespace CrystalModel.Document.Toml

def fixedDigits (count : Nat) (cs : List Char) : Option (Nat × List Char) :=
  let digits := cs.takeWhile Char.isDigit
  if digits.length = count then some (Numeric.digitsValue digits, cs.dropWhile Char.isDigit)
  else none

def skipChar (c : Char) : List Char → Option (List Char)
  | d :: rest => if d = c then some rest else none
  | [] => none

def isLeapYear (year : Nat) : Bool := year % 4 == 0 && (year % 100 != 0 || year % 400 == 0)

def monthLength (year month : Nat) : Nat :=
  if month = 2 then if isLeapYear year then 29 else 28
  else if [4, 6, 9, 11].contains month then 30
  else 31

def skipDate (cs : List Char) : Option (List Char) := do
  let (year, rest) ← fixedDigits 4 cs
  let (month, rest) ← fixedDigits 2 (← skipChar '-' rest)
  let (day, rest) ← fixedDigits 2 (← skipChar '-' rest)
  if 1 ≤ month ∧ month ≤ 12 ∧ 1 ≤ day ∧ day ≤ monthLength year month then some rest else none

def skipClock (cs : List Char) : Option (List Char) := do
  let (hour, rest) ← fixedDigits 2 cs
  let (minute, rest) ← fixedDigits 2 (← skipChar ':' rest)
  if hour ≤ 23 ∧ minute ≤ 59 then some rest else none

def skipFraction : List Char → Option (List Char)
  | '.' :: rest =>
    if (rest.takeWhile Char.isDigit).isEmpty then none else some (rest.dropWhile Char.isDigit)
  | rest => some rest

/-- The text behind a time of day. Seconds may be left out, and there may be a leap second. -/
def skipTime (cs : List Char) : Option (List Char) := do
  match ← skipClock cs with
  | ':' :: rest =>
    let (second, rest) ← fixedDigits 2 rest
    if second ≤ 60 then skipFraction rest else none
  | rest => some rest

def isOffset : List Char → Bool
  | [] => true
  | ['Z'] => true
  | ['z'] => true
  | c :: rest => (c == '+' || c == '-') && skipClock rest == some []

def isMoment (cs : List Char) : Bool :=
  match skipDate cs with
  | none => skipTime cs == some []
  | some [] => true
  | some (c :: rest) =>
    (c == 'T' || c == 't' || c == ' ') && ((skipTime rest).map isOffset).getD false

end CrystalModel.Document.Toml
