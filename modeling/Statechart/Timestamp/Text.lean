import Statechart.Text.Blank
import Statechart.Text.Digits
import Statechart.Timestamp.Date

/-!
# Timestamps as text

A timestamp is written as a date and a time in universal time, with a fraction of three, six or
nine digits if it needs one, and a `Z`. Reading takes any offset and is lenient about white space
before a number and around the separators, about single digits, and about a year with a sign.
-/

namespace Statechart

namespace Timestamp

def yearText (year : Int) : String :=
  if 0 ≤ year ∧ year ≤ 9999 then Digits.padded 10 4 year.toNat
  else (if year < 0 then "-" else "+") ++ Digits.padded 10 4 year.natAbs

/-- The fraction of a second in the fewest groups of three digits that lose nothing. -/
def fractionText (nano : Nat) : String :=
  if nano = 0 then ""
  else if nano % 1000000 = 0 then "." ++ Digits.padded 10 3 (nano / 1000000)
  else if nano % 1000 = 0 then "." ++ Digits.padded 10 6 (nano / 1000)
  else "." ++ Digits.padded 10 9 nano

def text (timestamp : Timestamp) : String :=
  let date := timestamp.date
  let second := timestamp.secondOfDay
  let (extra, nano) :=
    if timestamp.isLeap then (1, timestamp.nano - nanosPerSecond) else (0, timestamp.nano)
  let two := Digits.padded 10 2
  yearText date.year ++ "-" ++ two date.month ++ "-" ++ two date.day ++ "T" ++
    two (second / 3600) ++ ":" ++ two (second / 60 % 60) ++ ":" ++ two (second % 60 + extra) ++
    fractionText nano ++ "Z"

abbrev Reader := StateT (List Char) Option

namespace Reader

def skipBlanks : Reader Unit :=
  modify (·.dropWhile Blank.isBlank)

def char (test : Char → Bool) : Reader Char := do
  match ← get with
  | [] => failure
  | c :: rest =>
    if test c then
      set rest
      return c
    else failure

def separator (c : Char) : Reader Unit := do
  skipBlanks
  let _ ← char (· = c)

def digits (most : Nat) : Reader (List Char) := do
  let found := ((← get).take most).takeWhile Char.isDigit
  if found.isEmpty then failure
  modify (·.drop found.length)
  return found

def number (least greatest : Nat) : Reader Nat := do
  skipBlanks
  let value := Digits.value (← digits 2)
  if least ≤ value ∧ value ≤ greatest then return value else failure

def year : Reader Int := do
  skipBlanks
  match ← get with
  | '-' :: rest =>
    set rest
    return -Digits.value (← digits rest.length)
  | '+' :: rest =>
    set rest
    return Digits.value (← digits rest.length)
  | _ => return Digits.value (← digits 4)

def date : Reader Date := do
  let year ← year
  separator '-'
  let month ← number 1 12
  separator '-'
  let day ← number 1 31
  return ⟨year, month, day⟩

def fraction : Reader Nat := do
  match ← get with
  | '.' :: rest =>
    set rest
    let found ← digits 9
    modify (·.dropWhile Char.isDigit)
    return Digits.value found * Nat.pow 10 (9 - found.length)
  | _ => return 0

/-- Takes a time of day as seconds and nanoseconds; the second 60 is a leap second. -/
def time : Reader (Nat × Nat) := do
  let hour ← number 0 23
  separator ':'
  let minute ← number 0 59
  separator ':'
  let second ← number 0 60
  let nano ← fraction
  let start := hour * 3600 + minute * 60
  if second = 60 then return (start + 59, nanosPerSecond + nano)
  else return (start + second, nano)

def twoDigits : Reader Nat := do
  let first ← char Char.isDigit
  let second ← char Char.isDigit
  return Digits.value [first, second]

def offsetAfterSign : Reader Nat := do
  let hours ← twoDigits
  modify (·.dropWhile fun c => c = ':' || Blank.isBlank c)
  let minutes ← twoDigits
  if minutes ≤ 59 then return hours * 3600 + minutes * 60 else failure

/-- Takes an offset from universal time in seconds. A minus sign may be the one of mathematics,
and universal time has a name and a letter. -/
def offset : Reader Int := do
  skipBlanks
  match ← get with
  | 'Z' :: rest | 'z' :: rest =>
    set rest
    return 0
  | '+' :: rest =>
    set rest
    return (← offsetAfterSign)
  | '-' :: rest | '−' :: rest =>
    set rest
    return -(← offsetAfterSign)
  | u :: t :: c :: rest =>
    if [u, t, c].map Char.toUpper = ['U', 'T', 'C'] then
      set rest
      return 0
    else failure
  | _ => failure

def timestamp : Reader Timestamp := do
  let date ← date
  let _ ← char fun c => c = 'T' || c = 't' || c = ' '
  let (second, nano) ← time
  let offset ← offset
  skipBlanks
  if !(← get).isEmpty ∨ !date.isValid ∨ (secondsPerDay : Int) ≤ offset.natAbs then failure
  let result := Timestamp.ofDate date (second - offset) nano
  if result.date.isValid then return result else failure

end Reader

def read? (text : String) : Option Timestamp :=
  (Reader.timestamp.run text.toList).map (·.1)

end Timestamp

end Statechart
