import CompiledViews.Host.Utility.Words

/-!
# Dates

A time is the seconds since the first day of 1970. It is shown in a format in which a percent sign
and a letter stand for a part of it.
-/

namespace CompiledViews.Utility

/-- A day of the calendar. -/
structure Day where
  year : Nat
  month : Nat
  day : Nat
deriving DecidableEq, Repr

namespace Day

/-- The days from the first of March of the year zero to the first day of 1970. -/
def epochDays : Nat := 719468

/-- The days of four hundred years, after which the calendar begins again. -/
def eraDays : Nat := 146097

/-- The day that is a number of days after the first one of 1970. Years are counted from March on,
so that a day more comes last. -/
def ofDays (days : Nat) : Day :=
  let shifted := days + epochDays
  let inEra := shifted % eraDays
  let yearOfEra := (inEra - inEra / 1460 + inEra / 36524 - inEra / 146096) / 365
  let dayOfYear := inEra - (365 * yearOfEra + yearOfEra / 4 - yearOfEra / 100)
  let shiftedMonth := (5 * dayOfYear + 2) / 153
  let month := if shiftedMonth < 10 then shiftedMonth + 3 else shiftedMonth - 9
  { year := yearOfEra + 400 * (shifted / eraDays) + (if month ≤ 2 then 1 else 0)
    month
    day := dayOfYear - (153 * shiftedMonth + 2) / 5 + 1 }

end Day

def monthNames : List Text :=
  ["Jan", "Feb", "Mar", "Apr", "May", "Jun", "Jul", "Aug", "Sep", "Oct", "Nov", "Dec"]

/-- The names of the days of a week; the first day of 1970 is the first one. -/
def weekdayNames : List Text := ["Thu", "Fri", "Sat", "Sun", "Mon", "Tue", "Wed"]

def twoDigits (number : Nat) : Text := Text.replaceChar ' ' '0' (Text.padLeft 2 (Text.ofNat number))

/-- The format of a date that is asked for without one. -/
def plainDate : Text := "%a %b %e %H:%M:%S UTC %Y"

/-- The text of a time in milliseconds in a format. -/
def shownDate (milliseconds : Nat) (format : Text) : Text :=
  let seconds := milliseconds / 1000
  let day := Day.ofDays (seconds / 86400)
  let hour := twoDigits (seconds / 3600 % 24)
  let minute := twoDigits (seconds / 60 % 60)
  let second := twoDigits (seconds % 60)
  let nanoseconds := Text.ofNat (1000000000 + milliseconds % 1000 * 1000000)
  let part (letter : Char) : Text :=
    match letter with
    | 's' => Text.ofNat seconds
    | 'N' => nanoseconds.drop 1
    | 'Y' => Text.ofNat day.year
    | 'y' => twoDigits (day.year % 100)
    | 'm' => twoDigits day.month
    | 'd' => twoDigits day.day
    | 'e' => Text.padLeft 2 (Text.ofNat day.day)
    | 'H' => hour
    | 'M' => minute
    | 'S' => second
    | 'a' => weekdayNames.getD (seconds / 86400 % 7) []
    | 'b' => monthNames.getD (day.month - 1) []
    | 'F' => Text.ofNat day.year ++ "-" ++ twoDigits day.month ++ "-" ++ twoDigits day.day
    | 'T' => hour ++ ":" ++ minute ++ ":" ++ second
    | 'R' => hour ++ ":" ++ minute
    | 'Z' => "UTC"
    | 'z' => "+0000"
    | 'n' => "\n"
    | 't' => "\t"
    | '%' => "%"
    | _ => ['%', letter]
  shown part format
where
  /-- A format with its parts in place. -/
  shown (part : Char → Text) : Text → Text
    | '%' :: letter :: rest => part letter ++ shown part rest
    | character :: rest => character :: shown part rest
    | [] => []

/-- The milliseconds at which the clock of a host stands when a command begins. -/
def clockStart : Nat := 1700000000000

/-- Prints the time, or one that is given. -/
def date : Utility Unit :=
  withOptions "u" "dr" fun options => do
    let now := clockStart + (← read).time
    let time : Option Nat :=
      match options.value? 'd' with
      | none => some now
      | some ('@' :: seconds) => (natural? seconds).map (1000 * ·)
      | some word => if word = "now" then some now else none
    match time, options.operands with
    | none, _ => complain ("invalid date " ++ quoted ((options.value? 'd').getD []))
    | some time, [] => printLine (shownDate time plainDate)
    | some time, ('+' :: format) :: _ => printLine (shownDate time format)
    | some _, word :: _ => complain ("invalid date " ++ quoted word)

end CompiledViews.Utility
