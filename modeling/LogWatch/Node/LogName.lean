import LogWatch.Duration
import LogWatch.Disk.Path

/-!
Names of log files: each says to the millisecond when its run began, in the calendar of the civil
year, so that names sort by time.
-/

namespace LogWatch.LogName

structure Date where
  year : Nat
  month : Nat
  day : Nat
deriving DecidableEq, Repr

/-- The date so many days after the first of January 1970. Years are counted from March, so that
the leap day comes last, and in spans of four hundred, which all have the same days. -/
def Date.ofDays (days : Nat) : Date :=
  let shifted := days + 719468
  let span := shifted / 146097
  let inSpan := shifted % 146097
  let year := (inSpan - inSpan / 1460 + inSpan / 36524 - inSpan / 146096) / 365
  let inYear := inSpan - (365 * year + year / 4 - year / 100)
  let month := (5 * inYear + 2) / 153
  let day := inYear - (153 * month + 2) / 5 + 1
  if month < 10 then ⟨span * 400 + year, month + 3, day⟩
  else ⟨span * 400 + year + 1, month - 9, day⟩

/-- A number in at least so many digits. -/
def padded (width n : Nat) : String :=
  let digits := Nat.toDigits 10 n
  String.ofList (List.replicate (width - digits.length) '0' ++ digits)

def millisPerDay : Nat := 86400000

/-- The name of the log of a run that begins so many milliseconds after the start of 1970. -/
def ofMillis (millis : Nat) : String :=
  let date := Date.ofDays (millis / millisPerDay)
  let second := millis % millisPerDay / 1000
  "node-" ++ padded 4 date.year ++ padded 2 date.month ++ padded 2 date.day ++ "-"
    ++ padded 2 (second / 3600) ++ padded 2 (second / 60 % 60) ++ padded 2 (second % 60) ++ "."
    ++ padded 3 (millis % 1000) ++ ".log"

/-- Whether a text has the form of such a name. -/
def isLogName (s : String) : Bool :=
  let form := "node-00000000-000000.000.log".toList
  let cs := s.toList
  cs.length = form.length
    && (form.zip cs).all fun (f, c) => if f = '0' then c.isDigit else f = c

/-- Whether a path is that of a log in a folder. -/
def isLogIn (dir path : String) : Bool :=
  match (Path.parts path).names.getLast? with
  | some name => isLogName name && decide (Path.parts path = Path.parts (Path.join dir name))
  | none => false

end LogWatch.LogName
