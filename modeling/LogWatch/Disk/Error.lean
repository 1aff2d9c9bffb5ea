/-!
Why a disk refuses, and the words it refuses with.
-/

namespace LogWatch

inductive DiskError where
  | notFound
  | denied
  | taken
  | notFolder
  | isFolder
  | invalid
  | notEmpty
  | nameTooLong
  | nulInName
  | notText
  | stated (text : String)
deriving DecidableEq, Repr

namespace DiskError

def words : DiskError → String
  | notFound => "No such file or directory"
  | denied => "Permission denied"
  | taken => "File exists"
  | notFolder => "Not a directory"
  | isFolder => "Is a directory"
  | invalid => "Invalid argument"
  | nameTooLong => "File name too long"
  | notEmpty => "Directory not empty"
  | nulInName => "file name contained an unexpected NUL byte"
  | notText => "stream did not contain valid UTF-8"
  | stated text => text

/-- The number of an error that the system itself reports. -/
def number? : DiskError → Option Nat
  | notFound => some 2
  | denied => some 13
  | taken => some 17
  | notFolder => some 20
  | isFolder => some 21
  | invalid => some 22
  | nameTooLong => some 36
  | notEmpty => some 39
  | nulInName | notText | stated _ => none

def message (e : DiskError) : String :=
  match e.number? with
  | some n => s!"{e.words} (os error {n})"
  | none => e.words

end DiskError

end LogWatch
