import LogWatch.Disk

/-!
Reading a log file line by line while it grows. The reader keeps its own place in the file, a
buffer of bytes already taken and the fragment of a line that is not complete yet, so whatever is
written later completes it. `next` gives the next complete line without its newline and without
one carriage return before it, or nothing at the end of what is written.
-/

namespace LogWatch

structure Reader where
  path : String
  file : Nat
  /-- The place in the file from which the buffer is filled. -/
  position : Nat
  buffer : Bytes
  /-- How many bytes have been handed out of the buffer, counted from the start of the file. -/
  offset : Nat
  fragment : Bytes
deriving DecidableEq, Repr

namespace Reader

def bufferSize : Nat := 8192

def newline : UInt8 := 10
def carriageReturn : UInt8 := 13

/-- Opens the file at a path, to read from its end or from its start. -/
def openAt (d : Disk) (path : String) (fromEnd : Bool) : Except DiskError Reader := do
  let file ← d.find path
  let start := if fromEnd then d.size file else 0
  return ⟨path, file, start, [], start, []⟩

/-- Everything up to and with the first newline, and the rest; nothing without a newline. -/
def cutLine : Bytes → Option (Bytes × Bytes)
  | [] => none
  | b :: bytes =>
    if b = newline then some ([b], bytes)
    else (cutLine bytes).map fun (line, rest) => (b :: line, rest)

/-- A complete raw line without its end. -/
def trimEnd (line : Bytes) : Bytes :=
  let line := line.dropLast
  if line.getLast? = some carriageReturn then line.dropLast else line

/-- How far the lines that are complete reach in the file. -/
def consumed (r : Reader) : Nat := r.offset - r.fragment.length

/-- The bytes of the file that the reader has not taken yet. -/
def ahead (r : Reader) (d : Disk) : Bytes := (d.bytes r.file).drop r.position

/-- How many bytes the buffer takes from a file that has `available` ahead when it is filled
until `wanted` of them have been taken. -/
def taken (wanted available : Nat) : Nat :=
  min available ((wanted + bufferSize - 1) / bufferSize * bufferSize)

/-- The next complete raw line, end included, or nothing if there is none yet. -/
def nextRaw (r : Reader) (d : Disk) : Except DiskError (Reader × Option Bytes) :=
  match cutLine r.buffer with
  | some (line, rest) =>
    .ok ({ r with buffer := rest, offset := r.offset + line.length, fragment := [] },
      some (r.fragment ++ line))
  | none =>
    if d.isFolder r.file then .error .isFolder
    else
      let ahead := r.ahead d
      match cutLine ahead with
      | some (line, _) =>
        let taken := taken line.length ahead.length
        .ok ({ r with
            position := r.position + taken
            buffer := (ahead.take taken).drop line.length
            offset := r.offset + r.buffer.length + line.length
            fragment := [] },
          some (r.fragment ++ r.buffer ++ line))
      | none =>
        .ok ({ r with
            position := r.position + ahead.length
            buffer := []
            offset := r.offset + r.buffer.length + ahead.length
            fragment := r.fragment ++ r.buffer ++ ahead },
          none)

/-- The next complete line as text, or nothing if there is none yet. -/
def next (r : Reader) (d : Disk) : Except DiskError (Reader × Option String) := do
  let (r, line) ← r.nextRaw d
  return (r, line.map fun line => Text.decodeLossy (trimEnd line))

/-- The bytes that the reader can still hand out. -/
def unread (r : Reader) (d : Disk) : Nat := r.buffer.length + (r.ahead d).length

/-- All lines that are complete by now. -/
def drain (r : Reader) (d : Disk) : Except DiskError (Reader × List String) :=
  go (r.unread d) r []
where
  go : Nat → Reader → List String → Except DiskError (Reader × List String)
    | 0, r, lines => do
      let (r, _) ← r.next d
      return (r, lines.reverse)
    | n + 1, r, lines => do
      match ← r.next d with
      | (r, some line) => go n r (line :: lines)
      | (r, none) => return (r, lines.reverse)

end Reader

end LogWatch
