import LogWatch.Disk
import LogWatch.Node.LogName

/-!
The small programs that scripts call: each reads its arguments and its input, may change the disk,
and ends at once with what it wrote and its status.
-/

namespace LogWatch.Script

structure Said where
  disk : Disk
  out : Bytes
  err : Bytes
  status : Nat

namespace Said

def ok (d : Disk) (out : Bytes) : Said := ⟨d, out, [], 0⟩

def fail (d : Disk) (message : String) (status : Nat) : Said :=
  ⟨d, [], Text.encode (message ++ "\n"), status⟩

/-- Goes on with another argument; the worst status is kept. -/
def andThen (s : Said) (f : Disk → Said) : Said :=
  let t := f s.disk
  ⟨t.disk, s.out ++ t.out, s.err ++ t.err, max s.status t.status⟩

end Said

namespace Tools

def inQuotes (s : String) : String := "'" ++ s ++ "'"

/-- A path as seen from the folder in which a script runs. -/
def seenFrom (dir path : String) : String :=
  if Path.isRooted path then path else Path.join dir path

def isOctal (c : Char) : Bool := '0' ≤ c && c ≤ '7'

/-- What the letter after a backslash stands for. -/
def letters : List (Char × Char) :=
  [('a', '\x07'), ('b', '\x08'), ('f', '\x0c'), ('n', '\n'), ('r', '\r'), ('t', '\t'),
    ('v', '\x0b'), ('\\', '\\')]

/-- Text with its backslashes read; the flag says that nothing may follow it. -/
def unescape : Nat → List Char → Bytes × Bool
  | 0, s => (Text.encode (String.ofList s), false)
  | _, [] => ([], false)
  | _, '\\' :: 'c' :: _ => ([], true)
  | n + 1, '\\' :: '0' :: s =>
    let digits := (s.takeWhile isOctal).take 3
    let (rest, ended) := unescape n (s.drop digits.length)
    (UInt8.ofNat (Text.value 8 digits) :: rest, ended)
  | n + 1, '\\' :: c :: s =>
    let (rest, ended) := unescape n s
    match letters.lookup c with
    | some e => (Text.encode e.toString ++ rest, ended)
    | none => (Text.encode (String.ofList ['\\', c]) ++ rest, ended)
  | n + 1, c :: s =>
    let (rest, ended) := unescape n s
    (Text.encode c.toString ++ rest, ended)

def echo (d : Disk) (args : List String) : Said :=
  let (args, newline) := match args with
    | "-n" :: args => (args, false)
    | args => (args, true)
  let text := " ".intercalate args
  let (out, ended) := unescape (text.length + 1) text.toList
  .ok d (out ++ if newline && !ended then [10] else [])

/-- A format filled once, and the arguments that it left. -/
def filled : Nat → List Char → List String → Bytes × List String
  | 0, _, args => ([], args)
  | _, [], args => ([], args)
  | n + 1, '%' :: '%' :: s, args =>
    let (rest, args) := filled n s args
    (Text.encode "%" ++ rest, args)
  | n + 1, '%' :: c :: s, args =>
    let value := args.headD (if c = 'd' || c = 'i' || c = 'u' then "0" else "")
    let shown := if c = 'b' then (unescape (value.length + 1) value.toList).1
      else if c = 'c' then Text.encode (String.ofList (value.toList.take 1))
      else Text.encode value
    let (rest, args) := filled n s args.tail
    (shown ++ rest, args)
  | n + 1, '\\' :: c :: s, args =>
    let digits := ((c :: s).takeWhile isOctal).take 3
    if digits.isEmpty then
      let (rest, args) := filled n s args
      (Text.encode ((letters.lookup c).elim (String.ofList ['\\', c]) (·.toString)) ++ rest, args)
    else
      let (rest, args) := filled n ((c :: s).drop digits.length) args
      (UInt8.ofNat (Text.value 8 digits) :: rest, args)
  | n + 1, c :: s, args =>
    let (rest, args) := filled n s args
    (Text.encode c.toString ++ rest, args)

/-- Fills a format as often as there are arguments left for it. -/
def formatted : Nat → List Char → List String → Bytes
  | 0, _, _ => []
  | n + 1, s, args =>
    let (out, rest) := filled (s.length + 1) s args
    if rest.isEmpty || rest.length = args.length then out else out ++ formatted n s rest

/-- A moment, in seconds since the start of 1970, as the letters of a format write it. -/
def dated (seconds : Nat) : List Char → String
  | '%' :: c :: s =>
    let date := LogName.Date.ofDays (seconds / 86400)
    let pair (n : Nat) : String := LogName.padded 2 n
    let shown := match c with
      | 'Y' => LogName.padded 4 date.year
      | 'm' => pair date.month
      | 'd' => pair date.day
      | 'H' => pair (seconds % 86400 / 3600)
      | 'M' => pair (seconds / 60 % 60)
      | 'S' => pair (seconds % 60)
      | 's' => toString seconds
      | '%' => "%"
      | c => String.ofList ['%', c]
    shown ++ dated seconds s
  | c :: s => c.toString ++ dated seconds s
  | [] => ""

/-- The time of day and the day, in the zone without an offset, which is the only one. -/
def date (d : Disk) (seconds : Nat) (args : List String) : Said :=
  match (args.filter (· ≠ "-u")).map String.toList with
  | ['+' :: format] => .ok d (Text.encode (dated seconds format ++ "\n"))
  | [] => .ok d (Text.encode (dated seconds "%Y-%m-%d %H:%M:%S UTC\n".toList))
  | a :: _ => .fail d s!"date: invalid date {inQuotes (String.ofList a)}" 1

def cat (d : Disk) (dir : String) (input : Bytes) (args : List String) : Said :=
  (if args.isEmpty then ["-"] else args).foldl (fun said a =>
    said.andThen fun d =>
      if a = "-" then .ok d input
      else match d.read (seenFrom dir a) with
        | .ok bytes => .ok d bytes
        | .error e => .fail d s!"cat: {a}: {e.words}" 1) (.ok d [])

/-- One change of the disk for each argument. -/
def change (d : Disk) (dir : String) (args : List String)
    (f : Disk → String → Disk × Except DiskError Unit)
    (complaint : String → DiskError → String) : Said :=
  args.foldl (fun said a =>
    said.andThen fun d =>
      match f d (seenFrom dir a) with
      | (d, .ok _) => .ok d []
      | (d, .error e) => .fail d (complaint a e) 1) (.ok d [])

/-- A change that leaves the disk as it was if it fails. -/
def attempt (d : Disk) (r : Except DiskError Disk) : Disk × Except DiskError Unit :=
  match r with
  | .ok d => (d, .ok ())
  | .error e => (d, .error e)

/-- Options first, then operands. -/
def options (args : List String) : List Char × List String :=
  let given := args.takeWhile fun a => a.toList.head? = some '-' && a ≠ "-"
  ((given.flatMap fun a => a.toList.tail), args.drop given.length)

def rm (d : Disk) (dir : String) (args : List String) : Said :=
  let (flags, args) := options args
  let force := flags.contains 'f'
  let deep := flags.contains 'r' || flags.contains 'R'
  change d dir args
    (fun d a =>
      match d.remove a with
      | .error .isFolder => if deep then d.removeDir a else (d, .error .isFolder)
      | .error .notFound => (d, if force then .ok () else .error .notFound)
      | r => attempt d r)
    fun a e => s!"rm: cannot remove {inQuotes a}: {e.words}"

def mkdir (d : Disk) (dir : String) (args : List String) : Said :=
  let (flags, args) := options args
  let make (d : Disk) (a : String) : Disk × Except DiskError Unit :=
    if flags.contains 'p' then d.makeDir a
    else match d.find a, d.place a with
      | .ok _, _ => (d, .error .taken)
      | .error _, .ok _ => d.makeDir a
      | .error _, .error e => (d, .error e)
  change d dir args make fun a e => s!"mkdir: cannot create directory {inQuotes a}: {e.words}"

def touch (d : Disk) (dir : String) (args : List String) : Said :=
  change d dir args (fun d a => attempt d (if d.isThere a then .ok d else d.append a []))
    fun a e => s!"touch: cannot touch {inQuotes a}: {e.words}"

/-- The target of a move or a copy: inside it, if it is a folder. -/
def target (d : Disk) (source goal : String) : String :=
  match d.find goal, (Path.steps source).getLast? with
  | .ok id, some name => if d.isFolder id then Path.join goal name else goal
  | _, _ => goal

def mv (d : Disk) (dir : String) (args : List String) : Said :=
  match (options args).2.map (seenFrom dir) with
  | [a, b] =>
    match d.rename a (target d a b) with
    | .ok d => .ok d []
    | .error e => .fail d s!"mv: cannot move {inQuotes a} to {inQuotes b}: {e.words}" 1
  | _ => .fail d "mv: missing file operand" 1

def cp (d : Disk) (dir : String) (args : List String) : Said :=
  match (options args).2.map (seenFrom dir) with
  | [a, b] =>
    match d.read a with
    | .error e => .fail d s!"cp: cannot stat {inQuotes a}: {e.words}" 1
    | .ok bytes =>
      match d.write (target d a b) bytes with
      | .ok d => .ok d []
      | .error e => .fail d s!"cp: cannot create regular file {inQuotes b}: {e.words}" 1
  | _ => .fail d "cp: missing file operand" 1

/-- Whether a condition holds, if it is one. -/
def holds? (d : Disk) (dir : String) : List String → Option Bool
  | [] => some false
  | [a] => some (a ≠ "")
  | "!" :: rest => (holds? d dir rest).map not
  | ["-n", a] => some (a ≠ "")
  | ["-z", a] => some (a = "")
  | [op, a] =>
    let entry := (d.find (seenFrom dir a)).toOption
    match op with
    | "-e" | "-r" | "-w" => some entry.isSome
    | "-f" => some (entry.any fun id => !d.isFolder id)
    | "-d" | "-x" => some (entry.any d.isFolder)
    | "-s" => some (entry.any (d.size · > 0))
    | "-t" | "-L" | "-h" | "-p" | "-S" => some false
    | _ => none
  | [a, op, b] =>
    let compared (f : Int → Int → Bool) : Option Bool := do
      return f (← Text.integer? a.toList) (← Text.integer? b.toList)
    match op with
    | "=" | "==" => some (a = b)
    | "!=" => some (a ≠ b)
    | "-eq" => compared (· = ·)
    | "-ne" => compared (· ≠ ·)
    | "-lt" => compared (· < ·)
    | "-le" => compared (· ≤ ·)
    | "-gt" => compared (· > ·)
    | "-ge" => compared (· ≥ ·)
    | _ => none
  | _ => none

def test (d : Disk) (dir : String) (args : List String) : Said :=
  match holds? d dir args with
  | some true => .ok d []
  | some false => ⟨d, [], [], 1⟩
  | none => .fail d "test: unexpected operator" 2

end Tools

/-- What a tool says, if there is one of that name. -/
def tool? (d : Disk) (dir : String) (input : Bytes) (name : String) (args : List String) :
    Option Said :=
  match name with
  | ":" | "true" => some (.ok d [])
  | "false" => some ⟨d, [], [], 1⟩
  | "pwd" => some (.ok d (Text.encode (dir ++ "\n")))
  | "echo" => some (Tools.echo d args)
  | "printf" =>
    match args with
    | format :: args => some (.ok d (Tools.formatted (args.length + 1) format.toList args))
    | [] => some (.fail d "printf: usage: printf format [arg ...]" 2)
  | "cat" => some (Tools.cat d dir input args)
  | "rm" => some (Tools.rm d dir args)
  | "mkdir" => some (Tools.mkdir d dir args)
  | "rmdir" =>
    some (Tools.change d dir args
      (fun d a => if d.count? a = some 0 || d.count? a = none then d.removeDir a
        else (d, .error .notEmpty))
      fun a e => s!"rmdir: failed to remove {Tools.inQuotes a}: {e.words}")
  | "touch" => some (Tools.touch d dir args)
  | "mv" => some (Tools.mv d dir args)
  | "cp" => some (Tools.cp d dir args)
  | "test" => some (Tools.test d dir args)
  | "[" =>
    if args.getLast? = some "]" then some (Tools.test d dir args.dropLast)
    else some (.fail d "[: missing ]" 2)
  | _ => none

end LogWatch.Script
