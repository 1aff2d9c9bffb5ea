import LogWatch.Text.Utf8
import LogWatch.Disk.Error
import LogWatch.Disk.Path

/-!
A disk: files and folders, each with an identity of its own. Folders give names to identities, so
a file keeps its bytes and its identity when it is renamed, and both outlive the removal of its
name for whoever still reads it. Identities are never given out twice.
-/

namespace LogWatch

abbrev Bytes := List UInt8

inductive Entry where
  | file (bytes : Bytes)
  | folder (up : Nat) (names : List (String × Nat))
deriving DecidableEq, Repr

/-- Entries by identity. Identity 0 is the working folder, 1 the folder that it lies in. -/
structure Disk where
  entries : Array Entry
deriving DecidableEq, Repr

namespace Disk

def home : Nat := 0

def empty : Disk := ⟨#[.folder 1 [], .folder 1 []]⟩

def get? (d : Disk) (id : Nat) : Option Entry := d.entries[id]?

def set (d : Disk) (id : Nat) (e : Entry) : Disk := ⟨d.entries.setIfInBounds id e⟩

/-- A disk with one more entry, and its identity. -/
def add (d : Disk) (e : Entry) : Disk × Nat := (⟨d.entries.push e⟩, d.entries.size)

def bytes (d : Disk) (id : Nat) : Bytes :=
  match d.get? id with
  | some (.file bytes) => bytes
  | _ => []

def folderSize : Nat := 4096

def size (d : Disk) (id : Nat) : Nat :=
  match d.get? id with
  | some (.file bytes) => bytes.length
  | _ => folderSize

def isFolder (d : Disk) (id : Nat) : Bool :=
  match d.get? id with
  | some (.folder _ _) => true
  | _ => false

def longestName : Nat := 255
def longestPath : Nat := 4096

/-- What a path cannot be used for at all. -/
def refuses (path : String) : Option DiskError :=
  if path.toList.contains '\x00' then some .nulInName
  else if longestPath ≤ path.utf8ByteSize then some .nameTooLong
  else if path = "" then some .notFound
  else none

def step (d : Disk) (id : Nat) (name : String) : Except DiskError Nat :=
  match d.get? id with
  | some (.folder up names) =>
    if name = "." then .ok id
    else if name = ".." then .ok up
    else if longestName < name.utf8ByteSize then .error .nameTooLong
    else match names.lookup name with
      | some id => .ok id
      | none => .error .notFound
  | _ => .error .notFolder

def walk (d : Disk) (id : Nat) (names : List String) : Except DiskError Nat :=
  names.foldlM d.step id

def origin (path : String) : Nat := if Path.isRooted path then 1 else home

/-- The identity that a path leads to. -/
def find (d : Disk) (path : String) : Except DiskError Nat :=
  match refuses path with
  | some e => .error e
  | none => d.walk (origin path) (Path.steps path)

/-- The folder that holds the last name of a path, and that name, for giving it to an entry. -/
def place (d : Disk) (path : String) : Except DiskError (Nat × String) := do
  if let some e := refuses path then throw e
  let steps := Path.steps path
  match steps.getLast? with
  | none => throw .isFolder
  | some last =>
    let names := steps.dropLast
    if last = "." && Path.isRooted path == false && steps.length > 1 then
      -- a trailing slash, or a dot: no file can be made of it
      let _ ← d.walk (origin path) names.dropLast
      throw .isFolder
    let folder ← d.walk (origin path) names
    if !d.isFolder folder then throw .notFolder
    if longestName < last.utf8ByteSize then throw .nameTooLong
    if last = "." || last = ".." then throw .isFolder
    return (folder, last)

/-- Gives a name in a folder to an identity, or takes it away. -/
def setName (d : Disk) (folder : Nat) (name : String) (id : Option Nat) : Disk :=
  match d.get? folder with
  | some (.folder up names) =>
    let others := names.filter (·.1 ≠ name)
    d.set folder (.folder up (match id with | some id => others ++ [(name, id)] | none => others))
  | _ => d

/-- The file at a path, made empty if there is none. -/
def openFile (d : Disk) (path : String) : Except DiskError (Disk × Nat) :=
  match d.find path with
  | .ok id => if d.isFolder id then .error .isFolder else .ok (d, id)
  | .error .notFound => do
    let (folder, name) ← d.place path
    let (d, id) := d.add (.file [])
    return (d.setName folder name (some id), id)
  | .error e => .error e

/-- Makes `bytes` the content of the file at a path. -/
def write (d : Disk) (path : String) (bytes : Bytes) : Except DiskError Disk := do
  let (d, id) ← d.openFile path
  return d.set id (.file bytes)

def appendTo (d : Disk) (id : Nat) (bytes : Bytes) : Disk :=
  match d.get? id with
  | some (.file old) => d.set id (.file (old ++ bytes))
  | _ => d

def append (d : Disk) (path : String) (bytes : Bytes) : Except DiskError Disk := do
  let (d, id) ← d.openFile path
  return d.appendTo id bytes

/-- Cuts the file at a path to a length, or fills it up with zeros. -/
def truncate (d : Disk) (path : String) (length : Nat) : Except DiskError Disk := do
  let id ← d.find path
  match d.get? id with
  | some (.file old) =>
    return d.set id (.file (old.take length ++ List.replicate (length - old.length) 0))
  | _ => throw .isFolder

def remove (d : Disk) (path : String) : Except DiskError Disk := do
  let id ← d.find path
  if d.isFolder id then throw .isFolder
  let (folder, name) ← d.place path
  return d.setName folder name none

/-- Whether folder `inner` is `outer` or lies in it; `depth` bounds the way up. -/
def within (d : Disk) (outer : Nat) : Nat → Nat → Bool
  | 0, inner => inner == outer
  | depth + 1, inner =>
    inner == outer || match d.get? inner with
      | some (.folder up _) => up != inner && d.within outer depth up
      | _ => false

/-- Gives the entry at a path another name; what had the name before loses it. -/
def rename (d : Disk) (old new : String) : Except DiskError Disk := do
  let (oldFolder, oldName) ← d.place old
  let (newFolder, newName) ← d.place new
  let id ← d.find old
  match d.find new with
  | .ok taken =>
    if taken = id then return d
    match d.get? id, d.get? taken with
    | some (.folder _ _), some (.file _) => throw .notFolder
    | some (.file _), some (.folder _ _) => throw .isFolder
    | some (.folder _ _), some (.folder _ names) => if !names.isEmpty then throw .notEmpty
    | _, _ => pure ()
  | .error _ => pure ()
  if d.within id d.entries.size newFolder then throw .invalid
  let d := (d.setName oldFolder oldName none).setName newFolder newName (some id)
  match d.get? id with
  | some (.folder _ names) => return d.set id (.folder newFolder names)
  | _ => return d

/-- Makes the folders of a way that are missing. -/
def makeFolders (d : Disk) (id : Nat) : List String → Disk × Except DiskError Nat
  | [] => (d, .ok id)
  | name :: names =>
    match d.step id name with
    | .ok next =>
      if d.isFolder next then d.makeFolders next names
      else (d, .error (if names.all (· = ".") then .taken else .notFolder))
    | .error .notFound =>
      let (d, next) := d.add (.folder id [])
      (d.setName id name (some next)).makeFolders next names
    | .error e => (d, .error e)

/-- Makes a folder and the folders that it lies in, as far as they are missing. -/
def makeDir (d : Disk) (path : String) : Disk × Except DiskError Unit :=
  if path = "" then (d, .ok ())
  else match refuses path with
    | some e => (d, .error e)
    | none =>
      let (d, made) := d.makeFolders (origin path) (Path.steps path)
      (d, made.map fun _ => ())

/-- Removes a folder with all that is in it. A path that ends in a dot names no entry of another
folder: what is in the folder goes, but the folder stays. -/
def removeDir (d : Disk) (path : String) : Disk × Except DiskError Unit :=
  match d.find path with
  | .error e => (d, .error e)
  | .ok id =>
    match d.get? id, Path.lastName path with
    | some (.folder up _), some "." => (d.set id (.folder up []), .error .invalid)
    | some (.folder _ _), some ".." => (d, .error .notEmpty)
    | some (.folder _ _), some name =>
      match d.walk (origin path) (Path.names path).dropLast with
      | .ok folder => (d.setName folder name none, .ok ())
      | .error e => (d, .error e)
    | some (.folder _ _), none => (d, .error .invalid)
    | _, _ => (d, .error .notFolder)

/-- How many entries a folder has. -/
def count? (d : Disk) (path : String) : Option Nat :=
  match d.find path with
  | .ok id =>
    match d.get? id with
    | some (.folder _ names) => some names.length
    | _ => none
  | .error _ => none

/-- The content of the file at a path. -/
def read (d : Disk) (path : String) : Except DiskError Bytes := do
  let id ← d.find path
  if d.isFolder id then throw .isFolder
  return d.bytes id

def isThere (d : Disk) (path : String) : Bool := (d.find path).isOk

end Disk

end LogWatch
