import SkitPage.OrderedMap
import SkitPage.Storage.Basic
import SkitPage.Storage.Place

/-!
# Stores on a disk

A disk is a tree of directories with files in them, and a store on it keeps everything at places
resolved from a root directory. A way is walked name by name, so that the first obstacle on it decides
the error. Writing a file makes the directories that it is to be in.

Key definitions: `Disk`, `Disk.walk`, `Disk.readBytes`, `Disk.storeBytes`, `Disk.writeBytes`.
-/

namespace SkitPage

/-- What may be at a place. -/
inductive DiskNode
  | directory
  | file (bytes : List UInt8)
deriving DecidableEq, Repr

/-- A disk, and the directory on it that a store is rooted in. -/
structure Disk where
  /-- The names on the way to the root directory. -/
  root : List String
  /-- What is on the disk, by the names on the way to it. The top itself is always a directory. -/
  nodes : OrderedMap (List String) DiskNode
deriving DecidableEq, Repr

namespace Disk

/-- The most bytes that a name may have. -/
def maxName : Nat := 255

/-- A place has to have fewer bytes than this. -/
def placeLimit : Nat := 4096

/-- A disk with an empty root directory and nothing else. -/
def fresh : Disk :=
  ⟨["tmp", "skit"], .ofList [(["tmp"], .directory), (["tmp", "skit"], .directory)]⟩

/-- What is at the end of a way. -/
def node? (d : Disk) (way : List String) : Option DiskNode :=
  if way.isEmpty then some .directory else d.nodes.get? way

/-! ### Walking -/

/-- One step from a directory; the way so far may not end at a file. -/
def enter (d : Disk) (way : List String) (name : String) : Except IoError (List String) :=
  if d.node? way ≠ some .directory then .error .notDirectory
  else if name = "." then .ok way
  else if name = ".." then .ok way.dropLast
  else if maxName < name.utf8ByteSize then .error .nameTooLong
  else if (d.node? (way ++ [name])).isSome then .ok (way ++ [name])
  else .error .missing

/-- Follow names from the top. -/
def walk (d : Disk) (names : List String) : Except IoError (List String) :=
  names.foldlM d.enter []

/-- Places that are refused before any walk. -/
def screen (place : List Char) : Except IoError Unit :=
  if place.contains '\x00' then .error .zeroInName
  else if placeLimit ≤ (String.ofList place).utf8ByteSize then .error .nameTooLong
  else .ok ()

/-- The names as a place. -/
def placeOf (names : List String) : List Char := names.flatMap fun n => '/' :: n.toList

/-- The bytes of the file at a place. -/
def readAt (d : Disk) (place : List Char) : Except IoError (List UInt8) := do
  screen place
  let way ← d.walk (Place.components place)
  match d.node? way with
  | some (.file bytes) => if Place.endsInSlash place then .error .notDirectory else return bytes
  | _ => .error .isDirectory

/-! ### Making and changing -/

/-- Make one directory. -/
def makeDirectory (d : Disk) (place : List Char) : Except IoError Disk := do
  screen place
  let names := Place.components place
  match names.getLast? with
  | none => .error .alreadyExists
  | some name =>
    let way ← d.walk names.dropLast
    if d.node? way ≠ some .directory then .error .notDirectory
    else if name = "." ∨ name = ".." then .error .alreadyExists
    else if maxName < name.utf8ByteSize then .error .nameTooLong
    else if (d.node? (way ++ [name])).isSome then .error .alreadyExists
    else return { d with nodes := d.nodes.insert (way ++ [name]) .directory }

/-- Whether a place is that of a directory. -/
def isDirectoryAt (d : Disk) (place : List Char) : Bool :=
  match screen place, d.walk (Place.components place) with
  | .ok _, .ok way => d.node? way = some .directory
  | _, _ => false

/-- Make a directory and those that it is to be in; the innermost is given first. What was made before an
obstacle stays. -/
def makeDirectories (d : Disk) : List (List Char) → Except IoError Unit × Disk
  | [] => (.ok (), d)
  | place :: outer =>
    match d.makeDirectory place with
    | .ok made => (.ok (), made)
    | .error .missing =>
      match d.makeDirectories outer with
      | (.error e, d) => (.error e, d)
      | (.ok _, d) => match d.makeDirectory place with
        | .ok made => (.ok (), made)
        | .error e => if d.isDirectoryAt place then (.ok (), d) else (.error e, d)
    | .error e => if d.isDirectoryAt place then (.ok (), d) else (.error e, d)

/-- Put bytes into the file at a place, in a directory that is already there. -/
def storeAt (d : Disk) (place : List Char) (bytes : List UInt8) : Except IoError Disk := do
  screen place
  let names := Place.components place
  match names.getLast? with
  | none => .error .isDirectory
  | some name =>
    let way ← d.walk names.dropLast
    if d.node? way ≠ some .directory then .error .notDirectory
    else if name = "." ∨ name = ".." ∨ Place.endsInSlash place then .error .isDirectory
    else if maxName < name.utf8ByteSize then .error .nameTooLong
    else if d.node? (way ++ [name]) = some .directory then .error .isDirectory
    else return { d with nodes := d.nodes.insert (way ++ [name]) (.file bytes) }

/-! ### Paths below the root -/

/-- The place of a path. -/
def place (d : Disk) (path : Path) : List Char := Place.resolve (placeOf d.root) path

/-- The bytes of the file at a path. -/
def readBytes (d : Disk) (path : Path) : Except IoError (List UInt8) := d.readAt (d.place path)

/-- The text of the file at a path. -/
def readText (d : Disk) (path : Path) : Except IoError String := do
  let bytes ← d.readBytes path
  match String.fromUTF8? ⟨bytes.toArray⟩ with
  | some text => return text
  | none => .error .notText

/-- Put bytes at a path, in a directory that is already there. -/
def storeBytes (d : Disk) (path : Path) (bytes : List UInt8) : Except IoError Unit × Disk :=
  match d.storeAt (d.place path) bytes with
  | .ok stored => (.ok (), stored)
  | .error e => (.error e, d)

/-- Write bytes at a path, in directories that are made if need be. -/
def writeBytes (d : Disk) (path : Path) (bytes : List UInt8) : Except IoError Unit × Disk :=
  match d.makeDirectories (Place.enclosing (d.place path)) with
  | (.error e, d) => (.error e, d)
  | (.ok _, d) => d.storeBytes path bytes

/-- Write a text at a path. -/
def writeText (d : Disk) (path : Path) (text : String) : Except IoError Unit × Disk :=
  d.writeBytes path text.toUTF8.data.toList

/-- Make the directory at a path. -/
def makeDirectoriesAt (d : Disk) (path : Path) : Except IoError Unit × Disk :=
  d.makeDirectories (d.place path :: Place.enclosing (d.place path))

/-- Take the file at a path away; whether there was one. -/
def remove (d : Disk) (path : Path) : Bool × Disk :=
  match d.readBytes path, d.walk (Place.components (d.place path)) with
  | .ok _, .ok way => (true, { d with nodes := d.nodes.erase way })
  | _, _ => (false, d)

/-- The names of the files below the root, in increasing order. -/
def files (d : Disk) : List String :=
  let names := d.nodes.entries.filterMap fun e => match e.2 with
    | .file _ =>
      if d.root.isPrefixOf e.1 then some ("/".intercalate (e.1.drop d.root.length)) else none
    | .directory => none
  names.mergeSort fun a b => decide (a ≤ b)

end Disk

instance : Storage Disk where
  view := Disk.readText
  charge d _ := d
  write := Disk.writeText

end SkitPage
