import SkitPage.OrderedMap
import SkitPage.Storage.Basic

/-!
# Stores in memory

A store in memory maps paths to texts. It counts how often each path was read, whether or not there was
anything, and how often it was written to. Texts that are put in place from outside are not counted.

Key definitions: `MemoryStore`, `MemoryStore.read`, `MemoryStore.write`.
-/

namespace SkitPage

/-- Texts by path, with counts of what was done. -/
structure MemoryStore where
  /-- The texts. -/
  files : OrderedMap Path String := .empty
  /-- How often a path was read, for paths that were. -/
  reads : OrderedMap Path Nat := .empty
  /-- How often something was written. -/
  writes : Nat := 0
deriving DecidableEq, Repr

namespace MemoryStore

/-- A store with nothing in it. -/
def empty : MemoryStore := {}

/-- Put a text in place, uncounted. -/
def put (s : MemoryStore) (path : Path) (text : String) : MemoryStore :=
  { s with files := s.files.insert path text }

/-- Take a text away, uncounted. -/
def remove (s : MemoryStore) (path : Path) : MemoryStore := { s with files := s.files.erase path }

/-- The text at a path, uncounted. -/
def get? (s : MemoryStore) (path : Path) : Option String := s.files.get? path

/-- How often a path was read. -/
def readsOf (s : MemoryStore) (path : Path) : Nat := (s.reads.get? path).getD 0

/-- Count a read. -/
def noteRead (s : MemoryStore) (path : Path) : MemoryStore :=
  { s with reads := s.reads.insert path (s.readsOf path + 1) }

/-- The text at a path, or an error. -/
def view (s : MemoryStore) : Files := fun path =>
  match s.get? path with
  | some text => .ok text
  | none => .error (.noFile path)

/-- Read a text. -/
def read (s : MemoryStore) (path : Path) : Except IoError String × MemoryStore :=
  (s.view path, s.noteRead path)

/-- Write a text. -/
def write (s : MemoryStore) (path : Path) (text : String) : MemoryStore :=
  { s.put path text with writes := s.writes + 1 }

end MemoryStore

instance : Storage MemoryStore where
  view := MemoryStore.view
  charge s paths := paths.foldl MemoryStore.noteRead s
  write s path text := (.ok (), s.write path text)

end SkitPage
