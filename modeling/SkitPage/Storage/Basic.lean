import SkitPage.Path

/-!
# Stores

A store holds the sources and receives the page. It is read through a view that stays the same until
something is written. A store that counts its reads is charged for them afterwards.

Key definitions: `IoError`, `Storage`, `Guarded`.
-/

namespace SkitPage

/-- Why a file cannot be read or written. -/
inductive IoError
  /-- A store in memory has nothing at the path. -/
  | noFile (path : Path)
  /-- The store does not take anything at the moment. -/
  | refused
  /-- Nothing is at the place. -/
  | missing
  /-- The bytes are not UTF-8. -/
  | notText
  /-- A directory is at the place. -/
  | isDirectory
  /-- The way leads through something that is no directory. -/
  | notDirectory
  /-- A file is where a directory should be made. -/
  | alreadyExists
  /-- A name is too long for the disk. -/
  | nameTooLong
  /-- A name holds the character zero. -/
  | zeroInName
deriving DecidableEq, Repr

/-- The wording of an input or output error. -/
def IoError.message : IoError → String
  | .noFile path => "File not found: " ++ path.display
  | .refused => "write refused"
  | .missing => "No such file or directory (os error 2)"
  | .notText => "stream did not contain valid UTF-8"
  | .isDirectory => "Is a directory (os error 21)"
  | .notDirectory => "Not a directory (os error 20)"
  | .alreadyExists => "File exists (os error 17)"
  | .nameTooLong => "File name too long (os error 36)"
  | .zeroInName => "file name contained an unexpected NUL byte"

/-- The texts at all paths, or why there is none. -/
abbrev Files := Path → Except IoError String

/-- What a build needs of a store. -/
class Storage (σ : Type) where
  /-- The texts in the store. -/
  view : σ → Files
  /-- The store after reads of the given paths. -/
  charge : σ → List Path → σ
  /-- Put a text at a path. -/
  write : σ → Path → String → Except IoError Unit × σ

/-- A store that can be told not to take anything. -/
structure Guarded (σ : Type) where
  /-- The store behind it. -/
  store : σ
  /-- Whether writes are refused. -/
  refusing : Bool := false

instance {σ : Type} [Storage σ] : Storage (Guarded σ) where
  view g := Storage.view g.store
  charge g paths := { g with store := Storage.charge g.store paths }
  write g path text :=
    if g.refusing then (.error .refused, g)
    else
      let (result, store) := Storage.write g.store path text
      (result, { g with store })

end SkitPage
