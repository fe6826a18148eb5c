import SkitPage.Path

/-!
# Places on a disk

A place is a text with slashes that leads from the top of a disk to a file or a directory. A path is
turned into a place by appending its segments one after the other to the place of a root directory. A
segment that begins with a slash starts again at the top, and an empty segment leaves a slash at the
end.

Key definitions: `Place.join`, `Place.resolve`, `Place.components`, `Place.enclosing`, `Place.lexical`.
-/

namespace SkitPage.Place

/-- Append a segment to a place. -/
def join (place segment : List Char) : List Char :=
  if ['/'].isPrefixOf segment then segment
  else if place.isEmpty ∨ place.getLast? = some '/' then place ++ segment
  else place ++ '/' :: segment

/-- The place of a path below a root. -/
def resolve (root : List Char) (path : Path) : List Char :=
  path.segments.foldl (fun place segment => join place segment.toList) root

/-- The parts of a text between slashes. -/
def pieces : List Char → List (List Char)
  | [] => [[]]
  | c :: cs =>
    if c = '/' then [] :: pieces cs
    else match pieces cs with
      | [] => [[c]]
      | p :: ps => (c :: p) :: ps

/-- The names on the way to a place. Several slashes count as one. -/
def components (place : List Char) : List String :=
  ((pieces place).filter (!·.isEmpty)).map String.ofList

/-- Whether the place has to be a directory because of a slash at its end. -/
def endsInSlash (place : List Char) : Bool := place.getLast? = some '/'

/-- Whether a part between slashes leads nowhere: it is empty or a single dot. -/
def isIdle (piece : List Char) : Bool := piece.isEmpty || piece = ['.']

/-- The places from the one whose parts are given backwards out to the top, which is left out. None of them
ends in a part that leads nowhere. -/
def outwards : List (List Char) → List (List Char)
  | [] => []
  | piece :: outer =>
    if isIdle piece then outwards outer
    else ['/'].intercalate (piece :: outer).reverse :: outwards outer

/-- The directory that a place is in, and those that it is in in turn; the top is left out. -/
def enclosing (place : List Char) : List (List Char) := (outwards (pieces place).reverse).drop 1

/-- One step of the way, without looking at the disk; the way so far is given backwards. -/
def stepLexically (way : List String) (name : String) : List String :=
  if name = "." then way else if name = ".." then way.drop 1 else name :: way

/-- Where a way leads if `.` and `..` are taken as text. -/
def lexical (names : List String) : List String := (names.foldl stepLexically []).reverse

end SkitPage.Place
