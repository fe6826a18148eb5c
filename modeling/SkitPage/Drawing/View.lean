import SkitPage.Drawing.Box

/-!
# The view of drawings

A drawing may say which box of its inside is to be seen. The box is then made as large as the drawing: so
that all of it is seen, or so that nothing is left empty, or in each direction for itself. Where there is
room left, or too little, it is put at the start, in the middle or at the end.

Key definitions: `Drawing.viewBox?`, `Drawing.Aspect`, `Drawing.Aspect.fit`.
-/

namespace SkitPage.Drawing

/-- How wide and high something is. -/
structure Extent where
  /-- The width. -/
  width : Float32
  /-- The height. -/
  height : Float32

/-- The extent of a box. -/
def Box.extent (b : Box) : Extent := ⟨b.width, b.height⟩

/-- The box that is to be seen: a corner, a width and a height. What comes after them does not matter. -/
def viewBox? (text : String) : Option Box := do
  let (x, rest) ← number? text.toList
  let (y, rest) ← number? (skipComma rest)
  let (width, rest) ← number? (skipComma rest)
  let (height, _) ← number? (skipComma rest)
  let (left, top) := (x.toFloat32, y.toFloat32)
  let (right, bottom) := (width.toFloat32 + left, height.toFloat32 + top)
  if 0 < width && 0 < height && left < right && top < bottom then Box.ofSides? left top right bottom
  else none

/-- Where in one direction something is put. -/
inductive Place
  | start
  | middle
  | stop
deriving DecidableEq, Repr

/-- The part of the room that is left before something. -/
def Place.share (p : Place) (room : Float32) : Float32 :=
  match p with
  | .start => 0
  | .middle => room / 2
  | .stop => room

/-- How a box is made as large as a drawing. -/
inductive Aspect
  /-- Each direction for itself. -/
  | stretched
  /-- Both directions alike; `covering` if nothing may be left empty. -/
  | kept (across down : Place) (covering : Bool)
deriving DecidableEq, Repr

namespace Aspect

/-- The place that three letters stand for. -/
def place? : List Char → Option Place
  | ['M', 'i', 'n'] => some .start
  | ['M', 'i', 'd'] => some .middle
  | ['M', 'a', 'x'] => some .stop
  | _ => none

/-- The letters, digits, dashes and underscores at the start of a text, and what comes after them. -/
def identifier (cs : List Char) : List Char × List Char :=
  let inside (c : Char) : Bool := c.isAlphanum || c = '-' || c = '_'
  (cs.takeWhile inside, cs.dropWhile inside)

/-- Whether a word says that nothing may be left empty; nothing said is that all is to be seen. -/
def covering? : List Char → Option Bool
  | [] => some false
  | ['m', 'e', 'e', 't'] => some false
  | ['s', 'l', 'i', 'c', 'e'] => some true
  | _ => none

/-- The text without a word at the start that only matters for pictures. -/
def withoutDefer? (cs : List Char) : Option (List Char) :=
  match "defer".toList.isPrefixOf cs, cs.drop 5 with
  | true, ' ' :: rest => some (skipBlanks rest)
  | true, _ => none
  | false, _ => some cs

/-- What a text says of how a box is made as large as a drawing. -/
def ofText? (text : String) : Option Aspect := do
  let cs ← withoutDefer? (skipBlanks text.toList)
  let (align, rest) := identifier cs
  let covering ← covering? (identifier (skipBlanks rest)).1
  match align with
  | ['n', 'o', 'n', 'e'] => return .stretched
  | ['x', a, b, c, 'Y', d, e, f] => return .kept (← place? [a, b, c]) (← place? [d, e, f]) covering
  | _ => none

/-- What it is where nothing is said. -/
def standard : Aspect := .kept .middle .middle false

/-- The transform from the inside of a drawing, of which a box is to be seen, to a size. -/
def fit (aspect : Aspect) (b : Box) (size : Extent) : Matrix :=
  let across := size.width / b.width
  let down := size.height / b.height
  match aspect with
  | .stretched => ⟨across, 0, 0, down, -b.left * across, -b.top * down⟩
  | .kept x y covering =>
    let least := if down < across then down else across
    let greatest := if across < down then down else across
    let scale := if covering then greatest else least
    ⟨scale, 0, 0, scale, -b.left * scale + x.share (size.width - b.width * scale),
      -b.top * scale + y.share (size.height - b.height * scale)⟩

end Aspect

end SkitPage.Drawing
