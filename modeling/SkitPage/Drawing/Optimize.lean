import SkitPage.Drawing.Figure

/-!
# Drawings made small

A drawing is read, everything that is not seen is dropped, and the rest is written as outlines with few
decimal places.

A drawing says how large it is, or in which box its inside is to be seen, or both. One that says too little is
as large as what it shows reaches to the right and down.

Key definitions: `Drawing`, `Drawing.ofText`, `Drawing.render`, `Drawing.optimize`.
-/

namespace SkitPage

/-- What a drawing shows, and how large it is. -/
structure Drawing where
  /-- How large it is. -/
  size : Drawing.Extent
  /-- What is shown. -/
  figures : List Drawing.Figure

namespace Drawing

/-! ### Size -/

/-- The width and the height that shares are of where nothing else is said. -/
def standardLength : Float32 := 100

/-- The size of two lengths that are more than nothing. -/
def Extent.ofLengths? (width height : Float32) : Option Extent :=
  if isLength width && isLength height then some ⟨width, height⟩ else none

/-- The width or the height that a drawing gives itself; nothing said is the whole. -/
def givenLength (as : List (String × String)) (name : String) : Length :=
  ((as.lookup name).bind Length.ofText?).getD ⟨100, .percent⟩

/-- The size that two lengths give a drawing; shares are of the box that is to be seen, if one is given. -/
def givenSize? (width height : Length) : Option Box → Option Extent
  | some b => Extent.ofLengths? (width.toSeen b.width) (height.toSeen b.height)
  | none => Extent.ofLengths? (width.toUser standardLength) (height.toUser standardLength)

/-- The size of a drawing that does not say it: as far as what it shows reaches, if it does. -/
def reach (size : Extent) (figures : List Figure) : Extent :=
  let seen := (Bounds.around (Figure.boundsOfAll .identity figures)).seen
  (Extent.ofLengths? seen.right seen.bottom).getD size

/-! ### Drawings of elements -/

/-- How deep elements may nest. -/
def maxDepth : Nat := 1024

/-- The elements that are looked into. -/
def containers : List String :=
  ["a", "circle", "clipPath", "defs", "ellipse", "feBlend", "feColorMatrix", "feComponentTransfer",
    "feComposite", "feConvolveMatrix", "feDiffuseLighting", "feDisplacementMap", "feDistantLight",
    "feDropShadow", "feFlood", "feFuncA", "feFuncB", "feFuncG", "feFuncR", "feGaussianBlur", "feImage",
    "feMerge", "feMergeNode", "feMorphology", "feOffset", "fePointLight", "feSpecularLighting",
    "feSpotLight", "feTile", "feTurbulence", "filter", "g", "image", "line", "linearGradient", "marker",
    "mask", "path", "pattern", "polygon", "polyline", "radialGradient", "rect", "stop", "svg", "switch",
    "symbol", "textPath", "tref", "tspan"]

mutual

/-- Whether something stands in an element `n` levels down. -/
def Element.reaches : Nat → Element → Bool
  | 0, _ => true
  | n + 1, .node name _ children mixed =>
    name.isDrawn && containers.contains name.name &&
      ((n = 0 && mixed) || Element.someReaches n children)

/-- Whether something stands in one of several elements `n` levels down. -/
def Element.someReaches : Nat → List Element → Bool
  | _, [] => false
  | n, e :: es => e.reaches n || Element.someReaches n es

end

/-- The drawing that a root element of the right kind stands for. -/
def ofRoot (as : List (String × String)) (children : List Element) : Except Fault Drawing :=
  let width := givenLength as "width"
  let height := givenLength as "height"
  let view := (as.lookup "viewBox").bind viewBox?
  match givenSize? width height view with
  | none => .error .size
  | some size =>
    let aspect := ((as.lookup "preserveAspectRatio").bind Aspect.ofText?).getD .standard
    let fit := view.elim .identity (aspect.fit · size)
    let m := transformOf as
    let figures := if !m.isUsable then []
      else grouped false "" fit
        (grouped false "" m
          (Element.figuresOfAll (view.elim size (·.extent)) (fillIn (some .black) as) (fit.mul m) children))
    let isOpen := view.isNone && (width.unit = .percent || height.unit = .percent)
    .ok ⟨if isOpen then reach size figures else size, figures⟩

/-- The drawing that a root element stands for. -/
def ofElement (root : Element) : Except Fault Drawing :=
  match root with
  | .node name attributes children _ =>
    if root.reaches (maxDepth + 1) then .error (.document .tooDeep)
    else if name.name ≠ "svg" ∨ !name.isDrawn then .error (.document .noRoot)
    else ofRoot (drawnAttributes attributes) children

/-- The drawing that a text holds. -/
def ofText (text : String) : Except Fault Drawing := do
  let root ← (document text.toList).mapError .document
  ofElement root

/-- The lines of a drawing. -/
def lines (places : Places) (d : Drawing) : List String :=
  elementLines "svg"
    (attributeText "width" (textOf d.size.width) ++ attributeText "height" (textOf d.size.height) ++
      attributeText "xmlns" drawingSpace)
    (Figure.linesOfAll places d.figures)

/-- The text of a drawing; every line is ended. -/
def render (places : Places) (d : Drawing) : String :=
  String.join ((d.lines places).map (· ++ "\n"))

/-- A drawing made small, or the message why it cannot be. -/
def optimize (places : Places) (text : String) : Except String String :=
  match ofText text with
  | .ok d => .ok (d.render places)
  | .error fault => .error (fault.message text.toList)

end Drawing

end SkitPage
