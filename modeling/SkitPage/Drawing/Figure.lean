import SkitPage.Drawing.Color
import SkitPage.Drawing.Document
import SkitPage.Drawing.View

/-!
# Figures

What a drawing shows: filled boxes, and groups of figures that are transformed together. Everything else in
a drawing is left out.

Key definitions: `Drawing.Figure`, `Drawing.Element.figures`, `Drawing.Figure.bounds`,
`Drawing.Figure.lines`.
-/

namespace SkitPage.Drawing

/-! ### Figures of elements -/

/-- A box that is filled with a colour or not seen, or several figures under a transform. -/
inductive Figure where
  | box (id : String) (fill : Option Color) (box : Box)
  | group (id : String) (matrix : Matrix) (parts : List Figure)

/-- The namespace of drawings. -/
def drawingSpace : String := "http://www.w3.org/2000/svg"

/-- The namespaces of attributes that mean something in a drawing. -/
def attributeSpaces : List String := [drawingSpace, "http://www.w3.org/1999/xlink", xmlSpace]

/-- Whether an element is one of drawings. -/
def FullName.isDrawn (n : FullName) : Bool := n.space.all (· = drawingSpace)

/-- The attributes that mean something in a drawing, by their names. -/
def drawnAttributes (as : List (FullName × String)) : List (String × String) :=
  as.filterMap fun (n, value) =>
    if n.space.all (attributeSpaces.contains ·) then some (n.name, value) else none

/-- Whether a length is more than nothing. -/
def isLength (x : Float32) : Bool := 0 < x && x.isFinite

/-- Figures under a transform: a group, or the figures alone if nothing is changed and there is no need for
a group. -/
def grouped (always : Bool) (id : String) (m : Matrix) (parts : List Figure) : List Figure :=
  if always || !m.isIdentity then [.group id m parts] else parts

/-- The box of a rectangle; one without extent is left out. -/
def rectangle? (whole : Extent) (as : List (String × String)) : Option Box :=
  let side (name : String) (whole : Float32) : Float32 :=
    ((as.lookup name).bind Length.ofText?).elim 0 (·.toUser whole)
  let width := side "width" whole.width
  let height := side "height" whole.height
  let left := side "x" whole.width
  let top := side "y" whole.height
  if isLength width && isLength height then Box.ofSides? left top (width + left) (height + top) else none

/-- The transform that an element has; one that cannot be read changes nothing. -/
def transformOf (as : List (String × String)) : Matrix :=
  ((as.lookup "transform").bind Matrix.ofText?).getD .identity

/-- The name of an element that other elements may speak of. -/
def idOf (as : List (String × String)) : String := (as.lookup "id").getD ""

/-- The fill that an element has, given the fill around it. -/
def fillIn (fill : Option Color) (as : List (String × String)) : Option Color :=
  match as.lookup "fill" with
  | none => fill
  | some text => if text = "inherit" then fill else fillOf text

mutual

/-- The figures that an element stands for, given the fill and the transform around it. Nothing is seen
under a transform that leaves nothing. -/
def Element.figures (whole : Extent) (fill : Option Color) (around : Matrix) : Element → List Figure
  | .node name attributes children _ =>
    let as := drawnAttributes attributes
    let m := transformOf as
    if !name.isDrawn || !m.isUsable then []
    else
      let fill := fillIn fill as
      let inside := around.mul m
      if name.name = "rect" then
        let boxes := (rectangle? whole as).filter fun b => (b.mapped? inside).isSome
        match boxes with
        | some b => grouped false "" m [.box (idOf as) fill b]
        | none => grouped false "" m []
      else if name.name = "g" ∨ name.name = "a" then
        grouped true (idOf as) m (Element.figuresOfAll whole fill inside children)
      else []

/-- The figures of several elements. -/
def Element.figuresOfAll (whole : Extent) (fill : Option Color) (around : Matrix) :
    List Element → List Figure
  | [] => []
  | e :: es => e.figures whole fill around ++ Element.figuresOfAll whole fill around es

end

/-- Where a figure is. -/
structure Bounds where
  /-- The box around it, for what it is part of. -/
  own : Box
  /-- The box around it as it is seen. -/
  seen : Box

/-- Where a group is, before its own transform and as it is seen, given where its parts are. If the one cannot
be told, the other is not either. -/
def Bounds.around (parts : List Bounds) : Bounds :=
  match Box.around? (parts.map (·.own)) with
  | none => ⟨.nothing, .nothing⟩
  | some own => ⟨own, (Box.around? (parts.map (·.seen))).getD .nothing⟩

mutual

/-- Where a figure is under a transform. -/
def Figure.bounds (around : Matrix) : Figure → Bounds
  | .box _ _ b => ⟨b, (b.mapped? around).getD .nothing⟩
  | .group _ m parts =>
    let inside := Bounds.around (Figure.boundsOfAll (around.mul m) parts)
    { inside with own := (inside.own.mapped? m).getD inside.own }

/-- Where several figures are under a transform. -/
def Figure.boundsOfAll (around : Matrix) : List Figure → List Bounds
  | [] => []
  | x :: xs => x.bounds around :: Figure.boundsOfAll around xs

end

/-! ### Text -/

/-- To how many decimal places numbers are written. -/
structure Places where
  /-- For coordinates. -/
  coordinates : Nat := 0
  /-- For the numbers of a matrix. -/
  transforms : Nat := 5
deriving DecidableEq, Repr

/-- The outline of a box. -/
def Box.outline (places : Nat) (b : Box) : String :=
  let point (x y : Float32) : String := roundedText places x ++ " " ++ roundedText places y
  "M " ++ point b.left b.top ++ " L " ++ point b.right b.top ++ " L " ++ point b.right b.bottom ++
    " L " ++ point b.left b.bottom ++ " Z"

/-- An attribute with the blank before it. -/
def attributeText (name value : String) : String := " " ++ name ++ "=\"" ++ value ++ "\""

/-- The attribute for the name of an element, if it has one. -/
def idText (id : String) : String :=
  if id.isEmpty then "" else attributeText "id" (id.replace "\"" "&quot;")

/-- The attributes for a fill. What is not filled is hidden. -/
def fillText : Option Color → String
  | none =>
    attributeText "fill" "none" ++ attributeText "stroke" "none" ++ attributeText "visibility" "hidden"
  | some c =>
    let cover := if c.cover = 255 then ""
      else attributeText "fill-opacity" (textOf (Float32.ofNat c.cover / 255))
    attributeText "fill" c.render ++ cover ++ attributeText "stroke" "none"

/-- A line further to the right. -/
def indented (line : String) : String := "    " ++ line

/-- The lines of an element. -/
def elementLines (name attributes : String) (content : List String) : List String :=
  let start := "<" ++ name ++ attributes
  if content.isEmpty then [start ++ "/>"]
  else [start ++ ">"] ++ content.map indented ++ ["</" ++ name ++ ">"]

mutual

/-- The lines of a figure. -/
def Figure.lines (places : Places) : Figure → List String
  | .box id fill b =>
    elementLines "path"
      (idText id ++ fillText fill ++ attributeText "d" (b.outline places.coordinates)) []
  | .group id m parts =>
    let transform :=
      if m.isIdentity then "" else attributeText "transform" (m.render places.transforms)
    elementLines "g" (idText id ++ transform) (Figure.linesOfAll places parts)

/-- The lines of several figures. -/
def Figure.linesOfAll (places : Places) : List Figure → List String
  | [] => []
  | x :: xs => x.lines places ++ Figure.linesOfAll places xs

end

end SkitPage.Drawing
