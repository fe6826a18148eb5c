import SkitPage.Drawing.Matrix

/-!
# Boxes

Boxes with sides along the axes, which are also what is known of where figures are. The ways between the sides
of a box have to be numbers of single precision themselves, so that not every two boxes have one around them.

Key definitions: `Drawing.Box`, `Drawing.Box.ofSides?`, `Drawing.Box.mapped?`, `Drawing.Box.around?`.
-/

namespace SkitPage.Drawing

/-- A box with sides along the axes. -/
structure Box where
  /-- The least `x`. -/
  left : Float32
  /-- The least `y`. -/
  top : Float32
  /-- The greatest `x`. -/
  right : Float32
  /-- The greatest `y`. -/
  bottom : Float32

namespace Box

/-- The box of nothing. -/
def nothing : Box := ⟨0, 0, 0, 0⟩

/-- How wide a box is. -/
def width (b : Box) : Float32 := b.right - b.left

/-- How high a box is. -/
def height (b : Box) : Float32 := b.bottom - b.top

/-- A way that is too long to be told. -/
def widest : Float := (Float32.ofBits 0x7f7fffff).toFloat

/-- Whether the way from one number to a greater one can be told. -/
def isWay (a b : Float32) : Bool :=
  a.isFinite && b.isFinite && a ≤ b && b.toFloat - a.toFloat < widest

/-- The box of its sides, if they are in order and can be told. -/
def ofSides? (left top right bottom : Float32) : Option Box :=
  if isWay left right && isWay top bottom then some ⟨left, top, right, bottom⟩ else none

/-- The least of some numbers. -/
def least (x : Float32) (xs : List Float32) : Float32 := xs.foldl (fun m x => if x < m then x else m) x

/-- The greatest of some numbers. -/
def greatest (x : Float32) (xs : List Float32) : Float32 := xs.foldl (fun m x => if m < x then x else m) x

/-- The box around the four corners after a transform, if it can be told. -/
def mapped? (m : Matrix) (b : Box) : Option Box :=
  let (x, y) := m.apply (b.left, b.top)
  let others := [(b.right, b.top), (b.right, b.bottom), (b.left, b.bottom)].map m.apply
  let xs := others.map (·.1)
  let ys := others.map (·.2)
  if (x :: y :: xs ++ ys).all Float32.isFinite then
    ofSides? (least x xs) (least y ys) (greatest x xs) (greatest y ys)
  else none

/-- The box around some boxes, if there are any and it can be told. -/
def around? : List Box → Option Box
  | [] => none
  | b :: bs =>
    ofSides? (least b.left (bs.map (·.left))) (least b.top (bs.map (·.top)))
      (greatest b.right (bs.map (·.right))) (greatest b.bottom (bs.map (·.bottom)))

end Box

end SkitPage.Drawing
