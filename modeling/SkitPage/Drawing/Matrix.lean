import SkitPage.Drawing.Number

/-!
# Transforms of drawings

A transform is a list of moves, scalings, turns and skews, which together make one matrix. It is computed
with double precision and kept with single precision.

Key definitions: `Drawing.Matrix`, `Drawing.Matrix.ofText?`, `Drawing.Matrix.mul`, `Drawing.Matrix.apply`,
`Drawing.Matrix.render`.
-/

namespace SkitPage.Drawing

/-- The map that takes `(x, y)` to `(a x + c y + e, b x + d y + f)`, over numbers of a given precision. -/
structure MatrixOf (R : Type) where
  /-- The factor of `x` in the new `x`. -/
  a : R
  /-- The factor of `x` in the new `y`. -/
  b : R
  /-- The factor of `y` in the new `x`. -/
  c : R
  /-- The factor of `y` in the new `y`. -/
  d : R
  /-- The move in the direction of `x`. -/
  e : R
  /-- The move in the direction of `y`. -/
  f : R

/-- A matrix as it is kept in a drawing. -/
abbrev Matrix := MatrixOf Float32

/-- A matrix as it is computed. -/
abbrev WideMatrix := MatrixOf Float

namespace WideMatrix

/-- The matrix that changes nothing. -/
def identity : WideMatrix := ⟨1, 0, 0, 1, 0, 0⟩

/-- First `n`, then `m`. -/
def mul (m n : WideMatrix) : WideMatrix where
  a := m.a * n.a + m.c * n.b
  b := m.b * n.a + m.d * n.b
  c := m.a * n.c + m.c * n.d
  d := m.b * n.c + m.d * n.d
  e := m.a * n.e + m.c * n.f + m.e
  f := m.b * n.e + m.d * n.f + m.f

/-- A move. -/
def translate (x y : Float) : WideMatrix := ⟨1, 0, 0, 1, x, y⟩

/-- An angle in radians. -/
def radians (degrees : Float) : Float := degrees * (3.14159265358979323846 / 180.0)

/-- A turn by an angle in degrees. -/
def rotate (degrees : Float) : WideMatrix :=
  let v := radians degrees
  ⟨v.cos, v.sin, -v.sin, v.cos, 0, 0⟩

/-- One transform by its name and numbers, as matrices to be multiplied from left to right. A turn about a
point is a turn between two moves. -/
def named? (name : String) (numbers : List Float) : Option (List WideMatrix) :=
  match name, numbers with
  | "matrix", [a, b, c, d, e, f] => some [⟨a, b, c, d, e, f⟩]
  | "translate", [x] => some [translate x 0]
  | "translate", [x, y] => some [translate x y]
  | "scale", [x] => some [⟨x, 0, 0, x, 0, 0⟩]
  | "scale", [x, y] => some [⟨x, 0, 0, y, 0, 0⟩]
  | "rotate", [angle] => some [rotate angle]
  | "rotate", [angle, x, y] => some [translate x y, rotate angle, translate (-x) (-y)]
  | "skewX", [angle] => some [⟨1, 0, (radians angle).tan, 1, 0, 0⟩]
  | "skewY", [angle] => some [⟨1, (radians angle).tan, 0, 1, 0, 0⟩]
  | _, _ => none

/-- Numbers up to a closing parenthesis; each use of fuel takes a character away. -/
def numbers? : Nat → List Char → Option (List Float × List Char)
  | 0, _ => none
  | fuel + 1, cs =>
    match skipBlanks cs with
    | ')' :: rest => some ([], rest)
    | cs => do
      let (x, rest) ← number? cs
      let (xs, rest) ← numbers? fuel (skipComma rest)
      return (x :: xs, rest)

/-- The transforms of a text, as one matrix after `m`; each use of fuel takes a character away. -/
def transforms? : Nat → WideMatrix → List Char → Option WideMatrix
  | 0, _, _ => none
  | fuel + 1, m, cs =>
    match skipBlanks cs with
    | [] => some m
    | cs => do
      let name := String.ofList (cs.takeWhile fun c => c.isAlphanum || c = '-' || c = '_')
      match skipBlanks (cs.dropWhile fun c => c.isAlphanum || c = '-' || c = '_') with
      | '(' :: rest =>
        let (xs, rest) ← numbers? (rest.length + 1) rest
        let ns ← named? name xs
        transforms? fuel (ns.foldl mul m) (skipComma rest)
      | _ => none

end WideMatrix

namespace Matrix

/-- The matrix of a list of transforms. -/
def ofText? (text : String) : Option Matrix :=
  let cs := text.toList
  (WideMatrix.transforms? (cs.length + 1) .identity cs).map fun m =>
    ⟨m.a.toFloat32, m.b.toFloat32, m.c.toFloat32, m.d.toFloat32, m.e.toFloat32, m.f.toFloat32⟩

/-- The matrix that changes nothing. -/
def identity : Matrix := ⟨1, 0, 0, 1, 0, 0⟩

/-- The numbers of a matrix in the order in which they are written. -/
def entries (m : Matrix) : List Float32 := [m.a, m.b, m.c, m.d, m.e, m.f]

/-- Whether neither direction has a part of the other. -/
def isStraight (m : Matrix) : Bool := m.b == 0 && m.c == 0

/-- Whether points are only moved. -/
def isMove (m : Matrix) : Bool := m.isStraight && m.a == 1 && m.d == 1

/-- Whether nothing is changed. -/
def isIdentity (m : Matrix) : Bool := m.isMove && m.e == 0 && m.f == 0

/-- A scale that counts as nothing. -/
def leastScale : Float32 := 1 / 8388608

/-- Whether something is left to be seen: all numbers are finite and no direction is scaled to nothing. -/
def isUsable (m : Matrix) : Bool :=
  m.entries.all Float32.isFinite && leastScale < (m.a * m.a + m.c * m.c).sqrt &&
    leastScale < (m.b * m.b + m.d * m.d).sqrt

/-- The sum of two products, rounded once. -/
def sumOfProducts (a b c d : Float32) : Float32 :=
  (a.toFloat * b.toFloat + c.toFloat * d.toFloat).toFloat32

/-- First `n`, then `m`. -/
def mul (m n : Matrix) : Matrix :=
  if m.isIdentity then n
  else if n.isIdentity then m
  else if m.isStraight && n.isStraight then
    ⟨m.a * n.a, 0, 0, m.d * n.d, m.a * n.e + m.e, m.d * n.f + m.f⟩
  else
    { a := sumOfProducts m.a n.a m.c n.b
      b := sumOfProducts m.b n.a m.d n.b
      c := sumOfProducts m.a n.c m.c n.d
      d := sumOfProducts m.b n.c m.d n.d
      e := sumOfProducts m.a n.e m.c n.f + m.e
      f := sumOfProducts m.b n.e m.d n.f + m.f }

/-- Where a point goes. -/
def apply (m : Matrix) (p : Float32 × Float32) : Float32 × Float32 :=
  let (x, y) := p
  if m.isMove then (x + m.e, y + m.f)
  else if m.isStraight then (x * m.a + m.e, y * m.d + m.f)
  else (x * m.a + y * m.c + m.e, x * m.b + y * m.d + m.f)

/-- The text of a matrix, its numbers rounded to a number of places. -/
def render (places : Nat) (m : Matrix) : String :=
  "matrix(" ++ " ".intercalate (m.entries.map (roundedText places)) ++ ")"

end Matrix

end SkitPage.Drawing
