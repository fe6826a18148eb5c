import SkitPage.Decimal.Shortest
import SkitPage.Drawing.Scan

/-!
# Numbers in drawings

Numbers are read as decimals with an optional fraction and exponent, and kept with single precision. A length
has a unit besides, and a share of a whole is one too. A coordinate is written rounded to a number of decimal
places, a half away from zero.

Key definitions: `Drawing.number?`, `Drawing.Length`, `Drawing.textOf`, `Drawing.roundedText`.
-/

namespace SkitPage.Drawing

/-! ### Reading -/

/-- The number that some digits are. -/
def natOf (digits : List Char) : Nat := digits.foldl (fun n c => 10 * n + (c.toNat - '0'.toNat)) 0

/-- A sign, and what comes after it; whether the sign is a minus. -/
def signed : List Char → Bool × List Char
  | '-' :: rest => (true, rest)
  | '+' :: rest => (false, rest)
  | rest => (false, rest)

/-- The exponent after a number, if there is one; `e` before a letter that makes a unit of it is none. -/
def exponent? : List Char → Option (Int × List Char)
  | c :: rest =>
    if c ≠ 'e' ∧ c ≠ 'E' then some (0, c :: rest)
    else if rest.head? = some 'm' ∨ rest.head? = some 'x' then some (0, c :: rest)
    else
      let (minus, rest) := signed rest
      let digits := rest.takeWhile Char.isDigit
      if digits.isEmpty then none
      else some (if minus then -(natOf digits : Int) else natOf digits, rest.dropWhile Char.isDigit)
  | [] => some (0, [])

/-- A power of ten beyond all doubles. -/
def farPower : Nat := 400

/-- The finite double nearest to `digits · 10^power`. -/
def ofDecimal? (digits : Nat) (power : Int) : Option Float :=
  let magnitude := power + (Nat.toDigits 10 digits).length
  if digits = 0 ∨ magnitude < -farPower then some 0
  else if farPower < magnitude then none
  else
    let value := match power with
      | .ofNat n => Float.ofScientific digits false n
      | .negSucc n => Float.ofScientific digits true (n + 1)
    if value.isFinite then some value else none

/-- The number at the start of a text, after blanks. -/
def number? (cs : List Char) : Option (Float × List Char) := do
  let (minus, cs) := signed (skipBlanks cs)
  let whole := cs.takeWhile Char.isDigit
  let rest := cs.dropWhile Char.isDigit
  let (fraction, rest) := match rest with
    | '.' :: after => (after.takeWhile Char.isDigit, after.dropWhile Char.isDigit)
    | rest => ([], rest)
  if whole.isEmpty ∧ fraction.isEmpty then none
  else
    let (power, rest) ← exponent? rest
    let value ← ofDecimal? (natOf (whole ++ fraction)) (power - fraction.length)
    some (if minus then -value else value, rest)

/-- Without a comma at the start, after blanks. -/
def skipComma (cs : List Char) : List Char :=
  match skipBlanks cs with
  | ',' :: rest => rest
  | rest => rest

/-! ### Lengths -/

/-- In what a length is given. -/
inductive LengthUnit
  /-- The units of the drawing itself. -/
  | user
  | inch
  | centimetre
  | millimetre
  | point
  | pica
  /-- The size of the letters. -/
  | letter
  /-- The height of a small letter. -/
  | smallLetter
  | percent
deriving DecidableEq, Repr

/-- The unit that a text stands for. -/
def LengthUnit.ofChars? : List Char → Option LengthUnit
  | [] => some .user
  | ['p', 'x'] => some .user
  | ['i', 'n'] => some .inch
  | ['c', 'm'] => some .centimetre
  | ['m', 'm'] => some .millimetre
  | ['p', 't'] => some .point
  | ['p', 'c'] => some .pica
  | ['e', 'm'] => some .letter
  | ['e', 'x'] => some .smallLetter
  | ['%'] => some .percent
  | _ => none

/-- A length with its unit. -/
structure Length where
  /-- How many. -/
  number : Float
  /-- Of what. -/
  unit : LengthUnit := .user

namespace Length

/-- How many units of a drawing an inch has. -/
def unitsPerInch : Float32 := 96

/-- The size of letters where nothing else is said. -/
def letterSize : Float32 := 12

/-- The length that a text stands for. -/
def ofText? (text : String) : Option Length := do
  let (number, rest) ← number? text.toList
  let unit ← LengthUnit.ofChars? rest
  return { number, unit }

/-- A length in the units of the drawing; a share is one of `whole`. -/
def toUser (whole : Float32) (l : Length) : Float32 :=
  let n := l.number.toFloat32
  match l.unit with
  | .user => n
  | .inch => n * unitsPerInch
  | .centimetre => n * unitsPerInch / 2.54
  | .millimetre => n * unitsPerInch / 25.4
  | .point => n * unitsPerInch / 72
  | .pica => n * unitsPerInch / 6
  | .letter => n * letterSize
  | .smallLetter => n * letterSize / 2
  | .percent => whole * n / 100

/-- A length in the units of the drawing, where a share is a part of the box that is to be seen: the part is
formed first and then taken of `whole`, so that all of it is `whole` to the last digit. -/
def toSeen (whole : Float32) (l : Length) : Float32 :=
  match l.unit with
  | .percent => whole * (l.number.toFloat32 / 100)
  | _ => l.toUser whole

end Length

/-! ### Writing -/

/-- The fewest digits that read back, without exponent; the greater of two that are equally near. What is
beyond all numbers is written as a word. -/
def textOf (x : Float32) : String :=
  if x.isNaN then "NaN"
  else
    let minus := x.toBits.toNat / Nat.pow 2 31 = 1
    let size := if x.isInf then "inf" else ((Binary.ofFloat32 x).shortest .up).positional
    (if minus then "-" else "") ++ size

/-- A number rounded to a number of places. A whole number is written as one of 32 bits. -/
def roundedText (places : Nat) (x : Float32) : String :=
  if x.isFinite && x.floor == x then toString x.toInt32.toInt
  else
    let scale := Float32.ofNat (Nat.pow 10 places)
    textOf ((x * scale).round / scale)

end SkitPage.Drawing
