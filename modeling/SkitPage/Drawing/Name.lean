import SkitPage.Drawing.Scan

/-!
# Names in documents

Elements and attributes have names of two parts: a local one, and before it, with a colon, a short name for
a namespace, which may be left out.

Key definitions: `Drawing.startsName`, `Drawing.insideName`, `Drawing.QName`, `Scan.qname`.
-/

namespace SkitPage.Drawing

/-- Whether a number lies in one of the ranges. -/
def inRanges (ranges : List (Nat × Nat)) (n : Nat) : Bool := ranges.any fun r => r.1 ≤ n && n ≤ r.2

/-- The characters beyond ASCII that a name may begin with. -/
def nameRanges : List (Nat × Nat) :=
  [(0xc0, 0xd6), (0xd8, 0xf6), (0xf8, 0x2ff), (0x370, 0x37d), (0x37f, 0x1fff), (0x200c, 0x200d),
    (0x2070, 0x218f), (0x2c00, 0x2fef), (0x3001, 0xd7ff), (0xf900, 0xfdcf), (0xfdf0, 0xfffd),
    (0x10000, 0xeffff)]

/-- Whether a name may begin with a character. -/
def startsName (c : Char) : Bool := c.isAlpha || c = '_' || c = ':' || inRanges nameRanges c.toNat

/-- Whether a character may stand inside a name. -/
def insideName (c : Char) : Bool :=
  startsName c || c.isDigit || c = '-' || c = '.' ||
    inRanges [(0xb7, 0xb7), (0x300, 0x36f), (0x203f, 0x2040)] c.toNat

/-- A name with a short name for its namespace. -/
structure QName where
  /-- The short name of the namespace, or nothing. -/
  space : String
  /-- The name in the namespace. -/
  name : String
deriving DecidableEq, Repr

/-- The text of a name. -/
def QName.text (q : QName) : String := if q.space.isEmpty then q.name else q.space ++ ":" ++ q.name

/-- Whether a part of a name begins as it should. -/
def beginsName : List Char → Bool
  | c :: _ => startsName c
  | [] => false

/-- The two parts of a name. -/
def QName.ofChars? (whole : List Char) : Option QName :=
  match whole.dropWhile (· ≠ ':') with
  | [] => if beginsName whole then some ⟨"", String.ofList whole⟩ else none
  | _ :: name =>
    let space := whole.takeWhile (· ≠ ':')
    if (space.isEmpty || beginsName space) && beginsName name && !name.contains ':' then
      some ⟨String.ofList space, String.ofList name⟩
    else none

namespace Scan

/-- A name with its namespace. -/
def qname : Scan QName := do
  let cs ← chars
  match QName.ofChars? (cs.takeWhile insideName) with
  | some q =>
    goOn (cs.dropWhile insideName)
    return q
  | none => throw (.badName (← left))

/-- A name that is not taken apart. -/
def name : Scan String := do
  let cs ← chars
  if beginsName cs then
    goOn (cs.dropWhile insideName)
    return String.ofList (cs.takeWhile insideName)
  else throw (.badName (← left))

end Scan

end SkitPage.Drawing
