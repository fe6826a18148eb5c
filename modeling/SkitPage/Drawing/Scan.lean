import SkitPage.Drawing.Fault

/-!
# Reading documents

A document is read in steps, each of which takes characters away from the front of a span of it or finds a
fault. A span knows how much of the document comes after it, so that places can be told also inside
an entity, which is a span of its own.

Key definitions: `Drawing.Span`, `Drawing.Scan`, `Scan.expect`, `Scan.takeAllowed`, `Scan.upTo`.
-/

namespace SkitPage.Drawing

/-- A part of a document that is still to be read. -/
structure Span where
  /-- Its characters. -/
  chars : List Char
  /-- How many characters of the document come after it. -/
  after : Nat
deriving DecidableEq, Repr

/-- How many characters of the document are left at the start of a span. -/
def Span.left (s : Span) : Nat := s.chars.length + s.after

/-- A step of reading. -/
abbrev Scan := StateT Span (Except DocumentFault)

/-- The blanks of documents. -/
def isBlank (c : Char) : Bool := c = ' ' || c = '\t' || c = '\n' || c = '\r'

/-- Without the blanks at the start. -/
def skipBlanks (cs : List Char) : List Char := cs.dropWhile isBlank

/-- Whether a document may hold a character. -/
def isAllowed (c : Char) : Bool :=
  let n := c.toNat
  n = 0x9 || n = 0xa || n = 0xd || (0x20 ≤ n && n ≠ 0xfffe && n ≠ 0xffff)

namespace Scan

/-- What is to be read. -/
def chars : Scan (List Char) := return (← get).chars

/-- How many characters of the document are left. -/
def left : Scan Nat := return (← get).left

/-- Go on with these characters. -/
def goOn (cs : List Char) : Scan Unit := modify ({ · with chars := cs })

/-- Leave characters out. -/
def drop (n : Nat) : Scan Unit := do goOn ((← chars).drop n)

/-- Whether a text comes next. -/
def starts (text : String) : Scan Bool := return text.toList.isPrefixOf (← chars)

/-- The next character. -/
def peek : Scan Char := do
  match ← chars with
  | c :: _ => return c
  | [] => throw .endOfText

/-- Leave blanks out. -/
def blanks : Scan Unit := do goOn (skipBlanks (← chars))

/-- Blanks, at least one. -/
def someBlanks : Scan Unit := do
  let c ← peek
  if isBlank c then blanks else throw (.otherKind "a whitespace" c (← left))

/-- A given character. -/
def expect (c : Char) : Scan Unit := do
  let d ← peek
  if d = c then drop 1 else throw (.otherCharacter c d (← left))

/-- A quote of either kind. -/
def quote : Scan Char := do
  let c ← peek
  if c = '"' ∨ c = '\'' then
    drop 1
    return c
  else throw (.otherKind "a quote" c (← left))

/-- A given text. -/
def expectText (text : String) : Scan Unit := do
  if ← starts text then drop text.length else throw (.expectedText text (← left))

/-- The characters for as long as `p` holds of what is left, and the rest; each has to be allowed. -/
def splitAllowed (p : List Char → Bool) (after : Nat) :
    List Char → Except DocumentFault (List Char × List Char)
  | [] => .ok ([], [])
  | c :: rest =>
    if !p (c :: rest) then .ok ([], c :: rest)
    else if !isAllowed c then .error (.forbiddenCharacter c (rest.length + 1 + after))
    else (splitAllowed p after rest).map fun (taken, rest) => (c :: taken, rest)

/-- The characters for as long as `p` holds of what is left, as a span of their own. -/
def takeAllowed (p : List Char → Bool) : Scan Span := do
  let s ← get
  let (taken, rest) ← splitAllowed p s.after s.chars
  goOn rest
  return ⟨taken, rest.length + s.after⟩

/-- The characters up to one that `p` holds of. -/
def takeUntil (p : Char → Bool) : Scan Span :=
  takeAllowed fun
    | c :: _ => !p c
    | [] => false

/-- The characters for as long as `p` holds of them, whether they are allowed or not. -/
def takeRaw (p : Char → Bool) : Scan Span := do
  let s ← get
  let rest := s.chars.dropWhile p
  goOn rest
  return ⟨s.chars.takeWhile p, rest.length + s.after⟩

/-- The characters up to a given text, which is left out. -/
def upTo (text : String) : Scan Span := do
  let s ← takeAllowed (!text.toList.isPrefixOf ·)
  expectText text
  return s

end Scan

end SkitPage.Drawing
