import SkitPage.Drawing.Entity
import SkitPage.Text.Basic

/-!
# The start of documents

Before its root a document may have a declaration, comments, instructions and a document type. Of all these
only the entities that the document type declares are kept.

Key definitions: `Scan.comment`, `Scan.instruction`, `Scan.declaration`, `Scan.documentType`,
`Scan.prolog`.
-/

namespace SkitPage.Drawing.Scan

/-! ### Comments and instructions -/

/-- Leave a comment out. -/
def comment : Scan Unit := do
  let start ← left
  drop 4
  let s ← upTo "-->"
  if Text.holds ['-', '-'] s.chars ∨ s.chars.getLast? = some '-' then throw (.dashesInComment start)

/-- Leave an instruction out. -/
def instruction : Scan Unit := do
  if ← starts "<?xml " then throw (.lateDeclaration (← left))
  drop 2
  let _ ← name
  blanks
  let _ ← upTo "?>"

/-- Leave comments, instructions and blanks out; each use of fuel takes a character away. -/
def miscFrom : Nat → Scan Unit
  | 0 => return
  | fuel + 1 => do
    blanks
    if ← starts "<!--" then
      comment
      miscFrom fuel
    else if ← starts "<?" then
      instruction
      miscFrom fuel

/-- Leave comments, instructions and blanks out. -/
def misc : Scan Unit := do miscFrom ((← chars).length + 1)

/-! ### The declaration -/

/-- The name of an attribute, the sign after it and the quote that begins its value. -/
def beginAttribute : Scan (QName × Char) := do
  let q ← qname
  blanks
  expect '='
  blanks
  let mark ← quote
  return (q, mark)

/-- The value of an attribute up to the quote that ends it; no angle bracket may come before. -/
def endAttribute (mark : Char) : Scan Span := do
  let value ← takeUntil fun c => c = mark || c = '<'
  expect mark
  return value

/-- Leave an attribute out. -/
def skipAttribute : Scan Unit := do
  let (_, mark) ← beginAttribute
  let _ ← endAttribute mark

/-- Blanks that may only be missing where the declaration ends. -/
def blanksInDeclaration : Scan Unit := do
  match ← chars with
  | c :: _ =>
    if isBlank c then blanks
    else if !(← starts "?>") then throw (.otherKind "a whitespace" c (← left))
  | [] => return

/-- Leave the declaration out. Its version comes first, and then what it has of an encoding and of standing
alone, in this order. -/
def declaration : Scan Unit := do
  drop 5
  blanksInDeclaration
  if !(← starts "version") then throw (.expectedText "version" (← left))
  skipAttribute
  blanksInDeclaration
  if ← starts "encoding" then
    skipAttribute
    blanksInDeclaration
  if ← starts "standalone" then skipAttribute
  blanks
  expectText "?>"

/-! ### The document type -/

/-- A text between quotes, in which every character may stand. -/
def literal : Scan Span := do
  let mark ← quote
  let s ← takeRaw (· ≠ mark)
  expect mark
  return s

/-- Leave out where something else is kept, if that is said. -/
def external : Scan Bool := do
  let isPublic ← starts "PUBLIC"
  if isPublic || (← starts "SYSTEM") then
    drop 6
    someBlanks
    let _ ← literal
    if isPublic then
      someBlanks
      let _ ← literal
    return true
  else return false

/-- A name, or nothing at the end of the text. -/
def nameOrEnd : Scan Unit := do
  if !(← chars).isEmpty then
    let _ ← name

/-- What an entity stands for, if it is in this document. Only one for general use may have a notation. -/
def entityValue (isGeneral : Bool) : Scan (Option Span) := do
  let c ← peek
  if c = '"' ∨ c = '\'' then return some (← literal)
  else if c = 'S' ∨ c = 'P' then
    if !(← external) then throw (.badExternal (← left))
    if isGeneral then
      blanks
      if ← starts "NDATA" then
        drop 5
        someBlanks
        nameOrEnd
    return none
  else throw (.otherKind "a quote, SYSTEM or PUBLIC" c (← left))

/-- The declaration of an entity. -/
def entity : Scan (Option Entity) := do
  drop 8
  someBlanks
  let isGeneral := (← chars).head? ≠ some '%'
  if !isGeneral then
    drop 1
    someBlanks
  let name ← name
  someBlanks
  let value ← entityValue isGeneral
  blanks
  expect '>'
  return value.map (⟨name, ·⟩)

/-- Declarations in a document type that are left out. -/
def declares : Scan Bool := do
  return (← starts "<!ELEMENT") || (← starts "<!ATTLIST") || (← starts "<!NOTATION")

/-- The entities that are declared between the brackets of a document type, whose start is at `start`. Each
use of fuel takes a character away. -/
def entitiesFrom (start : Nat) : Nat → Scan (List Entity)
  | 0 => return []
  | fuel + 1 => do
    if (← chars).isEmpty then return []
    blanks
    if ← starts "<!ENTITY" then
      let e ← entity
      return e.toList ++ (← entitiesFrom start fuel)
    else if ← starts "<!--" then
      comment
      entitiesFrom start fuel
    else if ← starts "<?" then
      instruction
      entitiesFrom start fuel
    else if ← starts "]" then
      drop 1
      blanks
      let c ← peek
      if c ≠ '>' then throw (.otherKind "'>'" c (← left))
      drop 1
      return []
    else if ← declares then
      match (← chars).dropWhile (· ≠ '>') with
      | _ :: rest =>
        goOn rest
        entitiesFrom start fuel
      | [] => throw (.unknownToken start)
    else throw (.unknownToken (← left))

/-- The entities that a document type declares. -/
def documentType : Scan (List Entity) := do
  let start ← left
  drop 9
  someBlanks
  nameOrEnd
  blanks
  let _ ← external
  blanks
  let c ← peek
  if c ≠ '[' ∧ c ≠ '>' then throw (.otherKind "'[' or '>'" c (← left))
  drop 1
  if c = '>' then return []
  else entitiesFrom start ((← chars).length + 1)

/-! ### All before the root -/

/-- The entities that are declared before the root. -/
def prolog : Scan (List Entity) := do
  if ← starts "\ufeff" then drop 1
  if ← starts "<?xml " then declaration
  misc
  blanks
  if ← starts "<!DOCTYPE" then
    let entities ← documentType
    misc
    blanks
    return entities
  else return []

end SkitPage.Drawing.Scan
