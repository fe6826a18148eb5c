import SkitPage.Drawing.Prolog

/-!
# Tags

The start of an element: its name, the namespaces that it declares and its other attributes, in this order
of looking: every attribute is looked at when it is read, and namespaces are resolved at the end of the tag.

Key definitions: `Drawing.Tag`, `Scan.tag`, `Drawing.FullName`, `Drawing.resolved`.
-/

namespace SkitPage.Drawing

/-- Namespaces by their short names; the first of two counts. The one without short name has an empty
one. -/
abbrev Namespaces := List (String × String)

/-- The namespace that always has the short name `xml`. -/
def xmlSpace : String := "http://www.w3.org/XML/1998/namespace"

/-- The namespace of declarations of namespaces. -/
def declarationSpace : String := "http://www.w3.org/2000/xmlns/"

/-- An attribute as it is read. -/
structure Attribute where
  /-- The name. -/
  name : QName
  /-- The value. -/
  value : String
  /-- How many characters are left at the name. -/
  left : Nat
deriving DecidableEq, Repr

/-- How a tag ends. -/
inductive TagEnd
  | opening
  /-- The element has no content. -/
  | empty
  /-- The text ends before the tag does. -/
  | missing
deriving DecidableEq, Repr

/-- What the attributes of a tag are. -/
structure TagParts where
  /-- The namespaces that are declared. -/
  spaces : Namespaces := []
  /-- The other attributes. -/
  attributes : List Attribute := []
deriving DecidableEq, Repr

/-- A tag that begins an element. -/
structure Tag extends TagParts where
  /-- The name. -/
  name : QName
  /-- How many characters are left at the name. -/
  left : Nat
  /-- How the tag ends. -/
  ending : TagEnd
deriving DecidableEq, Repr

/-- One more attribute. -/
def TagParts.add (p : TagParts) (a : Attribute) : Except DocumentFault TagParts :=
  if a.name.space = "xmlns" then
    if a.value = declarationSpace then .error (.declaredDeclarations a.left)
    else if a.name.name = "xml" then
      if a.value = xmlSpace then .ok p else .error (.otherXmlSpace a.left)
    else if a.value = xmlSpace then .error (.otherXmlName a.left)
    else if (p.spaces.lookup a.name.name).isSome then .error (.repeatedNamespace a.name.name a.left)
    else .ok { p with spaces := p.spaces ++ [(a.name.name, a.value)] }
  else if a.name.name = "xmlns" then
    if a.value = xmlSpace then .error (.otherXmlName a.left)
    else if a.value = declarationSpace then .error (.declaredDeclarations a.left)
    else .ok { p with spaces := p.spaces ++ [("", a.value)] }
  else .ok { p with attributes := p.attributes ++ [a] }

namespace Scan

/-- The value of an attribute in a tag. It has to end before it is looked at. -/
def tagValue (mark : Char) : Scan Span := do
  if (← chars).all fun c => c ≠ mark && c ≠ '<' then throw .endOfText
  endAttribute mark

/-- The rest of a tag after its name, in a document of a given length. Each use of fuel takes a character
away. -/
def tagParts (entities : List Entity) (size : Nat) :
    Nat → Nesting → TagParts → Scan (TagParts × TagEnd × Nesting)
  | 0, nesting, parts => return (parts, .missing, nesting)
  | fuel + 1, nesting, parts => do
    let spaced := (← chars).head?.any isBlank
    if (← chars).isEmpty then return (parts, .missing, nesting)
    blanks
    let c ← peek
    if c = '/' then
      drop 1
      expect '>'
      return (parts, .empty, nesting)
    else if c = '>' then
      drop 1
      return (parts, .opening, nesting)
    else
      let start ← left
      if !spaced then throw (.otherKind "a whitespace" c start)
      let (name, mark) ← beginAttribute
      let raw ← tagValue mark
      let (value, nesting) ← valueOf entities size nesting raw
      let parts ← parts.add ⟨name, value, start⟩
      tagParts entities size fuel nesting parts

/-- The tag after an opening angle bracket, with the parts that come before its own. -/
def tag (entities : List Entity) (size : Nat) (nesting : Nesting) (before : TagParts) :
    Scan (Tag × Nesting) := do
  let start ← left
  let name ← qname
  if name.space = "xmlns" then throw (.declaringElement start)
  let (parts, ending, nesting) ← tagParts entities size ((← chars).length + 1) nesting before
  return (⟨parts, name, start, ending⟩, nesting)

end Scan

/-! ### Namespaces -/

/-- A name with its namespace. -/
structure FullName where
  /-- The namespace, if there is one. -/
  space : Option String
  /-- The name in it. -/
  name : String
deriving DecidableEq, Repr

/-- The full name for a name at a place. One without short name need not have a namespace. -/
def fullName (spaces : Namespaces) (q : QName) (left : Nat) : Except DocumentFault FullName :=
  match spaces.lookup q.space with
  | some space => .ok ⟨some space, q.name⟩
  | none => if q.space.isEmpty then .ok ⟨none, q.name⟩ else .error (.unknownNamespace q.space left)

/-- The full name of an attribute. The namespace without short name is not meant for attributes. -/
def Attribute.fullName (spaces : Namespaces) (a : Attribute) : Except DocumentFault FullName :=
  if a.name.space = "xml" then .ok ⟨some xmlSpace, a.name.name⟩
  else if a.name.space.isEmpty then .ok ⟨none, a.name.name⟩
  else Drawing.fullName spaces a.name a.left

/-- The attributes by their full names; no two may have the same. -/
def resolved (spaces : Namespaces) (as : List Attribute) :
    Except DocumentFault (List (FullName × String)) :=
  as.foldlM (fun found a => do
    let name ← a.fullName spaces
    if (found.lookup name).isSome then .error (.repeatedAttribute name.name a.left)
    else return found ++ [(name, a.value)]) []

end SkitPage.Drawing
