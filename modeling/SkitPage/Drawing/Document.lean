import SkitPage.Drawing.Tag

/-!
# Documents

A document is a tree of elements. Of texts, comments and instructions between the elements it is only kept
that there are some. Elements that are still open are kept in a list, the innermost first.

An entity in a text is read as if what it stands for stood there, elements included, so that one has to
come back to the text after it. What is still to be read is therefore a list of frames: spans of content, and
texts with entities in them. An entity may also end inside a tag; what the tag has said so far is then said
by the next tag.

Key definitions: `Drawing.Element`, `Drawing.Reading`, `Drawing.Frame`, `Drawing.content`,
`Drawing.document`.
-/

namespace SkitPage.Drawing

/-- An element with its name, its attributes and the elements in it, and whether there is something else
in it. -/
inductive Element where
  | node (name : FullName) (attributes : List (FullName × String)) (children : List Element) (mixed : Bool)

/-! ### What was read -/

/-- An element whose end has not been read. -/
structure Open where
  /-- Its name as it was written. -/
  written : QName
  /-- Its name. -/
  name : FullName
  /-- Its attributes. -/
  attributes : List (FullName × String)
  /-- The namespaces in it. -/
  spaces : Namespaces
  /-- The elements in it so far, the last first. -/
  children : List Element := []
  /-- Whether there is something else in it. -/
  mixed : Bool := false

/-- The element, now that its end has been read. -/
def Open.close (o : Open) : Element := .node o.name o.attributes o.children.reverse o.mixed

/-- What was read of a document. -/
structure Reading where
  /-- The entities of the document. -/
  entities : List Entity
  /-- How many characters the document has. -/
  size : Nat
  /-- Where in entities one is. -/
  nesting : Nesting := {}
  /-- Whether a tag that begins an element was read in the innermost entity. -/
  tagged : Bool := false
  /-- What was said by tags that did not end. -/
  pending : TagParts := {}
  /-- The elements that are open, the innermost first. -/
  opened : List Open := []
  /-- The elements that are in no other, in order. -/
  roots : List Element := []

namespace Reading

/-- An element that was read, put into the innermost one that is open. -/
def append (r : Reading) (e : Element) : Reading :=
  match r.opened with
  | [] => { r with roots := r.roots ++ [e] }
  | o :: os => { r with opened := { o with children := e :: o.children } :: os }

/-- Something other than an element, put into the innermost element that is open. -/
def mix (r : Reading) : Reading :=
  match r.opened with
  | [] => r
  | o :: os => { r with opened := { o with mixed := true } :: os }

/-- The namespaces after a tag that declares some. -/
def spacesWith (r : Reading) (own : Namespaces) : Namespaces :=
  own ++ (r.opened.head?.map (·.spaces)).getD []

/-- The element that a tag begins. -/
def start (r : Reading) (t : Tag) : Except DocumentFault Reading := do
  if t.ending = .missing then return { r with tagged := true, pending := t.toTagParts }
  else
    let r := { r with tagged := true, pending := {} }
    let spaces := r.spacesWith t.spaces
    let attributes ← resolved spaces t.attributes
    let name ← fullName spaces t.name t.left
    let o : Open := { written := t.name, name, attributes, spaces }
    return if t.ending = .empty then r.append o.close else { r with opened := o :: r.opened }

/-- The end of the innermost element that is open. What was said by tags that did not end is looked at and
forgotten. -/
def finish (r : Reading) (name : QName) (left : Nat) : Except DocumentFault Reading := do
  if !r.tagged then .error (.entityCloseTag left)
  let _ ← resolved (r.spacesWith r.pending.spaces) r.pending.attributes
  match r.opened with
  | [] => .error (.entityCloseTag left)
  | o :: os =>
    if name = o.written then return { r with opened := os, pending := {} }.append o.close
    else .error (.otherCloseTag o.written.text name.text left)

end Reading

/-! ### Content -/

/-- A piece of content. -/
inductive Piece
  /-- A comment, an instruction or a text that is taken as it is. -/
  | other
  | text (s : Span)
  | opening (tag : Tag) (nesting : Nesting)
  | closing (name : QName) (left : Nat)

namespace Scan

/-- A text up to the next tag. -/
def text : Scan Span := do
  let s ← takeUntil (· = '<')
  if Text.holds "]]>".toList s.chars then throw (.closeInText (← left))
  return s

/-- The end of an element. -/
def closingTag : Scan Piece := do
  let start ← left
  drop 2
  let name ← qname
  blanks
  expect '>'
  return .closing name start

/-- One piece of content. -/
def piece (r : Reading) : Scan Piece := do
  if ← starts "<!--" then
    comment
    return .other
  else if ← starts "<![CDATA[" then
    drop 9
    let _ ← upTo "]]>"
    return .other
  else match ← chars with
    | ['<'] => throw (.unknownToken (← left))
    | '<' :: '!' :: _ => throw (.unknownToken (← left))
    | '<' :: '?' :: _ =>
      instruction
      return .other
    | '<' :: '/' :: _ => closingTag
    | '<' :: _ =>
      drop 1
      let (t, nesting) ← tag r.entities r.size r.nesting r.pending
      return .opening t nesting
    | _ => return .text (← text)

end Scan

/-- What is still to be read. -/
inductive Frame
  /-- Content. `depth` counts the elements that were begun in it and not ended, and `tagged` is what to go
  back to after it. -/
  | content (rest : Span) (depth : Nat) (tagged : Bool)
  /-- A text, of which only the entities matter. -/
  | text (rest : Span)

/-- Read to the end of the last frame; what comes after the end is left. Each use of fuel takes a character or
an entity away. -/
def content : Nat → Reading → List Frame → Except DocumentFault (Reading × Span)
  | 0, r, _ => .ok (r, ⟨[], 0⟩)
  | _ + 1, r, [] => .ok (r, ⟨[], 0⟩)
  | fuel + 1, r, .text s :: frames =>
    match s.chars with
    | [] => content fuel r frames
    | '&' :: cs =>
      match reference? cs with
      | none => .error (.malformedEntity s.left)
      | some (.inl _, rest) => content fuel r.mix (.text ⟨rest, s.after⟩ :: frames)
      | some (.inr name, rest) =>
        match r.entities.find? (·.name = name) with
        | none => .error (.unknownEntity name s.left)
        | some entity => do
          let nesting ← r.nesting.enter (rest.length + s.after)
          content fuel { r with nesting, tagged := false }
            (.content entity.value 0 r.tagged :: .text ⟨rest, s.after⟩ :: frames)
    | _ :: cs => content fuel r.mix (.text ⟨cs.dropWhile (· ≠ '&'), s.after⟩ :: frames)
  | fuel + 1, r, .content s depth tagged :: frames => do
    let ended (r : Reading) (s : Span) : Except DocumentFault (Reading × Span) :=
      if frames.isEmpty then .ok (r, s)
      else content fuel { r with nesting := r.nesting.leave, tagged } frames
    if s.chars.isEmpty then ended r s
    else
      let (piece, rest) ← (Scan.piece r).run s
      match piece with
      | .other => content fuel r.mix (.content rest depth tagged :: frames)
      | .text t => content fuel r (.text t :: .content rest depth tagged :: frames)
      | .opening t nesting =>
        let r ← { r with nesting }.start t
        let depth := if t.ending = .opening then depth + 1 else depth
        content fuel r (.content rest depth tagged :: frames)
      | .closing name left =>
        let r ← r.finish name left
        match depth with
        | 0 => ended r rest
        | depth + 1 => content fuel r (.content rest depth tagged :: frames)

/-! ### Documents -/

/-- The root with all that is in it, and what comes after it. -/
def rootElement (entities : List Entity) (size : Nat) (s : Span) :
    Except DocumentFault (Reading × Span) := do
  let ((t, nesting), rest) ← (do Scan.drop 1; Scan.tag entities size {} {} : Scan _).run s
  let r ← Reading.start { entities, size, nesting } t
  if t.ending = .opening then content (expansionFuel size) r [.content rest 0 true]
  else return (r, rest)

/-- The root element of a document. -/
def document (text : List Char) : Except DocumentFault Element := do
  let (entities, s) ← Scan.prolog.run ⟨text, 0⟩
  let (r, s) ← match s.chars with
    | '<' :: _ => rootElement entities text.length s
    | _ => .ok ({ entities, size := text.length }, s)
  let (_, s) ← Scan.misc.run s
  if !s.chars.isEmpty then .error (.unknownToken s.left)
  else if !r.opened.isEmpty then .error .openRoot
  else match r.roots with
    | [] => .error .noRoot
    | root :: _ => .ok root

end SkitPage.Drawing
