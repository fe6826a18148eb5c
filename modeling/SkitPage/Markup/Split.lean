import SkitPage.Graphic.Basic
import SkitPage.Markup.Attribute

/-!
# Splitting a document at its root

A document is split into the attributes of its root element and the markup inside the root. What stands
before the root is passed over, what comes after it is not looked at. Inside the root every end tag has
to match the innermost open tag.

A byte-order mark at the start of a text is passed over and not counted, while the content is cut out of
the whole text: after a mark every position is three bytes early, and a cut may fall inside a character.

Key definitions: `Markup.SplitFault`, `Markup.findRoot`, `Markup.closeOf`, `Markup.split`.
-/

namespace SkitPage.Markup

/-- Why a document cannot be split. -/
inductive SplitFault
  | markup (fault : MarkupFault)
  | attribute (fault : AttributeFault)
  | noRoot
  /-- The content would begin or end inside a character. -/
  | insideCharacter
deriving DecidableEq, Repr

/-- A tag fault, as a fault of the document. -/
def SplitFault.ofTag : TagFault → SplitFault
  | .attribute fault => .attribute fault
  | .value fault => .markup fault

/-- The root of a document: the content of its tag, and the input after the tag if it has to be closed. -/
inductive Root
  | opened (content rest : List Char)
  | selfClosing (content : List Char)
deriving DecidableEq, Repr

/-- The first element of the input. -/
def findRoot (cs : List Char) : Except SplitFault Root :=
  match h : next cs with
  | .error fault => .error (.markup fault)
  | .ok none => .error .noRoot
  | .ok (some (token, rest)) =>
    have : rest.length < cs.length := next_shorter h
    match token with
    | .start content => .ok (.opened content rest)
    | .empty content => .ok (.selfClosing content)
    | .close name => .error (.markup (.closeWithoutOpen (String.ofList name)))
    | .text => findRoot rest
    | .passed => findRoot rest
termination_by cs.length

/-- The input from the end tag on that closes the outermost of the open elements `opened`, which are
given by name, innermost first. -/
def closeOf (opened : List (List Char)) (cs : List Char) : Except SplitFault (List Char) :=
  match h : next cs with
  | .error fault => .error (.markup fault)
  | .ok none => .error .noRoot
  | .ok (some (token, rest)) =>
    have : rest.length < cs.length := next_shorter h
    match token with
    | .start content => closeOf (nameOf content :: opened) rest
    | .close name => match opened with
      | [] => .error (.markup (.closeWithoutOpen (String.ofList name)))
      | expected :: outer =>
        if name ≠ expected then
          .error (.markup (.closeMismatch (String.ofList expected) (String.ofList name)))
        else if outer.isEmpty then .ok cs
        else closeOf outer rest
    | _ => closeOf opened rest
termination_by cs.length

/-- The byte-order mark. -/
def byteOrderMark : Char := '\ufeff'

/-- The text without a byte-order mark at its start. -/
def withoutMark : List Char → List Char
  | [] => []
  | c :: cs => if c = byteOrderMark then cs else c :: cs

/-- The graphic in a document. -/
def split (text : String) : Except SplitFault Graphic := do
  let whole := text.toList
  let input := withoutMark whole
  let size := Text.byteLength input
  match ← findRoot input with
  | .selfClosing content =>
    return { attributes := ← (attributes content).mapError .ofTag, content := "" }
  | .opened content rest =>
    let found ← (attributes content).mapError SplitFault.ofTag
    let close ← closeOf [nameOf content] rest
    match Text.cut? whole (size - Text.byteLength rest) (size - Text.byteLength close) with
    | some inner => return { attributes := found, content := String.ofList inner }
    | none => .error .insideCharacter

end SkitPage.Markup
