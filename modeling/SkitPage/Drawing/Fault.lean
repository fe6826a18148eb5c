import SkitPage.Text.Bytes
import SkitPage.Text.Quoted

/-!
# Faults of drawings

Why a drawing cannot be used. Drawings are read as strict documents, and a fault says where in the text it
is: its line, and its column in characters, both counted from one.

Key definitions: `Drawing.DocumentFault`, `Drawing.Fault`, `Drawing.Fault.message`.
-/

namespace SkitPage.Drawing

/-- What is wrong with the text of a document. A place is given by how many characters are left there. -/
inductive DocumentFault
  | noRoot
  /-- The text ends inside the root element. -/
  | openRoot
  | endOfText
  | unknownToken (left : Nat)
  | badName (left : Nat)
  | otherCharacter (expected found : Char) (left : Nat)
  | otherKind (expected : String) (found : Char) (left : Nat)
  | expectedText (expected : String) (left : Nat)
  | otherCloseTag (expected found : String) (left : Nat)
  /-- An entity ends an element that it did not begin. -/
  | entityCloseTag (left : Nat)
  | repeatedAttribute (name : String) (left : Nat)
  | repeatedNamespace (name : String) (left : Nat)
  | unknownNamespace (name : String) (left : Nat)
  /-- The short name that declares namespaces stands before the name of an element. -/
  | declaringElement (left : Nat)
  /-- The short name `xml` is given to another namespace. -/
  | otherXmlSpace (left : Nat)
  /-- The namespace of `xml` is given another short name. -/
  | otherXmlName (left : Nat)
  /-- The namespace of declarations is declared. -/
  | declaredDeclarations (left : Nat)
  | unknownEntity (name : String) (left : Nat)
  | malformedEntity (left : Nat)
  | entityLoop (left : Nat)
  /-- An entity brings an angle bracket into a value. -/
  | bracketInValue (left : Nat)
  /-- What an entity stands for is said to be elsewhere, without saying where. -/
  | badExternal (left : Nat)
  | forbiddenCharacter (c : Char) (left : Nat)
  | dashesInComment (left : Nat)
  | closeInText (left : Nat)
  | lateDeclaration (left : Nat)
  /-- Elements are nested too deeply. -/
  | tooDeep
deriving DecidableEq, Repr

/-- Why a drawing cannot be used. -/
inductive Fault
  | document (fault : DocumentFault)
  /-- The width or the height is not positive. -/
  | size
deriving DecidableEq, Repr

/-- The line and the column that come after some text. -/
def position (before : List Char) : String :=
  let line := before.count '\n' + 1
  let column := (before.reverse.takeWhile (· ≠ '\n')).length + 1
  toString line ++ ":" ++ toString column

namespace DocumentFault

/-- A character that was found, as messages show it: by its first byte. -/
def shown (found : Char) : String := String.ofList [Text.leadByte found]

/-- The wording of a fault, given the whole text. -/
def message (text : List Char) (fault : DocumentFault) : String :=
  let place (left : Nat) : String := position (text.take (text.length - left))
  match fault with
  | .noRoot => "the document does not have a root node"
  | .openRoot => "the root node was opened but never closed"
  | .endOfText => "unexpected end of stream"
  | .unknownToken left => "unknown token at " ++ place left
  | .badName left => "invalid name token at " ++ place left
  | .otherCharacter expected found left =>
    "expected '" ++ String.ofList [expected] ++ "' not '" ++ shown found ++ "' at " ++ place left
  | .otherKind expected found left =>
    "expected " ++ expected ++ " not '" ++ shown found ++ "' at " ++ place left
  | .expectedText expected left => "expected '" ++ expected ++ "' at " ++ place left
  | .otherCloseTag expected found left =>
    "expected '" ++ expected ++ "' tag, not '" ++ found ++ "' at " ++ place left
  | .entityCloseTag left => "unexpected close tag at " ++ place left
  | .repeatedAttribute name left => "attribute '" ++ name ++ "' at " ++ place left ++ " is already defined"
  | .repeatedNamespace name left => "namespace '" ++ name ++ "' at " ++ place left ++ " is already defined"
  | .unknownNamespace name left => "an unknown namespace prefix '" ++ name ++ "' at " ++ place left
  | .declaringElement left => "the 'xmlns' prefix is used at " ++ place left ++ ", but it must not be"
  | .otherXmlSpace left => "'xml' namespace prefix mapped to wrong URI at " ++ place left
  | .otherXmlName left => "the 'xml' namespace URI is used for not 'xml' prefix at " ++ place left
  | .declaredDeclarations left =>
    "the 'xmlns' URI is used at " ++ place left ++ ", but it must not be declared"
  | .unknownEntity name left => "unknown entity reference '" ++ name ++ "' at " ++ place left
  | .malformedEntity left => "malformed entity reference at " ++ place left
  | .entityLoop left => "a possible entity reference loop is detected at " ++ place left
  | .bracketInValue left => "unescaped '<' found at " ++ place left
  | .badExternal left => "invalid ExternalID at " ++ place left
  | .forbiddenCharacter c left =>
    "a non-XML character '" ++ String.ofList (Text.quotedChar c) ++ "' found at " ++ place left
  | .dashesInComment left => "comment at " ++ place left ++ " contains '--'"
  | .closeInText left => "']]>' at " ++ place left ++ " is not allowed inside a character data"
  | .lateDeclaration left => "unexpected XML declaration at " ++ place left
  | .tooDeep => "nodes limit reached"

end DocumentFault

/-- The wording of a fault, given the whole text. -/
def Fault.message (text : List Char) : Fault → String
  | .document f => "SVG data parsing failed cause " ++ f.message text
  | .size => "SVG has an invalid size"

end SkitPage.Drawing
