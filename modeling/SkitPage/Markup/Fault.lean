/-!
# Faults of markup

Why a text cannot be read as markup, and how that is worded.

Key definitions: `MarkupFault`, `AttributeFault`, `ReferenceFault`.
-/

namespace SkitPage

/-- What is wrong with a numeric character reference. -/
inductive ReferenceFault
  | sign
  | empty
  | digit
  | tooLarge
  | zero
  | noCharacter (code : Nat)
deriving DecidableEq, Repr

/-- The wording of a reference fault. -/
def ReferenceFault.message : ReferenceFault → String
  | .sign => "unexpected number sign"
  | .empty => "cannot parse integer from empty string"
  | .digit => "invalid digit found in string"
  | .tooLarge => "number too large to fit in target type"
  | .zero => "0x0 character is not permitted in XML"
  | .noCharacter code => "`" ++ toString code ++ "` is not a valid codepoint"

/-- What is wrong with a piece of markup. Positions count bytes. -/
inductive MarkupFault
  | openTag
  | openInstruction
  | openComment
  | openCharacterData
  | openDoctype
  | unknownDeclaration
  | namelessDoctype
  | closeWithoutOpen (found : String)
  | closeMismatch (expected found : String)
  | openEntity (start stop : Nat)
  | unknownEntity (start stop : Nat) (name : String)
  | reference (fault : ReferenceFault)
deriving DecidableEq, Repr

/-- The wording of a markup fault. -/
def MarkupFault.message : MarkupFault → String
  | .openTag => "syntax error: tag not closed: `>` not found before end of input"
  | .openInstruction =>
    "syntax error: processing instruction or xml declaration not closed: `?>` not found before end of input"
  | .openComment => "syntax error: comment not closed: `-->` not found before end of input"
  | .openCharacterData => "syntax error: CDATA not closed: `]]>` not found before end of input"
  | .openDoctype => "syntax error: DOCTYPE not closed: `>` not found before end of input"
  | .unknownDeclaration => "syntax error: unknown or missed symbol in markup"
  | .namelessDoctype =>
    "ill-formed document: `<!DOCTYPE>` declaration does not contain a name of a document type"
  | .closeWithoutOpen found =>
    "ill-formed document: close tag `</" ++ found ++ ">` does not match any open tag"
  | .closeMismatch expected found =>
    "ill-formed document: expected `</" ++ expected ++ ">`, but `</" ++ found ++ ">` was found"
  | .openEntity start stop =>
    "Error while escaping character at range " ++ toString start ++ ".." ++ toString stop ++
      ": Cannot find ';' after '&'"
  | .unknownEntity start stop name =>
    "at " ++ toString start ++ ".." ++ toString stop ++ ": unrecognized entity `" ++ name ++ "`"
  | .reference fault => "invalid character reference: " ++ fault.message

/-- What is wrong with an attribute. Positions count bytes from the start of the tag's content. -/
inductive AttributeFault
  | noEquals (position : Nat)
  | noValue (position : Nat)
  | unquoted (position : Nat)
  | openQuote (position : Nat) (quote : Char)
  | duplicate (position previous : Nat)
deriving DecidableEq, Repr

/-- The wording of an attribute fault. -/
def AttributeFault.message : AttributeFault → String
  | .noEquals p => s!"position {p}: attribute key must be directly followed by `=` or space"
  | .noValue p => s!"position {p}: `=` must be followed by an attribute value"
  | .unquoted p => s!"position {p}: attribute value must be enclosed in `\"` or `'`"
  | .openQuote p q =>
    s!"position {p}: missing closing quote `" ++ String.ofList [q] ++ "` in attribute value"
  | .duplicate p q => s!"position {p}: duplicated attribute, previous declaration at position {q}"

end SkitPage
