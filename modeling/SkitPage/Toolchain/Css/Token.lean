import SkitPage.Toolchain.Css.Identifier

/-!
# Tokens of stylesheets

The words and signs of a stylesheet. Comments are left out, also between two words without a blank; a
comment that is not closed runs to the end. Only the comments at the start that are marked as notices are
kept apart.

Key definitions: `Css.Token`, `Css.tokenize`, `Css.notices`.
-/

namespace SkitPage.Css

/-- A word or a sign. -/
inductive Token
  | blank
  | word (name : String)
  /-- A word with an opening parenthesis directly after it. -/
  | function (name : String)
  /-- A word with a hash sign before it. -/
  | hash (name : String)
  | sign (c : Char)
  /-- One of the two marks that may stand around a stylesheet in a page. -/
  | fence
deriving DecidableEq, Repr

/-- The blanks of stylesheets. -/
def isBlank (c : Char) : Bool :=
  c = ' ' || c = '\t' || c = '\n' || c = '\r' || c = '\x0c'

/-- What comes after the end of a comment. -/
def afterComment : List Char → List Char
  | '*' :: '/' :: rest => rest
  | _ :: rest => afterComment rest
  | [] => []

/-- The tokens of a text; each uses up a character, so that the length of the text is enough fuel. -/
def tokensFrom : Nat → List Char → List Token
  | 0, _ => []
  | _ + 1, [] => []
  | fuel + 1, '/' :: '*' :: rest => tokensFrom fuel (afterComment rest)
  | fuel + 1, '-' :: '-' :: '>' :: rest => .fence :: tokensFrom fuel rest
  | fuel + 1, '<' :: '!' :: '-' :: '-' :: rest => .fence :: tokensFrom fuel rest
  | fuel + 1, c :: rest =>
    if isBlank c then .blank :: tokensFrom fuel (rest.dropWhile isBlank)
    else if beginsWord (c :: rest) then
      match nameAt (c :: rest) with
      | (name, '(' :: after) => .function name :: tokensFrom fuel after
      | (name, after) => .word name :: tokensFrom fuel after
    else if c = '#' ∧ beginsWord rest then
      let (name, after) := nameAt rest
      .hash name :: tokensFrom fuel after
    else .sign c :: tokensFrom fuel rest

/-- The tokens of a stylesheet. -/
def tokenize (text : String) : List Token :=
  let cs := text.toList
  tokensFrom cs.length cs

/-- What a comment says, given what comes after its start. -/
def commentText : List Char → List Char
  | '*' :: '/' :: _ => []
  | c :: rest => c :: commentText rest
  | [] => []

/-- The notices at the start of a text: comments that begin with an exclamation mark, with nothing but blanks
between them. Each use of fuel takes a notice away. -/
def noticesFrom : Nat → List Char → List String
  | 0, _ => []
  | fuel + 1, cs =>
    match cs.dropWhile isBlank with
    | '/' :: '*' :: '!' :: rest =>
      String.ofList ('!' :: commentText rest) :: noticesFrom fuel (afterComment rest)
    | _ => []

/-- The notices at the start of a stylesheet. -/
def notices (text : String) : List String :=
  let cs := text.toList
  noticesFrom cs.length cs

end SkitPage.Css
