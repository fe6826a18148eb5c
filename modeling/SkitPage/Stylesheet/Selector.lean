/-!
# Selectors

A selector says which elements of a page a rule applies to: conditions on the element itself, and
conditions on an element before or above it. The same selectors are written in two ways, with blanks
for people and without for the final page.

Key definitions: `Simple`, `Selector`, `Spacing`, `Selector.render`.
-/

namespace SkitPage

/-- How the element on the left stands to the one on the right. -/
inductive Combinator
  /-- It encloses it. -/
  | descendant
  /-- It is its parent. -/
  | child
  /-- It comes directly before it. -/
  | next
  /-- It comes before it, under the same parent. -/
  | sibling
deriving DecidableEq, Repr

mutual

/-- A condition on one element. -/
inductive Simple where
  | any
  | element (name : String)
  | hasClass (name : String)
  | hasId (name : String)
  | target
  | not (alternatives : List Selector)

/-- Conditions on an element, and on the elements that it stands to in a given way. -/
inductive Selector where
  | compound (conditions : List Simple)
  | related (left : Selector) (combinator : Combinator) (conditions : List Simple)

end

/-- How selectors are written. -/
structure Spacing where
  /-- Between the selectors of a list. -/
  comma : String
  /-- Around the sign of a combinator. -/
  around : String

namespace Spacing

/-- With blanks. -/
def wide : Spacing := ⟨", ", " "⟩

/-- Without blanks. -/
def tight : Spacing := ⟨",", ""⟩

end Spacing

/-- The text of a combinator. An element that merely encloses another is written as a blank. -/
def Combinator.render (sp : Spacing) : Combinator → String
  | .descendant => " "
  | .child => sp.around ++ ">" ++ sp.around
  | .next => sp.around ++ "+" ++ sp.around
  | .sibling => sp.around ++ "~" ++ sp.around

/-- The texts of the conditions on one element, as one. That any element will do is not said where
something else is. -/
def Simple.joined : List String → String
  | "*" :: text :: texts => String.join (text :: texts)
  | texts => String.join texts

mutual

/-- The text of a condition. -/
def Simple.render (sp : Spacing) : Simple → String
  | .any => "*"
  | .element name => name
  | .hasClass name => "." ++ name
  | .hasId name => "#" ++ name
  | .target => ":target"
  | .not alternatives => ":not(" ++ sp.comma.intercalate (Selector.renderEach sp alternatives) ++ ")"

/-- The text of the conditions on one element. -/
def Simple.renderEach (sp : Spacing) : List Simple → List String
  | [] => []
  | c :: cs => c.render sp :: Simple.renderEach sp cs

/-- The text of a selector. -/
def Selector.render (sp : Spacing) : Selector → String
  | .compound cs => Simple.joined (Simple.renderEach sp cs)
  | .related left combinator cs =>
    left.render sp ++ combinator.render sp ++ Simple.joined (Simple.renderEach sp cs)

/-- The text of each selector. -/
def Selector.renderEach (sp : Spacing) : List Selector → List String
  | [] => []
  | s :: ss => s.render sp :: Selector.renderEach sp ss

end

/-- The text of a list of selectors. -/
def Selector.renderList (sp : Spacing) (ss : List Selector) : String :=
  sp.comma.intercalate (ss.map (Selector.render sp))

end SkitPage
