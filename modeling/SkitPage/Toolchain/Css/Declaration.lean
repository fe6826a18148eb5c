import SkitPage.Toolchain.Css.Token

/-!
# Declarations

What a rule sets: how an element is displayed, and its colour. A property knows a few words as values; other
words are kept as they are.

Of several settings of one property the later counts. A colour takes the place of the colour before it. A
known way of display comes after everything else; one that is not known stays where it is, after the known
one before it, since it may mean nothing to who reads it. Settings that are marked as important count for
themselves and come last.

Key definitions: `Css.Declaration`, `Css.Block`, `Css.Block.followedBy`.
-/

namespace SkitPage.Css

/-- What can be set. -/
inductive Property
  | color
  | display
deriving DecidableEq, Repr

namespace Property

/-- The name of a property. -/
def name : Property → String
  | .color => "color"
  | .display => "display"

/-- The property with a name; the case of letters does not matter. -/
def ofName? (name : String) : Option Property :=
  match name.toLower with
  | "color" => some .color
  | "display" => some .display
  | _ => none

/-- The words that a property knows. -/
def words : Property → List String
  | .color => ["red"]
  | .display =>
    ["none", "block", "inline", "contents", "flow-root", "flex", "grid", "inline-block", "inline-flex",
      "inline-grid", "inline-table", "list-item", "ruby", "ruby-base", "ruby-base-container", "ruby-text",
      "ruby-text-container", "run-in", "table", "table-caption", "table-cell", "table-column",
      "table-column-group", "table-footer-group", "table-header-group", "table-row", "table-row-group"]

end Property

/-- What a property is set to. -/
inductive Value
  /-- A word that the property knows, in small letters. -/
  | known (word : String)
  /-- Words and blanks that are kept as they are. -/
  | kept (tokens : List Token)
deriving DecidableEq, Repr

/-- The text of a word or a blank in a value. -/
def Token.valueText? : Token → Option String
  | .blank => some " "
  | .word name => some (spell name)
  | _ => none

/-- The text of a value. -/
def Value.render : Value → String
  | .known word => word
  | .kept tokens => String.join (tokens.filterMap Token.valueText?)

/-- The setting of a property. -/
structure Declaration where
  /-- The property. -/
  property : Property
  /-- What it is set to. -/
  value : Value
  /-- Whether it is marked as important. -/
  important : Bool := false
deriving DecidableEq, Repr

namespace Declaration

/-- The text of a declaration. -/
def render (d : Declaration) : String :=
  d.property.name ++ ":" ++ d.value.render ++ if d.important then "!important" else ""

/-- Whether a declaration waits for a later one before it is put down: a known way of display. -/
def waits (d : Declaration) : Bool :=
  match d.property, d.value with
  | .display, .known _ => true
  | _, _ => false

end Declaration

/-- What a rule sets. -/
structure Block where
  /-- The declarations, in order. -/
  declarations : List Declaration := []
deriving DecidableEq, Repr

/-- A block in the making. -/
structure Draft where
  /-- What is put down. -/
  written : List Declaration := []
  /-- The last declaration that waits. -/
  waiting : Option Declaration := none

namespace Draft

/-- Put down what waits. -/
def finish (s : Draft) : Block := ⟨s.written ++ s.waiting.toList⟩

/-- The draft with one more declaration. -/
def add (s : Draft) (d : Declaration) : Draft :=
  if d.waits then { s with waiting := some d }
  else match d.property with
    | .display => ⟨s.finish.declarations ++ [d], none⟩
    | .color =>
      if s.written.any (·.property = .color) then
        { s with written := s.written.map fun e => if e.property = .color then d else e }
      else { s with written := s.written ++ [d] }

end Draft

namespace Block

/-- The block of several declarations. -/
def ofDeclarations (ds : List Declaration) : Block :=
  let part (important : Bool) : Block :=
    ((ds.filter (·.important = important)).foldl Draft.add {}).finish
  ⟨(part false).declarations ++ (part true).declarations⟩

/-- Whether nothing is set. -/
def isEmpty (b : Block) : Bool := b.declarations.isEmpty

/-- The first block with the second after it. -/
def followedBy (a b : Block) : Block := ofDeclarations (a.declarations ++ b.declarations)

/-- Whether two blocks set the same properties in the same order, to whatever values. -/
def sameProperties (a b : Block) : Bool :=
  a.declarations.map (·.property) = b.declarations.map (·.property)

/-- The text of a block. -/
def render (b : Block) : String := ";".intercalate (b.declarations.map Declaration.render)

end Block

end SkitPage.Css
