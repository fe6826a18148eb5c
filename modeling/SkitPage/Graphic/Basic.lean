import SkitPage.OrderedMap

/-!
# Graphics

A vector graphic that is ready to be put into a page: the attributes of its root element, and the
markup inside the root.

Key definitions: `Graphic`, `Graphic.place`.
-/

namespace SkitPage

/-- A graphic, split at its root element. -/
structure Graphic where
  /-- The attributes of the root, entities replaced. -/
  attributes : OrderedMap String String
  /-- What stands between the root's tags, as it was. -/
  content : String
deriving DecidableEq, Repr

/-- The graphic as the element with an id and a class. They take the place of the ones that the graphic
came with. -/
def Graphic.place (g : Graphic) (id cls : String) : Graphic :=
  { g with attributes := (g.attributes.insert "class" cls).insert "id" id }

end SkitPage
