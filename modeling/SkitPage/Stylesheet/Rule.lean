import SkitPage.Stylesheet.Selector

/-!
# Rules of mixins

The rules that a page adds to its stylesheet. A rule applies mixins, which the stylesheet defines, to
the elements that its selectors match. It is written in the indented form of stylesheets: the selectors
on a line, and one indented line for each mixin.

Key definitions: `Rule`, `Rule.render`, `Rule.renderAll`, `Stylesheet.source`.
-/

namespace SkitPage

/-- Mixins for the elements that one of the selectors matches. -/
structure Rule where
  /-- The selectors. -/
  selectors : List Selector
  /-- The names of the mixins. -/
  mixins : List String

namespace Rule

/-- The lines of a rule. -/
def lines (r : Rule) : List String :=
  Selector.renderList .wide r.selectors :: r.mixins.map ("  @include " ++ ·)

/-- The text of a list of rules. -/
def renderAll (rules : List Rule) : String := "\n".intercalate (rules.flatMap lines)

end Rule

/-- A stylesheet with the rules of a page after it, so that the mixins are defined where the rules
use them. -/
def Stylesheet.source (stylesheet fragment : String) : String :=
  if fragment.isEmpty then stylesheet else stylesheet ++ "\n" ++ fragment

end SkitPage
