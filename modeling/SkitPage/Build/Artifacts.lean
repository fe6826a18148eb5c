import SkitPage.OrderedMap
import SkitPage.Page.Rendering
import SkitPage.Toolchain.Basic

/-!
# Artifacts

What a build keeps from one run to the next, and what a run makes anew. What is made anew is staged, and
takes the place of what was kept only when the page has been written.

Key definitions: `Artifacts`, `Staged`, `Staged.graphic?`, `Artifacts.commit`.
-/

namespace SkitPage

/-- What the last successful run left. -/
structure Artifacts where
  /-- What the script decides. -/
  blueprint : Option Blueprint := none
  /-- The template, ready to be rendered. -/
  template : Option Template := none
  /-- The text of the stylesheet. -/
  stylesheet : Option String := none
  /-- The plain stylesheet of the page. -/
  css : Option String := none
  /-- The graphics that were loaded. -/
  graphics : OrderedMap Path Graphic := .empty

/-- What a run has made anew. -/
structure Staged where
  /-- What the script decides, if the script was read. -/
  blueprint : Option Blueprint := none
  /-- The template, if it was read. -/
  template : Option Template := none
  /-- The text of the stylesheet, if it was read. -/
  stylesheet : Option String := none
  /-- The plain stylesheet, if it was made. -/
  css : Option String := none
  /-- The graphics that were loaded. -/
  graphics : OrderedMap Path Graphic := .empty

/-- A graphic for the page: as it was loaded in this run, or as it was kept, unless its path changed. -/
def Staged.graphic? (s : Staged) (kept : Artifacts) (changed : List Path) (path : Path) :
    Option Graphic :=
  match s.graphics.get? path with
  | some g => some g
  | none => if path ∈ changed then none else kept.graphics.get? path

/-- The artifacts after a successful run. Graphics that changed and were not loaded anew are dropped, and
so are those that the script does not need any more. -/
def Artifacts.commit (kept : Artifacts) (s : Staged) (changed : List Path) : Artifacts :=
  let blueprint := s.blueprint.or kept.blueprint
  let needed := (blueprint.map (·.assets)).getD []
  { blueprint
    template := s.template.or kept.template
    stylesheet := s.stylesheet.or kept.stylesheet
    css := s.css.or kept.css
    graphics :=
      (kept.graphics.filterKeys fun path => path ∈ needed ∧ path ∉ changed).absorb s.graphics }

end SkitPage
