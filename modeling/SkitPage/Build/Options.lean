import SkitPage.Path

/-!
# Options of a build

Where the sources lie and where the page goes, and whether the stylesheet is made small. Every part has
a default.

Key definitions: `Layout`, `BuildOptions`, `BuildOptions.ofJson`, `BuildOptions.description`.
-/

namespace SkitPage

/-- Where the sources lie and where the page goes. -/
structure Layout where
  /-- The script. -/
  script : Path := ⟨["index.skitscript"]⟩
  /-- The template of the page. -/
  template : Path := ⟨["index.pug"]⟩
  /-- The stylesheet. -/
  stylesheet : Path := ⟨["index.sass"]⟩
  /-- The page. -/
  page : Path := ⟨["index.html"]⟩
deriving DecidableEq, Repr

/-- How a page is built. -/
structure BuildOptions where
  /-- Where everything is. -/
  layout : Layout := {}
  /-- Whether the stylesheet is made small. -/
  minifyCss : Bool := true
deriving DecidableEq, Repr

namespace Layout

open Shape

/-- A layout from the fields of an object. -/
def ofFields (o : List (String × Json)) : Except ShapeError Layout := do
  let page ← field? o "page" Path.ofJson
  let script ← field? o "script" Path.ofJson
  let stylesheet ← field? o "stylesheet" Path.ofJson
  let template ← field? o "template" Path.ofJson
  let standard : Layout := {}
  return {
    script := script.getD standard.script
    template := template.getD standard.template
    stylesheet := stylesheet.getD standard.stylesheet
    page := page.getD standard.page }

/-- A layout from the items of an array; what is left out has its default. -/
def ofItems (xs : List Json) : Except ShapeError Layout := do
  let standard : Layout := {}
  let script ← itemOr xs 0 standard.script Path.ofJson
  let template ← itemOr xs 1 standard.template Path.ofJson
  let stylesheet ← itemOr xs 2 standard.stylesheet Path.ofJson
  let page ← itemOr xs 3 standard.page Path.ofJson
  atMost xs 4 .plain
  return { script, template, stylesheet, page }

/-- A layout. -/
def ofJson : Json → Except ShapeError Layout := record "SourceLayout" ofFields ofItems

/-- The JSON form of a layout. -/
def toJson (l : Layout) : Json :=
  .object [("script", l.script.toJson), ("template", l.template.toJson),
    ("stylesheet", l.stylesheet.toJson), ("page", l.page.toJson)]

end Layout

namespace BuildOptions

open Shape

/-- Options from the fields of an object. -/
def ofFields (o : List (String × Json)) : Except ShapeError BuildOptions := do
  let layout ← field? o "layout" Layout.ofJson
  let minifyCss ← field? o "minify_css" flag
  return { layout := layout.getD {}, minifyCss := minifyCss.getD true }

/-- Options from the items of an array; what is left out has its default. -/
def ofItems (xs : List Json) : Except ShapeError BuildOptions := do
  let layout ← itemOr xs 0 {} Layout.ofJson
  let minifyCss ← itemOr xs 1 true flag
  atMost xs 2 .plain
  return { layout, minifyCss }

/-- Options. -/
def ofJson : Json → Except ShapeError BuildOptions := record "BuildOptions" ofFields ofItems

/-- The JSON form of options. -/
def toJson (o : BuildOptions) : Json :=
  .object [("layout", o.layout.toJson), ("minify_css", .bool o.minifyCss)]

/-- A name with what belongs to it between braces. -/
def braced (name inner : String) : String := name ++ " \x7b " ++ inner ++ " \x7d"

/-- A path, described for a reader of the program's reports. -/
def describePath (p : Path) : String :=
  "SourcePath([" ++ ", ".intercalate (p.segments.map Text.quoted) ++ "])"

/-- The options, described for a reader of the program's reports. -/
def description (o : BuildOptions) : String :=
  let l := o.layout
  let layout := braced "SourceLayout" (", ".intercalate [
    "script: " ++ describePath l.script, "template: " ++ describePath l.template,
    "stylesheet: " ++ describePath l.stylesheet, "page: " ++ describePath l.page])
  let minify := if o.minifyCss then "true" else "false"
  braced "BuildOptions" ("layout: " ++ layout ++ ", minify_css: " ++ minify)

end BuildOptions

end SkitPage
