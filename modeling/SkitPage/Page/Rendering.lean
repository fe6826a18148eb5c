import SkitPage.Graphic.Basic
import SkitPage.Json.Basic
import SkitPage.Page.Blueprint

/-!
# Rendered pages

A page with its graphics in place, and the JSON forms of pages: of the blueprint's page, and of the
context that a template is given.

Key definitions: `Rendering`, `Page.render?`, `Rendering.context`, `Page.toJson`.
-/

namespace SkitPage

/-- The element of a character with the graphics of its emotes in place. -/
structure RenderedActor where
  /-- Id and classes. -/
  attributes : Attributes
  /-- The emotes. -/
  faces : List Graphic
deriving DecidableEq, Repr

/-- The backgrounds and characters of a page with their graphics in place. -/
structure Rendering where
  /-- The backgrounds. -/
  backdrops : List Graphic
  /-- The characters. -/
  actors : List RenderedActor
deriving DecidableEq, Repr

namespace Page

/-- A graphic, as the element with the given attributes. -/
def placed? (graphics : Path → Option Graphic) (path : Path) (a : Attributes) : Option Graphic :=
  (graphics path).map fun g => g.place a.id a.classText

/-- The page with its graphics in place, if all are there. -/
def render? (p : Page) (graphics : Path → Option Graphic) : Option Rendering := do
  let backdrops ← p.backdrops.mapM fun b => placed? graphics b.path b.attributes
  let actors ← p.actors.mapM fun a => do
    let faces ← a.faces.mapM fun f => placed? graphics f.path f.attributes
    return { attributes := a.attributes, faces }
  return { backdrops, actors }

end Page

/-! ### JSON forms -/

/-- The JSON form of id and classes. -/
def Attributes.toJson (a : Attributes) : Json :=
  .object [("id", .string a.id), ("class", .string a.classText)]

/-- The JSON form of a link. -/
def Link.toJson (l : Link) : Json :=
  .object [("content", .string l.content), ("href", .string l.href)]

/-- The JSON form of the ways out of a scene. -/
def Exit.toJson : Exit → Json
  | .dismiss href => .object [("type", .string "dismiss"), ("href", .string href)]
  | .menu links => .object [("type", .string "menu"), ("options", .array (links.map Link.toJson))]

/-- The JSON form of a scene. -/
def Scene.toJson (s : Scene) : Json :=
  .object [
    ("attributes", s.attributes.toJson),
    ("line", .ofOption (s.line.map .string)),
    ("speakers", .ofOption (s.speakers.map .strings)),
    ("interaction", s.exit.toJson)]

/-- The JSON form of a backdrop. -/
def Backdrop.toJson (b : Backdrop) : Json :=
  .object [("normalized", .string b.normalized), ("attributes", b.attributes.toJson),
    ("path", b.path.toJson)]

/-- The JSON form of a face. -/
def Face.toJson (f : Face) : Json :=
  .object [("normalized", .string f.normalized), ("attributes", f.attributes.toJson),
    ("path", f.path.toJson)]

/-- The JSON form of an actor. -/
def Actor.toJson (a : Actor) : Json :=
  .object [("normalized", .string a.normalized), ("verbatim", .string a.verbatim),
    ("attributes", a.attributes.toJson), ("emotes", .array (a.faces.map Face.toJson))]

/-- The JSON form of a page. -/
def Page.toJson (p : Page) : Json :=
  .object [
    ("states", .array (p.scenes.map Scene.toJson)),
    ("backgrounds", .array (p.backdrops.map Backdrop.toJson)),
    ("characters", .array (p.actors.map Actor.toJson))]

/-- The JSON form of a graphic. -/
def Graphic.toJson (g : Graphic) : Json :=
  .object [
    ("attributes", .object (g.attributes.entries.map fun (k, v) => (k, .string v))),
    ("content", .string g.content)]

/-- The JSON form of an actor with its graphics. -/
def RenderedActor.toJson (a : RenderedActor) : Json :=
  .object [("attributes", a.attributes.toJson), ("emotes", .array (a.faces.map Graphic.toJson))]

/-- What a template is given to render. -/
def Rendering.context (r : Rendering) (scenes : List Scene) (css : String) : Json :=
  .object [
    ("css", .string css),
    ("states", .array (scenes.map Scene.toJson)),
    ("backgrounds", .array (r.backdrops.map Graphic.toJson)),
    ("characters", .array (r.actors.map RenderedActor.toJson))]

end SkitPage
