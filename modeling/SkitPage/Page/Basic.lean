import SkitPage.Path

/-!
# Pages

What a page shows, in document order: a scene for each state, then the backdrops and the actors, whose
faces are inside them. Scenes come first, so that backdrops and actors can be reached from a targeted
scene.

Key definitions: `Page`, `Scene`, `Backdrop`, `Actor`, `Face`.
-/

namespace SkitPage

/-- The id and the classes of an element. -/
structure Attributes where
  /-- The id, which no other element has. -/
  id : String
  /-- The classes in order. -/
  classes : List String
deriving DecidableEq, Repr

/-- The classes as one text. -/
def Attributes.classText (a : Attributes) : String := " ".intercalate a.classes

/-- A way out of a scene. -/
structure Link where
  /-- What the link says, as markup. -/
  content : String
  /-- Where it leads. -/
  href : String
deriving DecidableEq, Repr

/-- How a scene is left. -/
inductive Exit
  | dismiss (href : String)
  | menu (links : List Link)
deriving DecidableEq, Repr

/-- The element of a state. -/
structure Scene where
  /-- Id and classes. -/
  attributes : Attributes
  /-- What is said, as markup. -/
  line : Option String
  /-- The names of who says it, in increasing order. -/
  speakers : Option (List String)
  /-- How the scene is left. -/
  exit : Exit
deriving DecidableEq, Repr

/-- The element of a background. -/
structure Backdrop where
  /-- The name of the background. -/
  normalized : String
  /-- Id and classes. -/
  attributes : Attributes
  /-- Where the graphic lies. -/
  path : Path
deriving DecidableEq, Repr

/-- The element of a character's emote. -/
structure Face where
  /-- The name of the emote. -/
  normalized : String
  /-- Id and classes. -/
  attributes : Attributes
  /-- Where the graphic lies. -/
  path : Path
deriving DecidableEq, Repr

/-- The element of a character. -/
structure Actor where
  /-- What the script calls the character. -/
  normalized : String
  /-- What the page calls the character. -/
  verbatim : String
  /-- Id and classes. -/
  attributes : Attributes
  /-- The emotes, which are inside. -/
  faces : List Face
deriving DecidableEq, Repr

/-- Everything that a page shows. -/
structure Page where
  /-- The states, the initial one last. -/
  scenes : List Scene := []
  /-- The backgrounds. -/
  backdrops : List Backdrop := []
  /-- The characters. -/
  actors : List Actor := []
deriving DecidableEq, Repr

end SkitPage
