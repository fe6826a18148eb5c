import SkitPage.Markup.Split
import SkitPage.Storage.Basic
import SkitPage.Toolchain.Basic

/-!
# Loading graphics

A graphic is read, optimised and split.

Key definitions: `GraphicError`, `Graphic.ofText`, `Graphic.load`.
-/

namespace SkitPage

/-- Why a graphic cannot be used. -/
inductive GraphicError
  | unreadable (error : IoError)
  | rejected (message : String)
  | markup (fault : MarkupFault)
  | attribute (fault : AttributeFault)
  | noRoot
  /-- The optimiser broke down, or the content could not be cut out. -/
  | crashed
deriving DecidableEq, Repr

namespace GraphicError

/-- The wording of a graphic error. -/
def message : GraphicError → String
  | .unreadable e => "unreadable: " ++ e.message
  | .rejected m => "optimization failed: " ++ m
  | .markup f => "malformed markup: " ++ f.message
  | .attribute f => "malformed attribute: " ++ f.message
  | .noRoot => "no root element"
  | .crashed => "load broke down"

/-- A fault of splitting, as a fault of the graphic. -/
def ofSplit : Markup.SplitFault → GraphicError
  | .markup f => .markup f
  | .attribute f => .attribute f
  | .noRoot => .noRoot
  | .insideCharacter => .crashed

/-- A fault of the optimiser, as a fault of the graphic. -/
def ofTool : ToolFault → GraphicError
  | .rejected m => .rejected m
  | .crashed => .crashed

end GraphicError

namespace Graphic

/-- The graphic that a text holds once it is optimised. -/
def ofText (optimize : String → Except ToolFault String) (text : String) :
    Except GraphicError Graphic := do
  let optimized ← (optimize text).mapError .ofTool
  (Markup.split optimized).mapError .ofSplit

/-- The graphic at a path. -/
def load (files : Files) (optimize : String → Except ToolFault String) (path : Path) :
    Except GraphicError Graphic := do
  let text ← (files path).mapError .unreadable
  ofText optimize text

end Graphic

end SkitPage
