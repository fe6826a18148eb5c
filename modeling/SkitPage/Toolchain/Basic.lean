import SkitPage.Build.Diagnostic
import SkitPage.Script.Basic
import SkitPage.Text.Basic

/-!
# Toolchains

A build leaves some of its work to tools: reading the script's text, templates, stylesheets, and making
graphics, stylesheets and pages small. A tool is a function of its input.

Key definitions: `Toolchain`, `Template`, `ToolFault`, `CssFault`, `Toolchain.shrinkCss`.
-/

namespace SkitPage

/-- A template that was read and can be rendered. -/
structure Template where
  /-- The page for a context, or why there is none. -/
  render : Json → Except String String

/-- Why a graphic was not optimised. -/
inductive ToolFault
  /-- The tool said no. -/
  | rejected (message : String)
  /-- The tool broke down. -/
  | crashed
deriving DecidableEq, Repr

/-- What was being done to a plain stylesheet to make it small. -/
inductive CssStage
  | parse
  | minify
  | print
deriving DecidableEq, Repr

/-- The name of a stage. -/
def CssStage.name : CssStage → String
  | .parse => "parse"
  | .minify => "minify"
  | .print => "print"

/-- Why a plain stylesheet was not made small. -/
structure CssFault where
  /-- Where it failed. -/
  stage : CssStage
  /-- What the tool said. -/
  message : String
deriving DecidableEq, Repr

/-- The wording of a fault. -/
def CssFault.wording (f : CssFault) : String := f.stage.name ++ " error: " ++ f.message

/-- The tools of a build. -/
structure Toolchain where
  /-- Reads the text of a script as a tree. -/
  parse : String → Except (List Diagnostic) Json
  /-- Makes a script of a tree. -/
  map : Json → Except (List Diagnostic) Script
  /-- Reads the text of a template. -/
  compileTemplate : String → Except String Template
  /-- Makes a plain stylesheet of one with mixins. -/
  compileStylesheet : String → Except String String
  /-- Makes a graphic small. -/
  optimize : String → Except ToolFault String
  /-- Makes a plain stylesheet small. -/
  minifyCss : String → Except CssFault String
  /-- Makes a page small. -/
  minifyMarkup : String → Except String String

/-- A plain stylesheet made small. White space alone is an empty stylesheet, and the tool is not asked. -/
def Toolchain.shrinkCss (tools : Toolchain) (css : String) : Except CssFault String :=
  if css.toList.all Text.isBlank then .ok "" else tools.minifyCss css

end SkitPage
