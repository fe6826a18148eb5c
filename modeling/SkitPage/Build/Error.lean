import SkitPage.Build.Diagnostic
import SkitPage.Graphic.Load
import SkitPage.Script.Check

/-!
# Build errors

What may stop a build, and how it is worded.

Key definitions: `BuildError`, `BuildError.message`.
-/

namespace SkitPage

/-- Which reading of a script was refused. -/
inductive SourceStage
  | parse
  | mapping
deriving DecidableEq, Repr

/-- Which way a file was going. -/
inductive IoDirection
  | read
  | write
deriving DecidableEq, Repr

/-- What a template was needed for. -/
inductive TemplateStage
  | compile
  | render
deriving DecidableEq, Repr

/-- The name of a stage. -/
def SourceStage.name : SourceStage → String
  | .parse => "Parse"
  | .mapping => "Mapping"

/-- The name of a direction. -/
def IoDirection.name : IoDirection → String
  | .read => "Read"
  | .write => "Write"

/-- The name of a stage. -/
def TemplateStage.name : TemplateStage → String
  | .compile => "Compile"
  | .render => "Render"

/-- Something that a build keeps from one run to the next. -/
inductive Artifact
  | blueprint
  | stylesheet
  | css
  | template
  | graphic
deriving DecidableEq, Repr

/-- What an artifact is called. -/
def Artifact.description : Artifact → String
  | .blueprint => "a transpiled script"
  | .stylesheet => "stylesheet text"
  | .css => "compiled css"
  | .template => "a compiled template"
  | .graphic => "a referenced svg"

/-- Why a build failed. -/
inductive BuildError
  | source (stage : SourceStage) (diagnostics : List Diagnostic)
  | script (error : ScriptError)
  | asset (path : Path) (error : GraphicError)
  | io (path : Path) (direction : IoDirection) (error : IoError)
  | template (stage : TemplateStage) (message : String)
  | stylesheet (message : String)
  | css (fault : CssFault)
  | markup (message : String)
  /-- The loading of a graphic broke down. -/
  | task
  | missing (artifact : Artifact)
deriving DecidableEq, Repr

namespace BuildError

/-- The wording of a build error. -/
def message : BuildError → String
  | .source stage ds => "Script rejected during " ++ stage.name ++ ": " ++ Diagnostic.summary ds
  | .script e => "Script model is inconsistent: " ++ e.message
  | .asset path e => "Asset `" ++ path.display ++ "` " ++ e.message
  | .io path direction e =>
    "IO error (" ++ direction.name ++ " `" ++ path.display ++ "`): " ++ e.message
  | .template stage m => "Template " ++ stage.name ++ " failed: " ++ m
  | .stylesheet m => "Stylesheet compilation failed: " ++ m
  | .css f => "CSS minification failed: " ++ f.wording
  | .markup m => "Markup minification failed: " ++ m
  | .task => "Build task failed"
  | .missing artifact => "Build state is missing " ++ artifact.description

/-- A graphic that cannot be used; one whose loading broke down is not blamed on the graphic. -/
def ofGraphic (path : Path) : GraphicError → BuildError
  | .crashed => .task
  | e => .asset path e

end BuildError

end SkitPage
