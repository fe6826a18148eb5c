import SkitPage.Build.Artifacts
import SkitPage.Build.Job
import SkitPage.Build.Options

/-!
# Compilers

A compiler builds one page from its sources and keeps it up to date. It is told which paths changed and
does again only what depends on them:

* the script: its blueprint, the plain stylesheet, and the graphics that are needed for the first time;
* the stylesheet: the plain stylesheet;
* the template: the template;
* a graphic that is needed: that graphic.

If one of these was done the page is written. What was made anew is kept only then, so that a run that
fails leaves everything as it was.

All reading comes before the one write, so a run is a job on a view of the files, and the store is
charged for the reads and written to afterwards.

Key definitions: `Changes`, `Compiler`, `Compiler.stage`, `Compiler.pageText`, `Compiler.recompile`,
`Compiler.compile`.
-/

namespace SkitPage

/-- Which sources a list of changed paths touches. -/
structure Changes where
  /-- Whether the script changed. -/
  script : Bool
  /-- Whether the template changed. -/
  template : Bool
  /-- Whether the stylesheet changed. -/
  stylesheet : Bool
  /-- All changed paths. -/
  paths : List Path
deriving DecidableEq, Repr

/-- The sources that a list of paths touches. Paths are compared as a whole. -/
def Changes.classify (paths : List Path) (layout : Layout) : Changes :=
  { script := layout.script ∈ paths
    template := layout.template ∈ paths
    stylesheet := layout.stylesheet ∈ paths
    paths }

/-- Builds one page, and keeps what it has made. -/
structure Compiler where
  /-- The tools. -/
  tools : Toolchain
  /-- How to build. -/
  options : BuildOptions
  /-- What was made so far. -/
  artifacts : Artifacts := {}

namespace Compiler

/-! ### Stages -/

/-- The text at a path. -/
def readText (files : Files) (path : Path) : Job String :=
  .step (.read path) ((files path).mapError (.io path .read))

/-- The blueprint of the script. -/
def loadBlueprint (c : Compiler) (files : Files) : Job Blueprint := do
  let text ← readText files c.options.layout.script
  let tree ← Job.step .parse ((c.tools.parse text).mapError (.source .parse))
  let script ← Job.step .map ((c.tools.map tree).mapError (.source .mapping))
  .done ((Blueprint.ofScript script).mapError .script)

/-- The plain stylesheet. -/
def compileCss (c : Compiler) (stylesheet fragment : String) : Job String := do
  let css ← Job.step .compileStylesheet
    ((c.tools.compileStylesheet (Stylesheet.source stylesheet fragment)).mapError .stylesheet)
  if c.options.minifyCss then .done ((c.tools.shrinkCss css).mapError .css) else return css

/-- The template. -/
def loadTemplate (c : Compiler) (files : Files) : Job Template := do
  let text ← readText files c.options.layout.template
  Job.step .compileTemplate ((c.tools.compileTemplate text).mapError (.template .compile))

/-- The text of the graphic at a path. -/
def readGraphic (files : Files) (path : Path) : Job String :=
  .step (.read path) ((files path).mapError fun e => .ofGraphic path (.unreadable e))

/-- The graphic that a text at a path holds once it is optimised. -/
def makeGraphic (c : Compiler) (path : Path) (text : String) : Job Graphic := do
  let optimized ← Job.step .optimize
    ((c.tools.optimize text).mapError fun f => .ofGraphic path (.ofTool f))
  .done ((Markup.split optimized).mapError fun f => .ofGraphic path (.ofSplit f))

/-- The graphic at a path, with the path. -/
def loadGraphic (c : Compiler) (files : Files) (path : Path) : Job (Path × Graphic) := do
  let text ← readGraphic files path
  let graphic ← c.makeGraphic path text
  return (path, graphic)

/-- The graphics to load: those that are needed and are not kept, or changed. Each is loaded once. -/
def toLoad (needed : List Path) (kept : OrderedMap Path Graphic) (changed : List Path) : List Path :=
  needed.eraseDups.filter fun path => !kept.contains path || path ∈ changed

/-- Load graphics. All are tried, and the first that fails is reported. -/
def loadGraphics (c : Compiler) (files : Files) (paths : List Path) :
    Job (OrderedMap Path Graphic) := do
  let loaded ← Job.all (paths.map (c.loadGraphic files))
  return .ofList loaded

/-- An artifact that was made in this run or kept from an earlier one. -/
def available {α : Type} (staged kept : Option α) (artifact : Artifact) : Job α :=
  match staged.or kept with
  | some a => .done (.ok a)
  | none => .done (.error (.missing artifact))

/-- Everything that the changes make necessary, up to the page itself. -/
def stage (c : Compiler) (files : Files) (ch : Changes) : Job Staged := do
  let kept := c.artifacts
  let blueprint ← Job.onlyIf ch.script (c.loadBlueprint files)
  let stylesheet ← Job.onlyIf ch.stylesheet (readText files c.options.layout.stylesheet)
  let current ← available blueprint kept.blueprint .blueprint
  let css ← Job.onlyIf (ch.script || ch.stylesheet) (do
    let source ← available stylesheet kept.stylesheet .stylesheet
    c.compileCss source current.fragment)
  let template ← Job.onlyIf ch.template (c.loadTemplate files)
  let graphics ← c.loadGraphics files (toLoad current.assets kept.graphics ch.paths)
  return { blueprint, template, stylesheet, css, graphics }

/-- The text of the page. -/
def pageText (c : Compiler) (staged : Staged) (ch : Changes) : Job String := do
  let kept := c.artifacts
  let blueprint ← available staged.blueprint kept.blueprint .blueprint
  let css ← available staged.css kept.css .css
  let template ← available staged.template kept.template .template
  match blueprint.page.render? (staged.graphic? kept ch.paths) with
  | none => .done (.error (.missing .graphic))
  | some rendering =>
    let context := rendering.context blueprint.page.scenes css
    let html ← Job.step .render ((template.render context).mapError (.template .render))
    Job.step .minify ((c.tools.minifyMarkup html).mapError .markup)

/-- What was staged and the page to write, or nothing if no change matters. -/
def prepare (c : Compiler) (files : Files) (ch : Changes) : Job (Option (Staged × String)) := do
  let staged ← c.stage files ch
  if ch.script || ch.template || ch.stylesheet || !staged.graphics.isEmpty then
    let page ← c.pageText staged ch
    return some (staged, page)
  else return none

/-! ### Runs -/

/-- What a run did, and what is there after it. -/
structure Outcome (σ : Type) where
  /-- What was done, in order. -/
  log : List Work
  /-- The store after the run. -/
  store : σ
  /-- The compiler after the run, whether or not it failed. -/
  compiler : Compiler
  /-- Why the run failed, if it did. -/
  result : Except BuildError Unit

variable {σ : Type} [Storage σ]

/-- Bring the page up to date after changes at the given paths. -/
def recompile (c : Compiler) (paths : List Path) (store : σ) : Outcome σ :=
  let ch := Changes.classify paths c.options.layout
  let job := c.prepare (Storage.view store) ch
  let charged := Storage.charge store (Work.readPaths job.log)
  match job.result with
  | .error e => ⟨job.log, charged, c, .error e⟩
  | .ok none => ⟨job.log, charged, c, .ok ()⟩
  | .ok (some (staged, page)) =>
    let target := c.options.layout.page
    match Storage.write charged target page with
    | (.error e, after) => ⟨job.log ++ [.write target], after, c, .error (.io target .write e)⟩
    | (.ok _, after) =>
      ⟨job.log ++ [.write target], after,
        { c with artifacts := c.artifacts.commit staged ch.paths }, .ok ()⟩

/-- A compiler that has made nothing yet. -/
def fresh (tools : Toolchain) (options : BuildOptions) : Compiler := { tools, options }

/-- The sources that a first build needs. -/
def sources (layout : Layout) : List Path := [layout.script, layout.template, layout.stylesheet]

/-- Build the page for the first time. -/
def compile (tools : Toolchain) (options : BuildOptions) (store : σ) : Outcome σ :=
  (fresh tools options).recompile (sources options.layout) store

/-- The compiler, described for a reader of the program's reports. -/
def description (c : Compiler) : String :=
  BuildOptions.braced "Compiler" ("options: " ++ c.options.description ++ ", ..")

end Compiler

/-- A toolchain, described for a reader of the program's reports. -/
def Toolchain.description (_ : Toolchain) : String := BuildOptions.braced "Toolchain" ".."

end SkitPage
