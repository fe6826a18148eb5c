import SkitPage.Drawing.Optimize
import SkitPage.Json.Printer
import SkitPage.Json.Reader
import SkitPage.Script.Json
import SkitPage.Toolchain.Basic
import SkitPage.Toolchain.Css.Minify

/-!
# A toolchain for rehearsals

Plain tools with which a build can be tried out. A script is JSON, a template is put before the context
that it is rendered with, and stylesheets, graphics and pages stay as they are; only plain stylesheets are
made small. Marks in a text make the tool that gets it fail, so that every failure can be rehearsed.

Key definitions: `Rehearsal`, `Rehearsal.toolchain`.
-/

namespace SkitPage

/-- How a rehearsal departs from the plainest tools. -/
structure Rehearsal where
  /-- The result of every stylesheet, if it is fixed. -/
  fixedCss : Option String := none
  /-- Whether graphics are optimised as drawings. -/
  drawings : Bool := false
deriving DecidableEq, Repr

namespace Rehearsal

/-- A mark that makes a tool fail: two opening braces and a word. -/
def mark (word : String) : List Char := '\x7b' :: '\x7b' :: word.toList

/-- Whether a text holds the mark of a word. -/
def isMarked (word text : String) : Bool := Text.holds (mark word) text.toList

/-- The diagnostics at a field of a tree, if it has the field. A list that cannot be read is itself
diagnosed. -/
def diagnosticsAt (name : String) (tree : Json) : Option (List Diagnostic) :=
  (tree.field? name).map fun v => match Diagnostic.listOfJson v with
    | .ok ds => ds
    | .error e => [.ofError e.message]

/-- A script's text as a tree. -/
def parse (text : String) : Except (List Diagnostic) Json :=
  match Json.parse? text with
  | none => .error [.ofError "script is not JSON"]
  | some tree => match diagnosticsAt "parseDiagnostics" tree with
    | some ds => .error ds
    | none => .ok tree

/-- A tree as a script. -/
def map (tree : Json) : Except (List Diagnostic) Script :=
  match diagnosticsAt "mapDiagnostics" tree with
  | some ds => .error ds
  | none => (Script.ofJson tree).mapError fun e => [.ofError e.message]

/-- The template of a source. -/
def compileTemplate (source : String) : Except String Template :=
  if isMarked "broken" source then .error "unterminated tag"
  else .ok ⟨fun context =>
    if isMarked "unrenderable" source then .error "cannot render" else .ok (source ++ context.compact)⟩

/-- The plain stylesheet of a source. -/
def compileStylesheet (r : Rehearsal) (source : String) : Except String String :=
  if isMarked "badsass" source then .error "bad stylesheet" else .ok (r.fixedCss.getD source)

/-- A graphic made small. -/
def optimize (r : Rehearsal) (text : String) : Except ToolFault String :=
  if isMarked "reject" text then .error (.rejected "rejected by optimizer")
  else if isMarked "panic" text then .error .crashed
  else if r.drawings then (Drawing.optimize {} text).mapError .rejected
  else .ok text

/-- A plain stylesheet made small. -/
def minifyCss (css : String) : Except CssFault String :=
  match Css.minify? css with
  | some small => .ok small
  | none => .error ⟨.parse, "unreadable stylesheet"⟩

/-- A page made small. -/
def minifyMarkup (html : String) : Except String String :=
  if isMarked "unminifiable" html then .error "cannot minify" else .ok html

/-- The tools of a rehearsal. -/
def toolchain (r : Rehearsal) : Toolchain where
  parse := parse
  map := map
  compileTemplate := compileTemplate
  compileStylesheet := r.compileStylesheet
  optimize := r.optimize
  minifyCss := minifyCss
  minifyMarkup := minifyMarkup

end Rehearsal

end SkitPage
