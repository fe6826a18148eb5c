import SkitPage.Text.Escape

/-!
# Rich text

A line is a list of runs, each with its text and three styles. It is written as markup with the tags
`strong`, `em` and `code`, which are properly nested: tags are kept on a stack, a run first closes
the open tags it does not want, taking down whatever stands above them, then opens the ones it lacks.

Key definitions: `Run`, `Style`, `RichText.html`.
-/

namespace SkitPage

/-- A stretch of text in one style. -/
structure Run where
  /-- Shown strong. -/
  bold : Bool := false
  /-- Shown emphasised. -/
  italic : Bool := false
  /-- Shown as code. -/
  code : Bool := false
  /-- The text itself, without any markup. -/
  text : String
deriving DecidableEq, Repr

/-- The styles that have a tag. -/
inductive Style
  | strong
  | em
  | code
deriving DecidableEq, Repr

namespace Style

/-- All styles, in the order in which they are closed and opened. -/
def all : List Style := [.strong, .em, .code]

/-- The name of the style's tag. -/
def tagName : Style → String
  | .strong => "strong"
  | .em => "em"
  | .code => "code"

/-- The tag that starts the style. -/
def openTag (s : Style) : String := "<" ++ s.tagName ++ ">"

/-- The tag that ends the style. -/
def closeTag (s : Style) : String := "</" ++ s.tagName ++ ">"

end Style

/-- Whether a run is shown in a style. -/
def Run.wants (r : Run) : Style → Bool
  | .strong => r.bold
  | .em => r.italic
  | .code => r.code

namespace RichText

/-- Text written so far, and the styles that are open, innermost first. -/
structure Writer where
  /-- The pieces written so far, in order. -/
  written : List String := []
  /-- The open styles, innermost first. -/
  opened : List Style := []
deriving DecidableEq, Repr

/-- The tags that close `s` and everything inside it, and the styles that stay open. Nothing is
closed if `s` is not open. -/
def closing (s : Style) : List Style → List String × List Style
  | [] => ([], [])
  | top :: rest =>
    if s ∈ top :: rest then
      let (tags, left) := closing s rest
      (top.closeTag :: tags, left)
    else ([], top :: rest)

/-- Close `s` if the run does not want it. -/
def Writer.close (r : Run) (w : Writer) (s : Style) : Writer :=
  if r.wants s then w
  else
    let (tags, left) := closing s w.opened
    ⟨w.written ++ tags, left⟩

/-- Open `s` if the run wants it and it is not open. -/
def Writer.openIfWanted (r : Run) (w : Writer) (s : Style) : Writer :=
  if r.wants s ∧ s ∉ w.opened then ⟨w.written ++ [s.openTag], s :: w.opened⟩ else w

/-- Write one run. -/
def Writer.run (w : Writer) (r : Run) : Writer :=
  let closed := Style.all.foldl (Writer.close r) w
  let ready := Style.all.foldl (Writer.openIfWanted r) closed
  { ready with written := ready.written ++ [Text.escape r.text] }

/-- An empty run without style. -/
def plainEnd : Run := { text := "" }

/-- The markup of a list of runs. A last run without style closes what is still open. -/
def html (runs : List Run) : String :=
  String.join ((runs ++ [plainEnd]).foldl Writer.run {}).written

end RichText

end SkitPage
