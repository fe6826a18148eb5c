/-!
# Markup escapes

The five characters that markup gives a meaning to are written as entities. Everything else stands
for itself.

Key definitions: `Text.entity?`, `Text.escape`.
-/

namespace SkitPage.Text

/-- The name of the entity that stands for a character, for the five characters that have one. -/
def entity? : Char → Option String
  | '<' => some "lt"
  | '>' => some "gt"
  | '&' => some "amp"
  | '\'' => some "apos"
  | '"' => some "quot"
  | _ => none

/-- One character, written so that markup reads it back as itself. -/
def escapeChar (c : Char) : List Char :=
  match entity? c with
  | some name => '&' :: name.toList ++ [';']
  | none => [c]

/-- A text, written so that markup reads it back as itself. -/
def escape (text : String) : String := String.ofList (text.toList.flatMap escapeChar)

end SkitPage.Text
