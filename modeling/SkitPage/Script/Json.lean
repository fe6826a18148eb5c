import SkitPage.Json.Shape
import SkitPage.Script.Basic

/-!
# Scripts as JSON

The JSON form of a script: how it is decoded, with the shape errors of each part, and how it is
written.

Key definitions: `Script.ofJson`, `Script.toJson`, `Run.listOfJson`.
-/

namespace SkitPage

open Shape

/-! ### Runs -/

namespace Run

/-- A run from the fields of an object. -/
def ofFields (o : List (String × Json)) : Except ShapeError Run := do
  let bold ← field? o "bold" flag
  let code ← field? o "code" flag
  let italic ← field? o "italic" flag
  let text ← require "plainText" (← field? o "plainText" Shape.text)
  return { bold := bold.getD false, italic := italic.getD false, code := code.getD false, text }

/-- A run from the items of an array. -/
def ofItems (setting : Setting) (xs : List Json) : Except ShapeError Run := do
  let bold ← itemOr xs 0 false flag
  let italic ← itemOr xs 1 false flag
  let code ← itemOr xs 2 false flag
  let text ← item xs 3 "struct Run" 4 Shape.text
  atMost xs 4 setting
  return { bold, italic, code, text }

/-- A list of runs. -/
def listOfJson (setting : Setting) : Json → Except ShapeError (List Run) :=
  list (record "Run" ofFields (ofItems setting))

/-- The JSON form of a run. -/
def toJson (r : Run) : Json :=
  .object [("bold", .bool r.bold), ("italic", .bool r.italic), ("code", .bool r.code),
    ("plainText", .string r.text)]

end Run

/-! ### Characters and presences -/

namespace Character

/-- A character from the fields of an object. -/
def ofFields (o : List (String × Json)) : Except ShapeError Character := do
  let normalized ← field? o "normalized" text
  let verbatim ← field? o "verbatim" text
  return { normalized := ← require "normalized" normalized, verbatim := ← require "verbatim" verbatim }

/-- A character from the items of an array. -/
def ofItems (xs : List Json) : Except ShapeError Character := do
  let normalized ← item xs 0 "struct MapCharacter" 2 text
  let verbatim ← item xs 1 "struct MapCharacter" 2 text
  atMost xs 2 .plain
  return { normalized, verbatim }

/-- The JSON form of a character. -/
def toJson (c : Character) : Json :=
  .object [("normalized", .string c.normalized), ("verbatim", .string c.verbatim)]

end Character

namespace Presence

/-- An animation and an emote, for the alternative `what`. -/
def animated (what : String) (make : String → String → Presence) :
    Body → Except ShapeError Presence
  | .fields o => do
    let animation ← field? o "animation" text
    let emote ← field? o "emote" text
    return make (← require "animation" animation) (← require "emote" emote)
  | .items xs => do
    let animation ← item xs 0 what 2 text
    let emote ← item xs 1 what 2 text
    atMost xs 2 .insideTagged
    return make animation emote

/-- An emote alone. -/
def still : Body → Except ShapeError Presence
  | .fields o => do
    return .present (← require "emote" (← field? o "emote" text))
  | .items xs => do
    let emote ← item xs 0 "struct variant Presence::Present" 1 text
    atMost xs 1 .insideTagged
    return .present emote

/-- No parts at all. -/
def unseen : Body → Except ShapeError Presence
  | .fields _ => return .absent
  | .items xs => do
    atMost xs 0 .insideTagged
    return .absent

/-- A presence from its tag and its parts. -/
def ofParts (tag : String) (body : Body) : Except ShapeError Presence :=
  match tag with
  | "notPresent" => unseen body
  | "entering" => animated "struct variant Presence::Entering" .entering body
  | "present" => still body
  | "exiting" => animated "struct variant Presence::Exiting" .exiting body
  | other => .error (.unknown other ["notPresent", "entering", "present", "exiting"])

/-- A presence. -/
def ofJson : Json → Except ShapeError Presence := tagged "Presence" ofParts

/-- The JSON form of a presence. -/
def toJson : Presence → Json
  | .absent => .object [("type", .string "notPresent")]
  | .entering a e =>
    .object [("type", .string "entering"), ("animation", .string a), ("emote", .string e)]
  | .present e => .object [("type", .string "present"), ("emote", .string e)]
  | .exiting a e =>
    .object [("type", .string "exiting"), ("animation", .string a), ("emote", .string e)]

end Presence

/-! ### Interactions -/

namespace MenuOption

/-- A menu entry from the fields of an object. -/
def ofFields (o : List (String × Json)) : Except ShapeError MenuOption := do
  let content ← field? o "content" (Run.listOfJson .insideTagged)
  let target ← field? o "stateIndex" index
  return { content := ← require "content" content, target := ← require "stateIndex" target }

/-- A menu entry from the items of an array. -/
def ofItems (xs : List Json) : Except ShapeError MenuOption := do
  let content ← item xs 0 "struct MenuOption" 2 (Run.listOfJson .insideTagged)
  let target ← item xs 1 "struct MenuOption" 2 index
  atMost xs 2 .insideTagged
  return { content, target }

/-- A list of menu entries. -/
def listOfJson : Json → Except ShapeError (List MenuOption) :=
  list (record "MenuOption" ofFields ofItems)

/-- The JSON form of a menu entry. -/
def toJson (m : MenuOption) : Json :=
  .object [("content", .array (m.content.map Run.toJson)), ("stateIndex", .nat m.target)]

end MenuOption

namespace Interaction

/-- A single target. -/
def single : Body → Except ShapeError Interaction
  | .fields o => do
    return .dismiss (← require "stateIndex" (← field? o "stateIndex" index))
  | .items xs => do
    let target ← item xs 0 "struct variant Interaction::Dismiss" 1 index
    atMost xs 1 .insideTagged
    return .dismiss target

/-- A list of menu entries. -/
def several : Body → Except ShapeError Interaction
  | .fields o => do
    return .menu (← require "options" (← field? o "options" MenuOption.listOfJson))
  | .items xs => do
    let options ← item xs 0 "struct variant Interaction::Menu" 1 MenuOption.listOfJson
    atMost xs 1 .insideTagged
    return .menu options

/-- An interaction from its tag and its parts. -/
def ofParts (tag : String) (body : Body) : Except ShapeError Interaction :=
  match tag with
  | "dismiss" => single body
  | "menu" => several body
  | other => .error (.unknown other ["dismiss", "menu"])

/-- An interaction. -/
def ofJson : Json → Except ShapeError Interaction := tagged "Interaction" ofParts

/-- The JSON form of an interaction. -/
def toJson : Interaction → Json
  | .dismiss t => .object [("type", .string "dismiss"), ("stateIndex", .nat t)]
  | .menu options =>
    .object [("type", .string "menu"), ("options", .array (options.map MenuOption.toJson))]

end Interaction

/-! ### States and scripts -/

namespace State

/-- A state from the fields of an object. -/
def ofFields (o : List (String × Json)) : Except ShapeError State := do
  let background ← field? o "background" (nullable text)
  let presences ← field? o "characters" (list Presence.ofJson)
  let interaction ← field? o "interaction" Interaction.ofJson
  let line ← field? o "line" (nullable (Run.listOfJson .plain))
  let speakers ← field? o "speakers" (list text)
  return {
    background := background.join
    presences := ← require "characters" presences
    speakers := speakers.getD []
    line := line.join
    interaction := ← require "interaction" interaction }

/-- A state from the items of an array. -/
def ofItems (xs : List Json) : Except ShapeError State := do
  let background ← item xs 0 "struct MapState" 5 (nullable text)
  let presences ← item xs 1 "struct MapState" 5 (list Presence.ofJson)
  let speakers ← itemOr xs 2 [] (list text)
  let line ← item xs 3 "struct MapState" 5 (nullable (Run.listOfJson .plain))
  let interaction ← item xs 4 "struct MapState" 5 Interaction.ofJson
  atMost xs 5 .plain
  return { background, presences, speakers, line, interaction }

/-- The JSON form of a state; what is left out is written as null. -/
def toJson (s : State) : Json :=
  .object [
    ("background", .ofOption (s.background.map .string)),
    ("characters", .array (s.presences.map Presence.toJson)),
    ("speakers", .strings s.speakers),
    ("line", .ofOption (s.line.map fun runs => .array (runs.map Run.toJson))),
    ("interaction", s.interaction.toJson)]

end State

namespace Script

/-- The states of a script. -/
def statesOfJson : Json → Except ShapeError (List State) :=
  list (record "MapState" State.ofFields State.ofItems)

/-- The declared characters of a script. -/
def charactersOfJson : Json → Except ShapeError (List Character) :=
  list (record "MapCharacter" Character.ofFields Character.ofItems)

/-- A script from the fields of an object. -/
def ofFields (o : List (String × Json)) : Except ShapeError Script := do
  let characters ← field? o "characters" charactersOfJson
  let states ← field? o "states" statesOfJson
  return { states := ← require "states" states, characters := ← require "characters" characters }

/-- A script from the items of an array. -/
def ofItems (xs : List Json) : Except ShapeError Script := do
  let states ← item xs 0 "struct MapScript" 2 statesOfJson
  let characters ← item xs 1 "struct MapScript" 2 charactersOfJson
  atMost xs 2 .plain
  return { states, characters }

/-- A script. -/
def ofJson : Json → Except ShapeError Script := record "MapScript" ofFields ofItems

/-- The JSON form of a script. -/
def toJson (s : Script) : Json :=
  .object [("states", .array (s.states.map State.toJson)),
    ("characters", .array (s.characters.map Character.toJson))]

end Script

end SkitPage
