import SkitPage.Page.Basic
import SkitPage.Page.Rules
import SkitPage.Script.Check

/-!
# Blueprints

A blueprint is all that a script alone decides about its page: what the page shows, the rules that it
adds to the stylesheet, and the graphics that it needs.

Key definitions: `Page.ofScript`, `Script.assets`, `Blueprint`, `Blueprint.ofScript`.
-/

namespace SkitPage

namespace Script

/-- The name that is shown for a declared character; of several declarations the last counts. -/
def displayName? (s : Script) (name : String) : Option String :=
  (s.characters.reverse.find? (·.normalized == name)).map (·.verbatim)

/-- The names of the speakers of a state, in increasing order and each once. Names that are not
declared are left out; if none is left there are no speakers. -/
def speakers? (s : Script) (state : State) : Option (List String) :=
  match state.speakers.filterMap s.displayName? with
  | [] => none
  | names => some (names.mergeSort fun a b => decide (a ≤ b)).eraseDups

/-- The graphics that a script's page needs, in document order. -/
def assets (s : Script) : List Path :=
  s.backgrounds.map Path.background ++
    s.cast.flatMap fun c => (s.emotes c.normalized).map (Path.emote c.normalized)

end Script

namespace Page

/-- Where a link to the state at a position leads. -/
def href (n : Naming) (position : Nat) : String := "#" ++ n.id (.state position)

/-- The ways out of a scene. -/
def exit (n : Naming) : Interaction → Exit
  | .dismiss t => .dismiss (href n t)
  | .menu options => .menu (options.map fun o => ⟨RichText.html o.content, href n o.target⟩)

/-- The element of the state at a position. -/
def scene (s : Script) (n : Naming) (state : State) (position : Nat) : Scene :=
  { attributes := ⟨n.id (.state position), (state.marks s.characters).map n.className⟩
    line := state.line.map RichText.html
    speakers := s.speakers? state
    exit := exit n state.interaction }

/-- The element of a background. -/
def backdrop (n : Naming) (name : String) : Backdrop :=
  ⟨name, ⟨n.id (.background name), [n.className .backgrounds]⟩, .background name⟩

/-- The element of an emote. -/
def face (n : Naming) (character name : String) : Face :=
  ⟨name, ⟨n.id (.emote character name), [n.className .emotes]⟩, .emote character name⟩

/-- The element of a character. -/
def actor (s : Script) (n : Naming) (c : Character) : Actor :=
  { normalized := c.normalized
    verbatim := c.verbatim
    attributes := ⟨n.id (.character c.normalized), [n.className .characters]⟩
    faces := (s.emotes c.normalized).map (face n c.normalized) }

/-- What the page of a script shows. -/
def ofScript (s : Script) (n : Naming) : Page :=
  { scenes := s.pageStates.map fun (state, i) => scene s n state i
    backdrops := s.backgrounds.map (backdrop n)
    actors := s.cast.map (actor s n) }

end Page

/-- What a script decides about its page. -/
structure Blueprint where
  /-- What the page shows. -/
  page : Page
  /-- The rules that it adds to the stylesheet. -/
  rules : List Rule
  /-- The graphics that it needs. -/
  assets : List Path

namespace Blueprint

/-- The text of the rules. -/
def fragment (b : Blueprint) : String := Rule.renderAll b.rules

/-- The blueprint of a script without faults, with the keys of the given ledger. -/
def draw (s : Script) (ledger : Ledger) : Blueprint :=
  let n := s.naming ledger
  { page := .ofScript s n, rules := Page.rules s n, assets := s.assets }

/-- The blueprint of a script, or its first fault. -/
def ofScript (s : Script) : Except ScriptError Blueprint :=
  match s.fault? with
  | some fault => .error fault
  | none => match s.ledger? with
    | none => .error .noKeysLeft
    | some ledger => .ok (draw s ledger)

end Blueprint

end SkitPage
