import SkitPage.Script.Basic

/-!
# Roles

What on a page may need a name: its elements, and the marks that its elements carry as classes. A
state's element is marked with everything that the state shows, so that a rule of the stylesheet can
tell from the targeted state what to switch on.

`Script.roles` lists the roles in the order in which a walk over the script needs them.

Key definitions: `Entity`, `Mark`, `Role`, `State.marks`, `Script.roles`.
-/

namespace SkitPage

/-- An element of the page. -/
inductive Entity
  | state (position : Nat)
  | background (name : String)
  | character (name : String)
  | emote (character name : String)
deriving DecidableEq, Repr

/-- A class of the page's elements: one for each kind of element, and on the states one for each thing
that a state shows. -/
inductive Mark
  | states
  | backgrounds
  | characters
  | emotes
  | background (name : String)
  | presence (character : String)
  | motion (character : String) (motion : Motion)
  | emote (character name : String)
deriving DecidableEq, Repr

/-- What a key stands for. -/
inductive Role
  | element (entity : Entity)
  | mark (mark : Mark)
deriving DecidableEq, Repr

namespace Appearance

/-- The name of who appears. -/
def name (a : Appearance) : String := a.character.normalized

/-- The marks of a state in which the appearance happens. -/
def marks (a : Appearance) : List Mark :=
  .presence a.name :: (a.motion.map (.motion a.name)).toList ++ [.emote a.name a.emote]

/-- What the appearance needs, in order. -/
def roles (a : Appearance) : List Role :=
  [.mark .characters, .element (.character a.name), .mark (.presence a.name)] ++
    (a.motion.map fun m => .mark (.motion a.name m)).toList ++
    [.mark .emotes, .element (.emote a.name a.emote), .mark (.emote a.name a.emote)]

end Appearance

namespace State

/-- The marks of a state's element, in order. -/
def marks (declared : List Character) (s : State) : List Mark :=
  .states :: (s.background.map .background).toList ++
    (s.appearances declared).flatMap Appearance.marks

/-- What a background needs, in order. -/
def backgroundRoles (name : String) : List Role :=
  [.mark .backgrounds, .element (.background name), .mark (.background name)]

/-- What the state at a position needs, in order; its own element comes last. -/
def roles (declared : List Character) (s : State) (position : Nat) : List Role :=
  (s.background.map backgroundRoles).getD [] ++
    (s.appearances declared).flatMap Appearance.roles ++
    [.element (.state position)]

end State

namespace Script

/-- What a script needs, in order, with repetitions. -/
def roles (s : Script) : List Role :=
  .mark .states :: s.states.zipIdx.flatMap fun (state, i) => state.roles s.characters i

/-- The marks of the state in which the script begins. -/
def initialMarks (s : Script) : List Mark :=
  (s.states.head?.map (·.marks s.characters)).getD []

/-- Whether a mark is on the state in which the script begins. -/
def isInitial (s : Script) (m : Mark) : Bool := m ∈ s.initialMarks

end Script

end SkitPage
