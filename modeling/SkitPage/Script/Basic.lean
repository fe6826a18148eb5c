import SkitPage.RichText

/-!
# Scripts

A script is a list of states and a list of declared characters. A state has a background or none, one
presence for each declared character, the names of who speaks, a line or none, and an interaction that
leads on to other states by their positions.

Key definitions: `Script`, `State`, `Presence`, `Interaction`, `Appearance`, `State.appearances`.
-/

namespace SkitPage

/-- A declared character: the name that the script knows it by, and the name that is shown. -/
structure Character where
  /-- What states call the character. -/
  normalized : String
  /-- What the page calls the character. -/
  verbatim : String
deriving DecidableEq, Repr

/-- Whether an animation plays as a character comes or as it goes. -/
inductive Direction
  | entry
  | exit
deriving DecidableEq, Repr

/-- An animation of a character in a state. -/
structure Motion where
  /-- Whether the character comes or goes. -/
  direction : Direction
  /-- The name of the animation. -/
  animation : String
deriving DecidableEq, Repr

/-- How a declared character takes part in a state. -/
inductive Presence
  | absent
  | entering (animation emote : String)
  | present (emote : String)
  | exiting (animation emote : String)
deriving DecidableEq, Repr

namespace Presence

/-- The emote that is shown, unless the character is absent. -/
def emote? : Presence → Option String
  | .absent => none
  | .entering _ e => some e
  | .present e => some e
  | .exiting _ e => some e

/-- The animation that plays, if one does. -/
def motion? : Presence → Option Motion
  | .entering a _ => some ⟨.entry, a⟩
  | .exiting a _ => some ⟨.exit, a⟩
  | _ => none

end Presence

/-- An entry of a menu. -/
structure MenuOption where
  /-- What the entry says. -/
  content : List Run
  /-- The position of the state that it leads to. -/
  target : Nat
deriving DecidableEq, Repr

/-- How a state is left. -/
inductive Interaction
  | dismiss (target : Nat)
  | menu (options : List MenuOption)
deriving DecidableEq, Repr

/-- The positions of the states that an interaction leads to, in order. -/
def Interaction.targets : Interaction → List Nat
  | .dismiss t => [t]
  | .menu options => options.map (·.target)

/-- One moment of a script. -/
structure State where
  /-- The background, if there is one. -/
  background : Option String
  /-- How each declared character takes part. -/
  presences : List Presence
  /-- Who speaks, by the names that the script knows. -/
  speakers : List String
  /-- What is said, if anything. -/
  line : Option (List Run)
  /-- How the state is left. -/
  interaction : Interaction
deriving DecidableEq, Repr

/-- A whole script; it begins in its first state. -/
structure Script where
  /-- The states; they refer to each other by position. -/
  states : List State
  /-- The declared characters, in the order of the presences of a state. -/
  characters : List Character
deriving DecidableEq, Repr

/-- A character that is to be seen in a state. -/
structure Appearance where
  /-- Who is seen. -/
  character : Character
  /-- How the character comes or goes, if it does. -/
  motion : Option Motion
  /-- What the character looks like. -/
  emote : String
deriving DecidableEq, Repr

/-- Who is seen in a state, in the order of declaration. -/
def State.appearances (declared : List Character) (s : State) : List Appearance :=
  (declared.zip s.presences).filterMap fun (c, p) =>
    p.emote?.map fun e => { character := c, motion := p.motion?, emote := e }

namespace Script

/-- Everyone who is ever seen, state by state. -/
def appearances (s : Script) : List Appearance :=
  s.states.flatMap (·.appearances s.characters)

/-- The backgrounds in order of first use. -/
def backgrounds (s : Script) : List String := (s.states.filterMap (·.background)).eraseDups

/-- The characters that are ever seen, in order of first appearance. A name that is declared twice
counts once, as it was declared where it is first seen. -/
def cast (s : Script) : List Character :=
  (s.appearances.map (·.character)).eraseDupsBy fun a b => a.normalized == b.normalized

/-- The emotes that a character is seen with, in order of first use. -/
def emotes (s : Script) (character : String) : List String :=
  ((s.appearances.filter fun a => a.character.normalized == character).map (·.emote)).eraseDups

/-- The animations of one direction, in order of first use. -/
def animations (s : Script) (direction : Direction) : List String :=
  ((s.appearances.filterMap (·.motion)).filter (·.direction == direction)).map (·.animation)
    |>.eraseDups

end Script

end SkitPage
