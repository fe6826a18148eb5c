import SkitPage.Page.Naming
import SkitPage.Stylesheet.Rule

/-!
# The rules of a page

The rules by which the targeted state decides what is to be seen.

A state is to be seen while it is targeted, and the initial state also when no other is. A background,
a character or an emote is to be seen while a state with its mark is targeted; if the initial state has
its mark, also when nothing is targeted. An animation is applied to a character in the same way.

Key definitions: `Page.stateRules`, `Page.activationRules`, `Page.animationRules`, `Page.rules`.
-/

namespace SkitPage.Page

/-! ### States -/

/-- The rules of the states: the initial state is off while another is targeted, all others are off
while they are not. A single state is never off. -/
def stateRules (n : Naming) (count : Nat) : List Rule :=
  let cls := n.className .states
  let initial := n.id (.state 0)
  let base : Rule := ⟨[.compound [.hasClass cls]], ["state", "active-state"]⟩
  let off : Rule :=
    ⟨[.compound [.hasClass cls, .not [.compound [.target]], .not [.compound [.hasId initial]]],
      .related (.compound [.target]) .sibling [.hasId initial]],
      ["inactive-state"]⟩
  if 1 < count then [base, off] else [base]

/-! ### Backgrounds, characters and emotes -/

/-- How elements of a kind are reached from a targeted state. -/
inductive Reach
  /-- They come after the states. -/
  | beside
  /-- They are inside an element that comes after the states. -/
  | within
deriving DecidableEq, Repr

/-- The element with an id, reached from an element that satisfies the conditions. -/
def Reach.select (r : Reach) (start : List Simple) (id : String) : Selector :=
  match r with
  | .beside => .related (.compound start) .sibling [.hasId id]
  | .within => .related (.related (.compound start) .sibling [.any]) .descendant [.hasId id]

/-- An element that a mark on the targeted state switches on. -/
structure Member where
  /-- The element's id. -/
  id : String
  /-- The class of the mark. -/
  activation : String
  /-- Whether the initial state has the mark. -/
  initial : Bool
deriving DecidableEq, Repr

/-- The element while a state with its mark is targeted. -/
def Member.whenShown (r : Reach) (m : Member) : Selector :=
  r.select [.hasClass m.activation, .target] m.id

/-- The element while a state without its mark is targeted. -/
def Member.whenHidden (r : Reach) (m : Member) : Selector :=
  r.select [.target, .not [.compound [.hasClass m.activation]]] m.id

/-- The element at any time. -/
def Member.always (m : Member) : Selector := .compound [.hasId m.id]

/-- The rules of the elements of one kind. If the initial state shows none, all are off and a targeted
state switches on. Otherwise those that it shows are on and a targeted state without their mark
switches off; one list of ids in a negation weighs no more than one id, so that the rules that switch
on still win over it. -/
def activationRules (cls kind : String) (r : Reach) (members : List Member) : List Rule :=
  let initial := members.filter (·.initial)
  if members.isEmpty then []
  else if initial.isEmpty then
    [⟨[.compound [.hasClass cls]], [kind, "inactive-" ++ kind]⟩,
      ⟨members.map (Member.whenShown r), ["active-" ++ kind]⟩]
  else
    [⟨[.compound [.hasClass cls]], [kind]⟩,
      ⟨.compound [.hasClass cls, .not (initial.map Member.always)] ::
          initial.map (Member.whenHidden r), ["inactive-" ++ kind]⟩,
      ⟨initial.map Member.always ++ (members.filter (!·.initial)).map (Member.whenShown r),
        ["active-" ++ kind]⟩]

/-- The member that a mark switches on. -/
def member (s : Script) (n : Naming) (e : Entity) (m : Mark) : Member :=
  ⟨n.id e, n.className m, s.isInitial m⟩

/-- The backgrounds. -/
def backgroundMembers (s : Script) (n : Naming) : List Member :=
  s.backgrounds.map fun b => member s n (.background b) (.background b)

/-- The characters. -/
def characterMembers (s : Script) (n : Naming) : List Member :=
  s.cast.map fun c => member s n (.character c.normalized) (.presence c.normalized)

/-- The emotes. -/
def emoteMembers (s : Script) (n : Naming) : List Member :=
  s.cast.flatMap fun c => (s.emotes c.normalized).map fun e =>
    member s n (.emote c.normalized e) (.emote c.normalized e)

/-! ### Animations -/

/-- Whether a character ever moves in a certain way. -/
def moves (s : Script) (character : String) (m : Motion) : Bool :=
  s.appearances.any fun a => a.name == character && a.motion == some m

/-- When a character moves in a certain way: while a state that says so is targeted, and if the initial
state says so, while nothing is. -/
def motionSelectors (s : Script) (n : Naming) (m : Motion) (character : String) : List Selector :=
  if moves s character m then
    let id := n.id (.character character)
    let mark := Mark.motion character m
    .related (.compound [.hasClass (n.className mark), .target]) .sibling [.hasId id] ::
      if s.isInitial mark then
        [.compound [.hasId id, .not [.related (.compound [.target]) .sibling [.any]]]]
      else []
  else []

/-- The word for a direction. -/
def directionName : Direction → String
  | .entry => "entry"
  | .exit => "exit"

/-- One rule for each animation of a direction, for all characters that move so. -/
def animationRules (s : Script) (n : Naming) (d : Direction) : List Rule :=
  (s.animations d).map fun a =>
    ⟨s.cast.flatMap fun c => motionSelectors s n ⟨d, a⟩ c.normalized,
      [a ++ "-" ++ directionName d ++ "-animation"]⟩

/-! ### All rules -/

/-- The rules of a script's page. -/
def rules (s : Script) (n : Naming) : List Rule :=
  stateRules n s.states.length ++
    activationRules (n.className .backgrounds) "background" .beside (backgroundMembers s n) ++
    activationRules (n.className .characters) "character" .beside (characterMembers s n) ++
    animationRules s n .entry ++
    animationRules s n .exit ++
    activationRules (n.className .emotes) "emote" .within (emoteMembers s n)

end SkitPage.Page
