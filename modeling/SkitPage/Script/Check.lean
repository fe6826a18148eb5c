import SkitPage.Script.Basic

/-!
# Faults of scripts

A script can become a page if it has a state, if every state says of every declared character how it
takes part, and if every interaction leads to a state that exists. States are checked in order, and in
a state the number of presences before the targets. A script without such a fault can still be too
large: everything on its page needs a key, and there are only so many.

Key definitions: `ScriptError`, `Script.fault?`.
-/

namespace SkitPage

/-- Why a script cannot become a page. -/
inductive ScriptError
  /-- There is no state to begin in. -/
  | noStates
  /-- A state describes `found` characters, and `declared` are declared. -/
  | presenceCount (state found declared : Nat)
  /-- A state leads to `target`, and there are only `count` states. -/
  | targetOutOfRange (state target count : Nat)
  /-- The count of keys overflows. -/
  | noKeysLeft
deriving DecidableEq, Repr

/-- The wording of a script error. -/
def ScriptError.message : ScriptError → String
  | .noStates => "script has no states"
  | .presenceCount state found declared =>
    s!"state {state} describes {found} characters but {declared} are declared"
  | .targetOutOfRange state target count =>
    s!"state {state} links to state {target}, but there are only {count} states"
  | .noKeysLeft => "attempt to add with overflow"

/-- The first fault of the state at position `index`, of a script with `count` states. -/
def State.fault? (declared count index : Nat) (s : State) : Option ScriptError :=
  if s.presences.length ≠ declared then some (.presenceCount index s.presences.length declared)
  else (s.interaction.targets.find? (count ≤ ·)).map (.targetOutOfRange index · count)

namespace Script

/-- The first fault of a list of states that begins at position `index`. -/
def statesFault? (declared count : Nat) : Nat → List State → Option ScriptError
  | _, [] => none
  | index, s :: rest =>
    (s.fault? declared count index).or (statesFault? declared count (index + 1) rest)

/-- The first fault of a script. -/
def fault? (s : Script) : Option ScriptError :=
  if s.states.isEmpty then some .noStates
  else statesFault? s.characters.length s.states.length 0 s.states

end Script

end SkitPage
