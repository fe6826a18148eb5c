import SkitPage.Name.Key
import SkitPage.Name.Table
import SkitPage.Page.Role

/-!
# Names of elements and classes

Every role gets a key when a walk over the script first needs it. Names are given later, in the order
in which the page shows them, ids and classes apart: states first, so that the names that are written
most often are the shortest.

On the page the first state of the script comes last. It is the one to be seen when nothing is
targeted, and a rule can only switch it off from an element before it.

Key definitions: `Ledger`, `Script.ledger?`, `Script.elementOrder`, `Script.markOrder`, `Naming`,
`Script.naming`.
-/

namespace SkitPage

/-! ### Keys of roles -/

/-- The keys of the roles that were needed so far. -/
structure Ledger where
  /-- Where the next key comes from. -/
  source : KeySource := .start
  /-- The keys in the order in which they were handed out. -/
  entries : List (Role × Key) := []
deriving DecidableEq, Repr

namespace Ledger

/-- Take note that `r` is needed: it gets a key unless it has one, if there is a key left. -/
def note? (l : Ledger) (r : Role) : Option Ledger :=
  match l.entries.lookup r with
  | some _ => some l
  | none => l.source.next?.map fun (key, source) => ⟨source, l.entries ++ [(r, key)]⟩

/-- The ledger after the needs `rs`, if there are keys for all of them. -/
def ofRoles? (rs : List Role) : Option Ledger := rs.foldlM note? {}

/-- The key of a role; one that was never needed would get the next key. -/
def key (l : Ledger) (r : Role) : Key := (l.entries.lookup r).getD ⟨l.source.issued⟩

end Ledger

/-! ### Order of naming -/

/-- The list with its first item moved to the end. -/
def initialLast {α : Type} : List α → List α
  | [] => []
  | x :: xs => xs ++ [x]

namespace Script

/-- The keys of everything that a script needs, if there are enough. -/
def ledger? (s : Script) : Option Ledger := Ledger.ofRoles? s.roles

/-- The states in the order of the page, with their positions in the script. -/
def pageStates (s : Script) : List (State × Nat) := initialLast s.states.zipIdx

/-- The elements of the page in document order: states, backgrounds, and each character with its
emotes. -/
def elementOrder (s : Script) : List Entity :=
  s.pageStates.map (fun (_, i) => .state i) ++
    s.backgrounds.map .background ++
    s.cast.flatMap fun c =>
      .character c.normalized :: (s.emotes c.normalized).map (.emote c.normalized)

/-- The marks in the order in which the page shows them, with repetitions: those of the states, and
then one for each kind of element that there is. -/
def markOrder (s : Script) : List Mark :=
  s.pageStates.flatMap (fun (state, _) => state.marks s.characters) ++
    (if s.backgrounds.isEmpty then [] else [.backgrounds]) ++
    (if s.cast.isEmpty then [] else [.characters, .emotes])

/-- The ids of a script's page. -/
def elementTable (s : Script) (ledger : Ledger) : NameTable Key :=
  .ofKeys (s.elementOrder.map fun e => ledger.key (.element e))

/-- The classes of a script's page. -/
def markTable (s : Script) (ledger : Ledger) : NameTable Key :=
  .ofKeys (s.markOrder.map fun m => ledger.key (.mark m))

end Script

/-- The names on a page. -/
structure Naming where
  /-- The id of an element. -/
  id : Entity → String
  /-- The class that stands for a mark. -/
  className : Mark → String

/-- The names on a script's page. -/
def Script.naming (s : Script) (ledger : Ledger) : Naming :=
  let elements := s.elementTable ledger
  let marks := s.markTable ledger
  { id := fun e => elements.nameOf (ledger.key (.element e))
    className := fun m => marks.nameOf (ledger.key (.mark m)) }

end SkitPage
