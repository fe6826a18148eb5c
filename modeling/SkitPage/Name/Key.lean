/-!
# Keys

Everything that may need a name is first given a key. A key is a 32-bit number drawn from a source;
which numbers were drawn never shows in a name, only which keys are equal and which is looked up
first. A source counts its keys in 32 bits as well, and gives out no key that it could not count.

Key definitions: `Key`, `KeySource.next?`.
-/

namespace SkitPage

/-- What a thing is known by before it has a name. -/
structure Key where
  /-- The position of the key in its source. -/
  number : UInt32
deriving DecidableEq, Repr

/-- Hands out keys one after the other. -/
structure KeySource where
  /-- The number of the next key, which is how many were handed out. -/
  issued : UInt32 := 0
deriving DecidableEq, Repr

namespace KeySource

/-- A source that has handed out nothing. -/
def start : KeySource := ⟨0⟩

/-- The next key, and the source after it, unless the count would overflow. -/
def next? (s : KeySource) : Option (Key × KeySource) :=
  if s.issued + 1 = 0 then none else some (⟨s.issued⟩, ⟨s.issued + 1⟩)

end KeySource

/-- The order of two keys is the order of their numbers. -/
def Key.compare (a b : Key) : Ordering := Ord.compare a.number b.number

end SkitPage
