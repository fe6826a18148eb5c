import SkitPage.Json.Shape

/-!
# Paths

A path names a source or a result by its segments. Paths are compared segment by segment, each
segment by code point. Graphics lie at paths that follow from the names in a script. As JSON a path is
the list of its segments.

Key definitions: `Path`, `Path.display`, `Path.background`, `Path.emote`, `Path.ofJson`, `Path.toJson`.
-/

namespace SkitPage

/-- The segments of a path, outermost first. A segment may be any text. -/
structure Path where
  /-- The segments, outermost first. -/
  segments : List String
deriving DecidableEq, Repr, Inhabited

namespace Path

instance : LT Path := ⟨fun a b => a.segments < b.segments⟩

instance : DecidableLT Path := fun a b => inferInstanceAs (Decidable (a.segments < b.segments))

instance : KeyOrder Path where
  lt_irrefl a := KeyOrder.lt_irrefl a.segments
  lt_trans {_ b _} hab hbc := KeyOrder.lt_trans (b := b.segments) hab hbc
  eq_of_not_lt hab hba := congrArg Path.mk (KeyOrder.eq_of_not_lt hab hba)

/-- The segments with slashes between them. -/
def display (p : Path) : String := "/".intercalate p.segments

/-- How `a` stands to `b` in the order of paths. -/
def compare (a b : Path) : Ordering :=
  if a < b then .lt else if b < a then .gt else .eq

/-- Where the graphic of a background lies. -/
def background (name : String) : Path := ⟨["backgrounds", name ++ ".svg"]⟩

/-- Where the graphic of a character's emote lies. -/
def emote (character emote : String) : Path :=
  ⟨["characters", character, "emotes", emote ++ ".svg"]⟩

/-- A path. -/
def ofJson (v : Json) : Except ShapeError Path := (Shape.list Shape.text v).map Path.mk

/-- The JSON form of a path. -/
def toJson (p : Path) : Json := .strings p.segments

end Path

end SkitPage
