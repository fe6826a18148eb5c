import SkitPage.OrderedMap

/-!
# JSON values

Values as the JSON reader delivers them. Whole numbers that fit 64 bits, signed or unsigned, are kept
apart from all other numbers: `1` is an integer and `1.0` is not. The fields of an object are in
increasing order of their names and each name stands once.

Key definitions: `Json`, `Json.object`, `Json.field?`.
-/

namespace SkitPage

/-- A JSON value. -/
inductive Json where
  | null
  | bool (value : Bool)
  | integer (value : Int)
  | float (value : Float)
  | string (value : String)
  | array (items : List Json)
  | fields (entries : List (String × Json))
deriving Inhabited

namespace Json

/-- The object with the given fields; of two fields with one name the later stays. -/
def object (pairs : List (String × Json)) : Json := .fields (OrderedMap.ofList pairs).entries

/-- A natural number. -/
def nat (n : Nat) : Json := .integer n

/-- A list of texts. -/
def strings (texts : List String) : Json := .array (texts.map .string)

/-- A value, or null for none. -/
def ofOption : Option Json → Json
  | some v => v
  | none => .null

/-- The field of an object. -/
def field? (name : String) : Json → Option Json
  | .fields entries => entries.lookup name
  | _ => none

end Json

end SkitPage
