import SkitPage.Decimal.Text
import SkitPage.Json.Basic
import SkitPage.Text.Quoted

/-!
# Shapes of values

Decoding a value into a type of the domain fails when the value has the wrong shape. The failures are
causes (`ShapeError`), their wording is in `ShapeError.message`.

A record may be written as an object or as an array of its fields in the order of their declaration.
The fields of an object are decoded in increasing order of their names, so that of several faults the
one with the least name is reported; a field that is missing is reported only when all fields that are
there have been decoded. A value that carries a tag is an object with a field `type`, or an array that
starts with the tag.

Key definitions: `ShapeError`, `Shape.list`, `Shape.record`, `Shape.tagged`, `Items`.
-/

namespace SkitPage

/-- What a value was expected to be. -/
inductive Expected
  | sequence
  | text
  | flag
  | index
  | map
  | record (name : String)
  | tagged (name : String)
  | tag
  | textOrMap
  | singleField
  | nothing
deriving DecidableEq, Repr

/-- The wording of an expectation. -/
def Expected.message : Expected → String
  | .sequence => "a sequence"
  | .text => "a string"
  | .flag => "a boolean"
  | .index => "usize"
  | .map => "a map"
  | .record name => "struct " ++ name
  | .tagged name => "internally tagged enum " ++ name
  | .tag => "variant identifier"
  | .textOrMap => "string or map"
  | .singleField => "map with a single key"
  | .nothing => "unit"

/-- Where an array stands: inside a tagged value its length is worded in another way. -/
inductive Setting
  | plain
  | insideTagged
deriving DecidableEq, Repr

/-- Why a value does not have the expected shape. -/
inductive ShapeError
  /-- A value of another kind. -/
  | kind (found : Json) (expected : Expected)
  /-- A value of the right kind that is not allowed. -/
  | value (found : Json) (expected : Expected)
  /-- A field that is not there. -/
  | missing (field : String)
  /-- A tag that names no alternative. -/
  | unknown (tag : String) (known : List String)
  /-- An array that ends before the field at position `found` of the `count` fields of `what`. -/
  | tooShort (found : Nat) (what : String) (count : Nat)
  /-- An array of `found` items where `count` would do. -/
  | tooLong (found count : Nat) (setting : Setting)

/-- How a value is described in a message. -/
def Json.description : Json → String
  | .null => "null"
  | .bool b => "boolean `" ++ (if b then "true" else "false") ++ "`"
  | .integer n => "integer `" ++ toString n ++ "`"
  | .float x => "floating point `" ++ Decimal.textOfFloat x ++ "`"
  | .string s => "string " ++ Text.quoted s
  | .array _ => "sequence"
  | .fields _ => "map"

namespace ShapeError

/-- `n elements`, in the singular for one. -/
def elements (n : Nat) : String := if n = 1 then "1 element" else toString n ++ " elements"

/-- The alternatives of a tag: two are joined by "or", more are listed. -/
def alternatives (known : List String) : String :=
  let quotedNames := known.map fun k => "`" ++ k ++ "`"
  match quotedNames with
  | [a, b] => a ++ " or " ++ b
  | names => "one of " ++ ", ".intercalate names

/-- The wording of a shape error. -/
def message : ShapeError → String
  | .kind found expected => "invalid type: " ++ found.description ++ ", expected " ++ expected.message
  | .value found expected => "invalid value: " ++ found.description ++ ", expected " ++ expected.message
  | .missing field => "missing field `" ++ field ++ "`"
  | .unknown tag known => "unknown variant `" ++ tag ++ "`, expected " ++ alternatives known
  | .tooShort found what count =>
    "invalid length " ++ toString found ++ ", expected " ++ what ++ " with " ++ elements count
  | .tooLong found _ .plain => "invalid length " ++ toString found ++ ", expected fewer elements in array"
  | .tooLong found count .insideTagged =>
    "invalid length " ++ toString found ++ ", expected " ++ elements count ++ " in sequence"

end ShapeError

namespace Shape

variable {α : Type}

/-- A list, each item decoded in turn. -/
def list (item : Json → Except ShapeError α) : Json → Except ShapeError (List α)
  | .array items => items.mapM item
  | v => .error (.kind v .sequence)

/-- A text. -/
def text : Json → Except ShapeError String
  | .string s => .ok s
  | v => .error (.kind v .text)

/-- A truth value. -/
def flag : Json → Except ShapeError Bool
  | .bool b => .ok b
  | v => .error (.kind v .flag)

/-- A natural number. -/
def index : Json → Except ShapeError Nat
  | .integer n => if n < 0 then .error (.value (.integer n) .index) else .ok n.toNat
  | v => .error (.kind v .index)

/-- A value that may be null. -/
def nullable (item : Json → Except ShapeError α) : Json → Except ShapeError (Option α)
  | .null => .ok none
  | v => (item v).map some

/-- A map from texts to texts. -/
def textMap : Json → Except ShapeError (OrderedMap String String)
  | .fields entries => (entries.mapM fun e => (text e.2).map fun t => (e.1, t)).map OrderedMap.ofList
  | v => .error (.kind v .map)

/-- A record, from the fields of an object or from the items of an array. -/
def record (name : String) (ofFields : List (String × Json) → Except ShapeError α)
    (ofItems : List Json → Except ShapeError α) : Json → Except ShapeError α
  | .fields entries => ofFields entries
  | .array items => ofItems items
  | v => .error (.kind v (.record name))

/-- The field `name`, decoded if it is there. -/
def field? (entries : List (String × Json)) (name : String) (item : Json → Except ShapeError α) :
    Except ShapeError (Option α) :=
  match entries.lookup name with
  | some v => (item v).map some
  | none => .ok none

/-- A field that has to be there. -/
def require (name : String) : Option α → Except ShapeError α
  | some a => .ok a
  | none => .error (.missing name)

/-- The item at position `i`, one of the `count` fields of `what`. -/
def item (items : List Json) (i : Nat) (what : String) (count : Nat)
    (decode : Json → Except ShapeError α) : Except ShapeError α :=
  match items[i]? with
  | some v => decode v
  | none => .error (.tooShort i what count)

/-- The item at position `i`, or a default if the array is shorter. -/
def itemOr (items : List Json) (i : Nat) (default : α) (decode : Json → Except ShapeError α) :
    Except ShapeError α :=
  match items[i]? with
  | some v => decode v
  | none => .ok default

/-- No more than `count` items. -/
def atMost (items : List Json) (count : Nat) (setting : Setting) : Except ShapeError Unit :=
  if count < items.length then .error (.tooLong items.length count setting) else .ok ()

/-- The tag of a tagged value. -/
def tag : Json → Except ShapeError String
  | .string s => .ok s
  | v => .error (.kind v .tag)

/-- The parts of a tagged value besides its tag, as fields or as items. -/
inductive Body
  | fields (entries : List (String × Json))
  | items (items : List Json)

/-- A value with a tag. -/
def tagged (name : String) (decode : String → Body → Except ShapeError α) :
    Json → Except ShapeError α
  | .fields entries => match entries.lookup "type" with
    | some v => do decode (← tag v) (.fields entries)
    | none => .error (.missing "type")
  | .array (v :: items) => do decode (← tag v) (.items items)
  | .array [] => .error (.missing "type")
  | v => .error (.kind v (.tagged name))

/-- The alternative of a plain choice, written as its name or as an object whose one field has the
name and is null. -/
def choice (known : List (String × α)) (v : Json) : Except ShapeError α := do
  let pick (name : String) : Except ShapeError α :=
    match known.lookup name with
    | some a => .ok a
    | none => .error (.unknown name (known.map (·.1)))
  match v with
  | .string name => pick name
  | .fields [(name, inner)] =>
    let a ← pick name
    match inner with
    | .null => return a
    | other => .error (.kind other .nothing)
  | .fields _ => .error (.value v .singleField)
  | other => .error (.kind other .textOrMap)

end Shape

end SkitPage
