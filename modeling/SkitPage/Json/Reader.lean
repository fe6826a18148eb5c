import SkitPage.Json.Basic

/-!
# Reading JSON

A reader of JSON texts. It accepts one value with blanks around it and nothing else, refuses control
characters in strings, unpaired surrogates and numbers with superfluous zeros, and nests at most 127
arrays and objects.

A number without fraction and exponent is an integer if it fits 64 bits, signed or unsigned; `-0` is
no integer. Every other number becomes a double: its leading digits, as far as they fit 64 unsigned
bits, are rounded once, and multiplying or dividing by a power of ten rounds a second time. A number
above the largest double is refused.

Key definitions: `Json.parse?`, `Json.readValue`, `Json.readNumber`.
-/

namespace SkitPage.Json

/-! ### Numbers -/

/-- The greatest unsigned 64-bit number. -/
def maxWord : Nat := Nat.pow 2 64 - 1

/-- The value of a decimal digit. -/
def digit? (c : Char) : Option Nat := if c.isDigit then some (c.toNat - '0'.toNat) else none

/-- The longest start of `cs` that consists of digits, as their values, and the rest. -/
def spanDigits : List Char → List Nat × List Char
  | [] => ([], [])
  | c :: cs => match digit? c with
    | some d => let (ds, rest) := spanDigits cs; (d :: ds, rest)
    | none => ([], c :: cs)

/-- Append digits to a number for as long as it stays within 64 bits; also how many were left over. -/
def accumulate : Nat → List Nat → Nat × Nat
  | n, [] => (n, 0)
  | n, d :: ds => if 10 * n + d ≤ maxWord then accumulate (10 * n + d) ds else (n, ds.length + 1)

/-- `f / 10^e`, in steps that stay within the range of doubles. -/
def scaleDown (f : Float) (e : Nat) : Float :=
  if e ≤ 308 then f / Float.ofScientific 1 false e
  else if f == 0 then f
  else scaleDown (f / Float.ofScientific 1 false 308) (e - 308)
termination_by e

/-- `significand · 10^exponent`, unless it is beyond the largest double. -/
def floatOfParts? (significand : Nat) (exponent : Int) : Option Float :=
  let f := significand.toUInt64.toFloat
  match exponent with
  | .ofNat e =>
    if e ≤ 308 then
      let g := f * Float.ofScientific 1 false e
      if g.isInf then none else some g
    else if f == 0 then some f else none
  | .negSucc e => some (scaleDown f (e + 1))

/-- The exponent after an `e`, if there is one: its value, or `none` for a malformed one. -/
def readExponent : List Char → Option (Int × List Char)
  | c :: cs =>
    if c = 'e' ∨ c = 'E' then
      let (negative, cs) := match cs with
        | '+' :: r => (false, r)
        | '-' :: r => (true, r)
        | r => (false, r)
      match spanDigits cs with
      | ([], _) => none
      | (ds, rest) =>
        let n : Nat := ds.foldl (fun n d => 10 * n + d) 0
        some (if negative then -(n : Int) else n, rest)
    else some (0, c :: cs)
  | [] => some (0, [])

/-- The sign of a double. -/
def signed (negative : Bool) (f : Float) : Json := .float (if negative then -f else f)

/-- The digits before a point as an integer, or as a double if they do not fit. -/
def wholeNumber? (negative : Bool) (digits : List Nat) : Option Json :=
  match accumulate 0 digits with
  | (n, 0) =>
    if !negative then some (.integer n)
    else if 0 < n ∧ n ≤ Nat.pow 2 63 then some (.integer (-(n : Int)))
    else some (signed true n.toUInt64.toFloat)
  | (n, dropped) => (floatOfParts? n dropped).map (signed negative)

/-- A number with a fraction, an exponent or both. The fraction is cut where the significand is
full. -/
def fractional? (negative : Bool) (whole fraction : List Nat) (exponent : Int) : Option Json :=
  let (n, dropped) := accumulate 0 whole
  let (m, left) := accumulate n fraction
  let places : Nat := fraction.length - left
  (floatOfParts? m (exponent + dropped - places)).map (signed negative)

/-- The number at the start of `cs`, and the rest. -/
def readNumber (cs : List Char) : Option (Json × List Char) :=
  let (negative, cs) := match cs with
    | '-' :: r => (true, r)
    | r => (false, r)
  match spanDigits cs with
  | ([], _) => none
  | (0 :: _ :: _, _) => none
  | (whole, '.' :: rest) => match spanDigits rest with
    | ([], _) => none
    | (fraction, rest) => do
      let (e, rest) ← readExponent rest
      let v ← fractional? negative whole fraction e
      return (v, rest)
  | (whole, c :: rest) =>
    if c = 'e' ∨ c = 'E' then do
      let (e, rest) ← readExponent (c :: rest)
      let v ← fractional? negative whole [] e
      return (v, rest)
    else (wholeNumber? negative whole).map (·, c :: rest)
  | (whole, []) => (wholeNumber? negative whole).map (·, [])

/-! ### Strings -/

/-- The value of a hexadecimal digit. -/
def hexDigit? (c : Char) : Option Nat :=
  if c.isDigit then some (c.toNat - '0'.toNat)
  else if 'a' ≤ c ∧ c ≤ 'f' then some (c.toNat - 'a'.toNat + 10)
  else if 'A' ≤ c ∧ c ≤ 'F' then some (c.toNat - 'A'.toNat + 10)
  else none

/-- Four hexadecimal digits as a number. -/
def hex4? (a b c d : Char) : Option Nat := do
  return (((← hexDigit? a) * 16 + (← hexDigit? b)) * 16 + (← hexDigit? c)) * 16 + (← hexDigit? d)

/-- The character that a one-letter escape stands for. -/
def simpleEscape? : Char → Option Char
  | '"' => some '"'
  | '\\' => some '\\'
  | '/' => some '/'
  | 'b' => some '\x08'
  | 'f' => some '\x0c'
  | 'n' => some '\n'
  | 'r' => some '\r'
  | 't' => some '\t'
  | _ => none

/-- The rest of a string after its opening quote: its characters, and what follows the closing
quote. -/
def readString : List Char → Option (List Char × List Char)
  | [] => none
  | '"' :: rest => some ([], rest)
  | '\\' :: 'u' :: a :: b :: c :: d :: '\\' :: 'u' :: e :: f :: g :: h :: rest => do
    let hi ← hex4? a b c d
    if 0xD800 ≤ hi ∧ hi < 0xDC00 then
      let lo ← hex4? e f g h
      if 0xDC00 ≤ lo ∧ lo < 0xE000 then
        let (cs, rest) ← readString rest
        return (Char.ofNat (0x10000 + (hi - 0xD800) * 0x400 + (lo - 0xDC00)) :: cs, rest)
      else none
    else if 0xDC00 ≤ hi ∧ hi < 0xE000 then none
    else
      let (cs, rest) ← readString ('\\' :: 'u' :: e :: f :: g :: h :: rest)
      return (Char.ofNat hi :: cs, rest)
  | '\\' :: 'u' :: a :: b :: c :: d :: rest => do
    let n ← hex4? a b c d
    if 0xD800 ≤ n ∧ n < 0xE000 then none
    else
      let (cs, rest) ← readString rest
      return (Char.ofNat n :: cs, rest)
  | '\\' :: c :: rest => do
    let e ← simpleEscape? c
    let (cs, rest) ← readString rest
    return (e :: cs, rest)
  | c :: rest =>
    if c.toNat < 0x20 ∨ c = '\\' then none
    else do
      let (cs, rest) ← readString rest
      return (c :: cs, rest)

/-! ### Values -/

/-- The four blanks of JSON. -/
def isBlank (c : Char) : Bool := c = ' ' || c = '\t' || c = '\n' || c = '\r'

/-- Without the blanks at the start. -/
def skipBlanks (cs : List Char) : List Char := cs.dropWhile isBlank

mutual

/-- The value at the start of `cs`, and the rest. Arrays and objects may nest `depth` deep; `fuel`
bounds the number of calls. -/
def readValue (fuel depth : Nat) (cs : List Char) : Option (Json × List Char) :=
  match fuel with
  | 0 => none
  | fuel + 1 => match skipBlanks cs with
    | 'n' :: 'u' :: 'l' :: 'l' :: rest => some (.null, rest)
    | 't' :: 'r' :: 'u' :: 'e' :: rest => some (.bool true, rest)
    | 'f' :: 'a' :: 'l' :: 's' :: 'e' :: rest => some (.bool false, rest)
    | '"' :: rest => (readString rest).map fun (s, rest) => (.string (String.ofList s), rest)
    | '[' :: rest => match depth with
      | 0 => none
      | depth + 1 => match skipBlanks rest with
        | ']' :: rest => some (.array [], rest)
        | rest => (readItems fuel depth rest).map fun (items, rest) => (.array items, rest)
    | '\x7b' :: rest => match depth with
      | 0 => none
      | depth + 1 => match skipBlanks rest with
        | '\x7d' :: rest => some (.fields [], rest)
        | rest => (readFields fuel depth rest).map fun (entries, rest) => (object entries, rest)
    | rest => readNumber rest

/-- The items of an array up to and with its closing bracket. -/
def readItems (fuel depth : Nat) (cs : List Char) : Option (List Json × List Char) :=
  match fuel with
  | 0 => none
  | fuel + 1 => do
    let (v, rest) ← readValue fuel depth cs
    match skipBlanks rest with
    | ',' :: rest =>
      let (vs, rest) ← readItems fuel depth rest
      return (v :: vs, rest)
    | ']' :: rest => return ([v], rest)
    | _ => none

/-- The fields of an object up to and with its closing brace. -/
def readFields (fuel depth : Nat) (cs : List Char) : Option (List (String × Json) × List Char) :=
  match fuel with
  | 0 => none
  | fuel + 1 => match skipBlanks cs with
    | '"' :: rest => do
      let (name, rest) ← readString rest
      match skipBlanks rest with
      | ':' :: rest =>
        let (v, rest) ← readValue fuel depth rest
        match skipBlanks rest with
        | ',' :: rest =>
          let (vs, rest) ← readFields fuel depth rest
          return ((String.ofList name, v) :: vs, rest)
        | '\x7d' :: rest => return ([(String.ofList name, v)], rest)
        | _ => none
      | _ => none
    | _ => none

end

/-- How deep arrays and objects may nest. -/
def maxDepth : Nat := 127

/-- The value that a text denotes, if it is JSON. -/
def parse? (text : String) : Option Json :=
  let cs := text.toList
  match readValue (2 * cs.length + 2) maxDepth cs with
  | some (v, rest) => if (skipBlanks rest).isEmpty then some v else none
  | none => none

end SkitPage.Json
