import SkitPage.Text.Basic

/-!
# Identifiers of stylesheets

The names that stand in a stylesheet. A character that a name may not hold is written with a backslash before
it, or as a backslash and the number of the character in base sixteen. What stands for no character, and the
character with the number zero, is read as the replacement character.

Key definitions: `Css.beginsWord`, `Css.nameAt`, `Css.spell`.
-/

namespace SkitPage.Css

/-- What is read where no character can be. -/
def replacement : Char := '�'

/-- Whether a character ends a line. -/
def isLineEnd (c : Char) : Bool := c = '\n' || c = '\r' || c = '\x0c'

/-- Whether a name may begin with a character. -/
def startsWord (c : Char) : Bool := c.isAlpha || c = '_' || c = '\x00' || 0x80 ≤ c.toNat

/-- Whether a character may stand inside a name. -/
def insideWord (c : Char) : Bool := startsWord c || c.isDigit || c = '-'

/-- Whether a name begins here. A dash begins one if a letter, another dash or a backslash follows, a
backslash if the line does not end after it. -/
def beginsWord : List Char → Bool
  | '-' :: c :: _ => startsWord c || c = '-' || c = '\\'
  | '\\' :: rest => !rest.head?.any isLineEnd
  | c :: _ => startsWord c
  | [] => false

/-! ### Reading -/

/-- The most digits that the number of a character has. -/
def maxDigits : Nat := 6

/-- The values of at most `n` digits at the start of a text, and what comes after them. -/
def digitsAt : Nat → List Char → List Nat × List Char
  | n + 1, c :: rest => match Text.digit? 16 c with
    | some d => let (ds, after) := digitsAt n rest; (d :: ds, after)
    | none => ([], c :: rest)
  | _, rest => ([], rest)

/-- The character with a number. -/
def characterOf (n : Nat) : Char :=
  if n ≠ 0 ∧ n.isValidChar then Char.ofNat n else replacement

/-- Without the one blank that may end the number of a character. -/
def afterNumber : List Char → List Char
  | '\r' :: '\n' :: rest => rest
  | c :: rest => if c = ' ' ∨ c = '\t' ∨ isLineEnd c then rest else c :: rest
  | [] => []

/-- The character that is written after a backslash, and what comes after it. -/
def escapeAt (cs : List Char) : Char × List Char :=
  match digitsAt maxDigits cs, cs with
  | (d :: ds, after), _ =>
    (characterOf ((d :: ds).foldl (fun n digit => 16 * n + digit) 0), afterNumber after)
  | ([], _), c :: rest => (if c = '\x00' then replacement else c, rest)
  | ([], _), [] => (replacement, [])

/-- The name at the start of a text, and what comes after it; each character that is read uses up fuel. -/
def nameFrom : Nat → List Char → List Char × List Char
  | 0, cs => ([], cs)
  | _ + 1, [] => ([], [])
  | fuel + 1, '\\' :: rest =>
    if rest.head?.any isLineEnd then ([], '\\' :: rest)
    else
      let (c, after) := escapeAt rest
      let (name, after) := nameFrom fuel after
      (c :: name, after)
  | fuel + 1, c :: rest =>
    if insideWord c then
      let (name, after) := nameFrom fuel rest
      ((if c = '\x00' then replacement else c) :: name, after)
    else ([], c :: rest)

/-- The name at the start of a text, and what comes after it. -/
def nameAt (cs : List Char) : String × List Char :=
  let (name, after) := nameFrom cs.length cs
  (String.ofList name, after)

/-! ### Writing -/

/-- A character as its number, with a blank to end it. -/
def numbered (c : Char) : List Char := '\\' :: Nat.toDigits 16 c.toNat ++ [' ']

/-- A character inside a name, as it is written. -/
def spellInside (c : Char) : List Char :=
  if insideWord c then [c]
  else if c.toNat < 0x20 ∨ c.toNat = 0x7f then numbered c
  else ['\\', c]

/-- The characters of a name, but for a dash at its start; a digit at the start is written as its number. -/
def spellFirst : List Char → List Char
  | c :: cs => (if c.isDigit then numbered c else spellInside c) ++ cs.flatMap spellInside
  | [] => []

/-- A name as it is written in a stylesheet. -/
def spell (name : String) : String :=
  String.ofList <| match name.toList with
    | ['-'] => ['\\', '-']
    | '-' :: '-' :: cs => '-' :: '-' :: cs.flatMap spellInside
    | '-' :: cs => '-' :: spellFirst cs
    | cs => spellFirst cs

end SkitPage.Css
