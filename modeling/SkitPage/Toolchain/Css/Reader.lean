import SkitPage.Toolchain.Css.Declaration
import SkitPage.Stylesheet.Selector

/-!
# Reading stylesheets

A plain stylesheet is a list of rules, each with selectors and a block of declarations between braces. A
block that is still open at the end is closed there. Anything else makes the stylesheet unreadable.

Key definitions: `Css.PlainRule`, `Css.selectors?`, `Css.block?`, `Css.rules?`.
-/

namespace SkitPage.Css

/-! ### Selectors -/

/-- Without the blanks at the start. -/
def skipBlanks (ts : List Token) : List Token := ts.dropWhile (· = .blank)

/-- Whether two words are the same but for the case of letters. -/
def sameWord (a b : String) : Bool := a.toLower == b

/-- The combinator that a sign stands for. -/
def combinator? : Char → Option Combinator
  | '>' => some .child
  | '+' => some .next
  | '~' => some .sibling
  | _ => none

/-- The condition on the kind of element at the start of a compound, if there is one. -/
def kindCondition : List Token → List Simple × List Token
  | .word name :: rest => ([.element (spell name)], rest)
  | .sign '*' :: rest => ([.any], rest)
  | rest => ([], rest)

mutual

/-- The conditions on classes, ids and the like at the start of the tokens, and the rest. -/
def conditions (fuel : Nat) (ts : List Token) : Option (List Simple × List Token) :=
  match fuel with
  | 0 => none
  | fuel + 1 => match ts with
    | .sign '.' :: .word name :: rest => more fuel (.hasClass (spell name)) rest
    | .hash name :: rest => more fuel (.hasId (spell name)) rest
    | .sign ':' :: .word name :: rest =>
      if sameWord name "target" then more fuel .target rest else none
    | .sign ':' :: .function name :: rest =>
      if sameWord name "not" then
        match selectorList fuel rest with
        | some (alternatives, .sign ')' :: rest) => more fuel (.not alternatives) rest
        | _ => none
      else none
    | .sign '.' :: _ => none
    | .sign ':' :: _ => none
    | rest => some ([], rest)

/-- One condition and those that follow it. -/
def more (fuel : Nat) (first : Simple) (ts : List Token) : Option (List Simple × List Token) :=
  match fuel with
  | 0 => none
  | fuel + 1 => (conditions fuel ts).map fun (cs, rest) => (first :: cs, rest)

/-- The conditions on one element; there has to be one. -/
def compound (fuel : Nat) (ts : List Token) : Option (List Simple × List Token) :=
  match fuel with
  | 0 => none
  | fuel + 1 =>
    let (kind, rest) := kindCondition ts
    match conditions fuel rest with
    | some (cs, rest) => if (kind ++ cs).isEmpty then none else some (kind ++ cs, rest)
    | none => none

/-- What follows a selector's first conditions: more elements, up to a comma, a closing parenthesis or
the end. -/
def relatives (fuel : Nat) (left : Selector) (ts : List Token) : Option (Selector × List Token) :=
  match fuel with
  | 0 => none
  | fuel + 1 =>
    let after := skipBlanks ts
    match after with
    | [] => some (left, [])
    | .sign ',' :: _ => some (left, after)
    | .sign ')' :: _ => some (left, after)
    | .sign c :: rest => match combinator? c with
      | some k => match compound fuel (skipBlanks rest) with
        | some (cs, rest) => relatives fuel (.related left k cs) rest
        | none => none
      | none => descend fuel left ts after
    | _ => descend fuel left ts after

/-- An element inside the one before; a blank has to stand between them. -/
def descend (fuel : Nat) (left : Selector) (ts after : List Token) : Option (Selector × List Token) :=
  match fuel with
  | 0 => none
  | fuel + 1 =>
    if ts.head? = some .blank then
      match compound fuel after with
      | some (cs, rest) => relatives fuel (.related left .descendant cs) rest
      | none => none
    else none

/-- Selectors with commas between them. -/
def selectorList (fuel : Nat) (ts : List Token) : Option (List Selector × List Token) :=
  match fuel with
  | 0 => none
  | fuel + 1 => do
    let (cs, rest) ← compound fuel (skipBlanks ts)
    let (s, rest) ← relatives fuel (.compound cs) rest
    match rest with
    | .sign ',' :: rest =>
      let (ss, rest) ← selectorList fuel rest
      return (s :: ss, rest)
    | rest => return ([s], rest)

end

/-- The selectors that the tokens before a block spell. -/
def selectors? (ts : List Token) : Option (List Selector) :=
  match selectorList (6 * ts.length + 6) ts with
  | some (ss, []) => some ss
  | _ => none

/-! ### Declarations -/

/-- Tokens without one blank at each end; a token alone stays. -/
def withoutEnds (ts : List Token) : List Token :=
  if ts.length < 2 then ts
  else
    let ts := if ts.head? = some .blank then ts.drop 1 else ts
    if ts.getLast? = some .blank then ts.dropLast else ts

/-- The value that the tokens after a colon spell: a word that the property knows, or other words, of which
there has to be one. -/
def value? (p : Property) (ts : List Token) : Option Value :=
  match ts.filter (· ≠ .blank) with
  | [] => none
  | [.word name] =>
    if name.toLower ∈ p.words then some (.known name.toLower) else some (.kept (withoutEnds ts))
  | _ => if ts.all (·.valueText?.isSome) then some (.kept (withoutEnds ts)) else none

/-- Tokens before the mark of what is important, and whether it is there; there may be nothing after it. -/
def marked? (ts : List Token) : Option (List Token × Bool) :=
  match (ts.dropWhile (· ≠ .sign '!')).filter (· ≠ .blank) with
  | [] => some (ts, false)
  | [_, .word name] =>
    if sameWord name "important" then some (ts.takeWhile (· ≠ .sign '!'), true) else none
  | _ => none

/-- The declarations between two semicolons: one, or none if there are only blanks. -/
def declaration? (ts : List Token) : Option (List Declaration) :=
  match skipBlanks ts with
  | [] => some []
  | .word name :: rest => match skipBlanks rest with
    | .sign ':' :: rest => do
      let property ← Property.ofName? name
      let (rest, important) ← marked? rest
      let value ← value? property rest
      return [⟨property, value, important⟩]
    | _ => none
  | _ => none

/-- The parts of a list between semicolons. -/
def betweenSemicolons : List Token → List (List Token)
  | [] => [[]]
  | t :: ts =>
    if t = .sign ';' then [] :: betweenSemicolons ts
    else match betweenSemicolons ts with
      | [] => [[t]]
      | p :: ps => (t :: p) :: ps

/-- The block that the tokens between braces spell. -/
def block? (ts : List Token) : Option Block :=
  ((betweenSemicolons ts).mapM declaration?).map fun ds => .ofDeclarations ds.flatten

/-! ### Rules -/

/-- Selectors and what is set for the elements that they match. -/
structure PlainRule where
  /-- The selectors. -/
  selectors : List Selector
  /-- What is set. -/
  block : Block

/-- Whether a rule begins like the setting of a property of one's own: with a word that has two dashes at its
start, and a colon. -/
def looksLikeSetting : List Token → Bool
  | .word name :: rest => name.startsWith "--" && (skipBlanks rest).head? = some (.sign ':')
  | _ => false

/-- The rules that the tokens spell; each uses up an opening brace. -/
def rulesFrom : Nat → List Token → Option (List PlainRule)
  | 0, _ => none
  | fuel + 1, ts =>
    let ts := ts.dropWhile fun t => t = .blank || t = .fence
    if ts.isEmpty then some []
    else if looksLikeSetting ts then none
    else
      match ts.dropWhile (· ≠ .sign '\x7b') with
      | [] => none
      | _ :: body => do
        let selectors ← selectors? (ts.takeWhile (· ≠ .sign '\x7b'))
        let block ← block? (body.takeWhile (· ≠ .sign '\x7d'))
        let rest ← rulesFrom fuel ((body.dropWhile (· ≠ .sign '\x7d')).drop 1)
        return ⟨selectors, block⟩ :: rest

/-- The rules of a plain stylesheet. -/
def rules? (text : String) : Option (List PlainRule) :=
  let ts := tokenize text
  rulesFrom (ts.length + 1) ts

end SkitPage.Css
