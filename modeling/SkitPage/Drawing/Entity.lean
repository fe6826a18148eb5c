import SkitPage.Drawing.Name
import SkitPage.Markup.Entity

/-!
# Entities of documents

Besides the five entities that are always there and the characters that are given by number, a document may
declare entities of its own. What they stand for may hold entities again, and so that this comes to an end
there is a limit on how deep they nest and on how many of them one entity may bring in.

Key definitions: `Drawing.Entity`, `Drawing.reference?`, `Drawing.Nesting`, `Drawing.valueOf`.
-/

namespace SkitPage.Drawing

/-- An entity that a document declares. -/
structure Entity where
  /-- Its name. -/
  name : String
  /-- What it stands for. -/
  value : Span
deriving DecidableEq, Repr

/-- The character or the name after an ampersand, and what comes after the semicolon. -/
def reference? : List Char → Option ((Char ⊕ String) × List Char)
  | '#' :: cs =>
    let (base, cs) := match cs with
      | 'x' :: hex => (16, hex)
      | decimal => (10, decimal)
    let isDigit (c : Char) : Bool := (Text.digit? base c).isSome
    let digits := cs.takeWhile isDigit
    match cs.dropWhile isDigit, Markup.unsigned base digits with
    | ';' :: rest, .ok n =>
      let c := if n.isValidChar then Char.ofNat n else '\ufffd'
      if isAllowed c then some (.inl c, rest) else none
    | _, _ => none
  | cs =>
    let name := cs.takeWhile insideName
    match cs.dropWhile insideName with
    | ';' :: rest =>
      if !beginsName name then none
      else match Markup.entityChar? name with
        | some c => some (.inl c, rest)
        | none => some (.inr (String.ofList name), rest)
    | _ => none

/-! ### Nesting -/

/-- Where in entities of the document one is. -/
structure Nesting where
  /-- How many entities one is inside of. -/
  depth : Nat := 0
  /-- How many entities the outermost one has brought in so far. -/
  used : Nat := 0
deriving DecidableEq, Repr

namespace Nesting

/-- How deep entities may nest. -/
def maxDepth : Nat := 10

/-- How many entities one entity may bring in. -/
def maxUsed : Nat := 255

/-- Inside one more entity; `left` is the place to tell if that is too much. -/
def enter (n : Nesting) (left : Nat) : Except DocumentFault Nesting :=
  if n.depth = 0 then .ok { n with depth := 1 }
  else if n.used = maxUsed ∨ n.depth = maxDepth then .error (.entityLoop left)
  else .ok ⟨n.depth + 1, n.used + 1⟩

/-- After the innermost entity. -/
def leave (n : Nesting) : Nesting := if n.depth ≤ 1 then {} else { n with depth := n.depth - 1 }

end Nesting

/-- More than the number of characters that come of a text of a given length, all entities followed. -/
def expansionFuel (size : Nat) : Nat := (Nesting.maxUsed + 2) * (size + 1) * (size + 1)

/-! ### Values of attributes -/

/-- A character of a value: line breaks and tabs count as blanks. -/
def valueChar (c : Char) : Char := if isBlank c then ' ' else c

/-- The value that a span of a tag stands for. A carriage return before a line break is left out. A
character that is given by number or name stays as it is, unless this happens inside an entity of the
document. Each use of fuel takes a character or an entity away. -/
def valueFrom (entities : List Entity) :
    Nat → Nesting → Span → Except DocumentFault (List Char × Nesting)
  | 0, nesting, _ => .ok ([], nesting)
  | fuel + 1, nesting, s =>
    match s.chars with
    | [] => .ok ([], nesting)
    | '&' :: cs =>
      match reference? cs with
      | none => .error (.malformedEntity s.left)
      | some (.inl c, rest) =>
        if 0 < nesting.depth ∧ c = '<' then .error (.bracketInValue s.left)
        else do
          let c := if nesting.depth = 0 then c else valueChar c
          let (more, nesting) ← valueFrom entities fuel nesting ⟨rest, s.after⟩
          return (c :: more, nesting)
      | some (.inr name, rest) =>
        match entities.find? (·.name = name) with
        | none => .error (.unknownEntity name s.left)
        | some entity => do
          let inner ← nesting.enter (rest.length + s.after)
          let (value, inner) ← valueFrom entities fuel inner entity.value
          let (more, nesting) ← valueFrom entities fuel inner.leave ⟨rest, s.after⟩
          return (value ++ more, nesting)
    | c :: cs => do
      let (more, nesting) ← valueFrom entities fuel nesting ⟨cs, s.after⟩
      return (if c = '\r' ∧ cs.head? = some '\n' then more else valueChar c :: more, nesting)

/-- The value that a span of a tag stands for, in a document of a given length. -/
def valueOf (entities : List Entity) (size : Nat) (nesting : Nesting) (s : Span) :
    Except DocumentFault (String × Nesting) :=
  (valueFrom entities (expansionFuel size) nesting s).map fun (cs, nesting) =>
    (String.ofList cs, nesting)

end SkitPage.Drawing
