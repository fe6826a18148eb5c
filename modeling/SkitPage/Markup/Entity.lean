import SkitPage.Markup.Fault
import SkitPage.Text.Bytes
import SkitPage.Text.Basic

/-!
# Entities in attribute values

The value of an attribute may hold entities: five by name, and any character by its number in decimal
or, after `x`, in hexadecimal digits. Line breaks are kept as they are.

Key definitions: `Markup.unescape`, `Markup.character`.
-/

namespace SkitPage.Markup

/-- The character that an entity stands for. -/
def entityChar? : List Char → Option Char
  | ['l', 't'] => some '<'
  | ['g', 't'] => some '>'
  | ['a', 'm', 'p'] => some '&'
  | ['a', 'p', 'o', 's'] => some '\''
  | ['q', 'u', 'o', 't'] => some '"'
  | _ => none

/-- The number that the digits continue `n` to; it has to fit 32 bits. -/
def number (base : Nat) : Nat → List Char → Except ReferenceFault Nat
  | n, [] => .ok n
  | n, c :: cs => match Text.digit? base c with
    | none => .error .digit
    | some d => if base * n + d < UInt32.size then number base (base * n + d) cs else .error .tooLarge

/-- A number without a sign. -/
def unsigned (base : Nat) (cs : List Char) : Except ReferenceFault Nat :=
  match cs with
  | [] => .error .empty
  | '+' :: _ => .error .sign
  | '-' :: _ => .error .sign
  | cs => number base 0 cs

/-- The character with a number, given by what stands after `#`. -/
def character (cs : List Char) : Except ReferenceFault Char := do
  let code ← match cs with
    | 'x' :: hex => unsigned 16 hex
    | decimal => unsigned 10 decimal
  if code = 0 then .error .zero
  else if code.isValidChar then return Char.ofNat code
  else .error (.noCharacter code)

/-- What stands up to the next semicolon, and what comes after that. Another ampersand, or the end of
the text, comes too early. -/
def entityBody? : List Char → Option (List Char × List Char)
  | [] => none
  | ';' :: rest => some ([], rest)
  | '&' :: _ => none
  | c :: rest => (entityBody? rest).map fun (body, rest) => (c :: body, rest)

theorem entityBody?_shorter {cs body rest : List Char} (h : entityBody? cs = some (body, rest)) :
    rest.length < cs.length := by
  fun_induction entityBody? cs generalizing body rest with
  | case1 => simp at h
  | case2 r => simp_all
  | case3 => simp at h
  | case4 c r _ _ ih =>
    obtain ⟨⟨b, r'⟩, h1, h2⟩ := Option.map_eq_some_iff.1 h
    have := ih h1
    simp_all
    omega

/-- The value with its entities replaced; `size` is the number of its bytes. -/
def unescapeFrom (size : Nat) (cs : List Char) : Except MarkupFault (List Char) :=
  match cs with
  | [] => .ok []
  | '&' :: rest =>
    let start := size - Text.byteLength cs
    match h : entityBody? rest with
    | none => .error (.openEntity start size)
    | some (body, after) => do
      let c ← match body with
        | '#' :: digits => (character digits).mapError .reference
        | name => match entityChar? name with
          | some c => .ok c
          | none =>
            let stop := start + 1 + Text.byteLength name
            .error (.unknownEntity (start + 1) stop (String.ofList name))
      have : after.length < rest.length := entityBody?_shorter h
      return c :: (← unescapeFrom size after)
  | c :: rest => do return c :: (← unescapeFrom size rest)
termination_by cs.length

/-- The value with its entities replaced by what they stand for. -/
def unescape (value : List Char) : Except MarkupFault (List Char) :=
  unescapeFrom (Text.byteLength value) value

end SkitPage.Markup
