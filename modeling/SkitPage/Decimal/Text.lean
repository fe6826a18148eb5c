import SkitPage.Decimal.Shortest

/-!
# Number text in messages

How a number that is no whole number is written in a message: with the fewest digits that read back,
always with a decimal point or an exponent, and with an exponent once the number is very large or very
small. Of two texts that are equally near it is the even one.

Key definitions: `Decimal.messageText`, `Decimal.textOfFloat`.
-/

namespace SkitPage.Decimal

/-- Magnitudes from `10^-5` up to `10^16`, exclusive, are written without exponent. -/
def writtenPlainly (magnitude : Int) : Bool := -5 ≤ magnitude ∧ magnitude < 16

/-- An exponent with its sign. -/
def exponentText (e : Int) : String := (if e < 0 then "-" else "+") ++ toString e.natAbs

/-- One digit, a point if more follow, and the exponent. -/
def scientific (d : Decimal) : String :=
  let mantissa := match d.chars with
    | [] => ""
    | [c] => String.ofList [c]
    | c :: rest => String.ofList (c :: '.' :: rest)
  mantissa ++ "e" ++ exponentText d.magnitude

/-- The text of a positive or zero number in a message. -/
def messageText (d : Decimal) : String :=
  if d.digits = 0 then "0.0"
  else if writtenPlainly d.magnitude then
    if d.exponent < 0 then d.positional else d.positional ++ ".0"
  else d.scientific

/-- The text of a finite double in a message. -/
def textOfFloat (x : Float) : String :=
  let sign := if x.toBits.toNat / Nat.pow 2 63 = 1 then "-" else ""
  sign ++ ((Binary.ofFloat x).shortest .even).messageText

end SkitPage.Decimal
