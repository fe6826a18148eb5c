/-!
# Shortest decimals of binary numbers

A positive binary floating-point number is `m · 2^q`. Of all decimals that lie closer to it than to
any other such number, this module finds one with the fewest digits, and of those the nearest; where
two are equally near, a rule says which of them it is. The search is over exact fractions: for each
number of digits it looks at the two neighbours of the value on the decimal grid, and the first grid
with a neighbour in the rounding interval wins.

Key definitions: `Binary`, `Binary.ofFloat`, `Binary.ofFloat32`, `Decimal`, `Tie`, `Binary.shortest`.
-/

namespace SkitPage

/-- The decimal `digits · 10^exponent`. -/
structure Decimal where
  /-- The digits, read as one number. -/
  digits : Nat
  /-- The power of ten that the last digit stands for. -/
  exponent : Int
deriving DecidableEq, Repr

/-- The finite binary number `mantissa · 2^exponent`, of a format in which the gap below it may be
half the gap above it. -/
structure Binary where
  /-- The significant bits, read as one number. -/
  mantissa : Nat
  /-- The power of two that the last bit stands for. -/
  exponent : Int
  /-- Whether the next smaller number is only half a step away. -/
  narrowBelow : Bool
deriving DecidableEq, Repr

/-- Which of two decimals it is that are equally near. -/
inductive Tie
  /-- The one whose last digit is even. -/
  | even
  /-- The greater one. -/
  | up
deriving DecidableEq, Repr

namespace Binary

/-- A format's `fraction` bits and exponent field, decoded. -/
def ofFields (fractionBits : Nat) (bias : Int) (expField fraction : Nat) : Binary :=
  if expField = 0 then ⟨fraction, 1 - bias - fractionBits, false⟩
  else ⟨Nat.pow 2 fractionBits + fraction, expField - bias - fractionBits, fraction = 0 ∧ 1 < expField⟩

/-- The magnitude of a finite double. -/
def ofFloat (x : Float) : Binary :=
  let bits := x.toBits.toNat
  ofFields 52 1023 (bits / Nat.pow 2 52 % Nat.pow 2 11) (bits % Nat.pow 2 52)

/-- The magnitude of a finite single. -/
def ofFloat32 (x : Float32) : Binary :=
  let bits := x.toBits.toNat
  ofFields 23 127 (bits / Nat.pow 2 23 % Nat.pow 2 8) (bits % Nat.pow 2 23)

/-- `base ^ e` as a fraction, for a power of either sign. -/
def power (base : Nat) : Int → Nat × Nat
  | .ofNat n => (base.pow n, 1)
  | .negSucc n => (1, base.pow (n + 1))

/-- Whether `a / b ≤ c / d`. -/
def fracLe (a b c d : Nat) : Bool := a * d ≤ c * b

/-- Whether `a / b < c / d`. -/
def fracLt (a b c d : Nat) : Bool := a * d < c * b

/-- The decimals with unit `10^k` beside the value that round to it, the nearer one first. -/
def candidate? (tie : Tie) (x : Binary) (k : Int) : Option Decimal :=
  -- everything in quarters of the last bit, so that both ends of the interval are whole
  let (pn, pd) := power 2 (x.exponent - 2)
  let (tn, td) := power 10 k
  let value := 4 * x.mantissa
  let low := value - (if x.narrowBelow then 1 else 2)
  let high := value + 2
  let closed := x.mantissa % 2 = 0
  let below := value * pn * td / (pd * tn)
  let inside (d : Nat) : Bool :=
    let (n, m) := (d * tn * pd, td * pn)
    if closed then fracLe low 1 n m && fracLe n m high 1
    else fracLt low 1 n m && fracLt n m high 1
  -- twice the distance decides
  let twice := 2 * value * pn * td
  let middle := (2 * below + 1) * (pd * tn)
  let lowerFirst := twice < middle || (twice = middle && tie = .even && below % 2 = 0)
  match decide (0 < below) && inside below, inside (below + 1) with
  | true, true => some ⟨if lowerFirst then below else below + 1, k⟩
  | true, false => some ⟨below, k⟩
  | false, true => some ⟨below + 1, k⟩
  | false, false => none

/-- Try the grids with unit `10^k`, `10^(k-1)`, … for at most `fuel` steps. -/
def search (tie : Tie) (x : Binary) : Nat → Int → Decimal
  | 0, k => (x.candidate? tie k).getD ⟨0, 0⟩
  | fuel + 1, k => match x.candidate? tie k with
    | some d => d
    | none => x.search tie fuel (k - 1)

/-- Without zeros at the end of the digits. -/
def trim (d : Decimal) : Nat → Decimal
  | 0 => d
  | fuel + 1 =>
    if d.digits ≠ 0 ∧ d.digits % 10 = 0 then trim ⟨d.digits / 10, d.exponent + 1⟩ fuel else d

/-- The shortest decimal that rounds to `x`; zero has the digit zero. -/
def shortest (tie : Tie) (x : Binary) : Decimal :=
  if x.mantissa = 0 then ⟨0, 0⟩
  else
    -- a grid coarser than the value to start with: 10^(bits · 0.302 + 1)
    let top : Int := (x.exponent + (Nat.log2 x.mantissa : Int) + 1) * 302 / 1000 + 1
    let d := x.search tie 20 top
    trim d (Nat.log2 d.digits + 1)

end Binary

namespace Decimal

/-- The digits as characters. -/
def chars (d : Decimal) : List Char := Nat.toDigits 10 d.digits

/-- The power of ten of the first digit. -/
def magnitude (d : Decimal) : Int := d.exponent + (d.chars.length : Int) - 1

/-- Written without exponent: zeros are filled in up to the decimal point or after it. The fraction
is left out when it is empty. -/
def positional (d : Decimal) : String :=
  let ds := d.chars
  match d.exponent with
  | .ofNat n => String.ofList (ds ++ List.replicate n '0')
  | .negSucc n =>
    let places := n + 1
    let padded := List.replicate (places + 1 - ds.length) '0' ++ ds
    String.ofList (padded.take (padded.length - places) ++ '.' :: padded.drop (padded.length - places))

end Decimal

end SkitPage
