/-!
# Name tables

Names of page elements and classes are numbers written with the 26 small letters, `a` for zero, and
without a leading `a`: the numbers `0, 1, …, 25, 26, 27, …` are named `a, b, …, z, ba, bb, …`.

A name table gives names to keys as they are looked up: the first key to be looked up is `a`, the
next new one `b`, and a key keeps the name it got. A key that is never looked up costs no name.

Key definitions: `Name.letters`, `Name.ofNumber`, `NameTable.name`, `NameTable.ofKeys`, `NameTable.nameOf`.
-/

namespace SkitPage

namespace Name

/-- The letter that stands for a digit below 26. -/
def letter (digit : Nat) : Char := Char.ofNat ('a'.toNat + digit)

/-- The letters of `n`, most significant first. -/
def letters (n : Nat) : List Char :=
  if n < 26 then [letter n] else letters (n / 26) ++ [letter (n % 26)]

/-- The name of the number `n`. -/
def ofNumber (n : Nat) : String := String.ofList (letters n)

end Name

/-- The keys that have a name, in the order in which they got it. -/
structure NameTable (κ : Type) where
  /-- The named keys; the key at position `i` has the name of the number `i`. -/
  keys : List κ := []
deriving DecidableEq, Repr

namespace NameTable

variable {κ : Type}

/-- The table in which nothing has a name. -/
def empty : NameTable κ := ⟨[]⟩

/-- How many names were given. -/
def size (t : NameTable κ) : Nat := t.keys.length

/-- Whether no name was given. -/
def isEmpty (t : NameTable κ) : Bool := t.keys.isEmpty

variable [DecidableEq κ]

/-- The table after a look-up of `k`. -/
def register (t : NameTable κ) (k : κ) : NameTable κ :=
  if k ∈ t.keys then t else ⟨t.keys ++ [k]⟩

/-- The name that a look-up of `k` answers. The position of an unknown key is the number of known
ones, so that one expression covers both cases. -/
def nameOf (t : NameTable κ) (k : κ) : String := Name.ofNumber (t.keys.idxOf k)

/-- Look `k` up: its name, and the table after that. -/
def name (t : NameTable κ) (k : κ) : String × NameTable κ := (t.nameOf k, t.register k)

/-- The table after the look-ups of `ks`, from left to right. -/
def ofKeys (ks : List κ) : NameTable κ := ks.foldl register empty

end NameTable

end SkitPage
