/-!
# Byte positions in text

Positions in a text count the bytes of its UTF-8 form. A cut at two positions exists only if neither
falls inside a character.

Key definitions: `Text.byteLength`, `Text.cut?`, `Text.leadByte`.
-/

namespace SkitPage.Text

/-- The number of bytes of a text. -/
def byteLength : List Char → Nat
  | [] => 0
  | c :: cs => c.utf8Size + byteLength cs

/-- The text without its first `n` bytes. -/
def dropBytes? : Nat → List Char → Option (List Char)
  | 0, cs => some cs
  | _ + 1, [] => none
  | n + 1, c :: cs => if c.utf8Size ≤ n + 1 then dropBytes? (n + 1 - c.utf8Size) cs else none

/-- The first `n` bytes of the text. -/
def takeBytes? : Nat → List Char → Option (List Char)
  | 0, _ => some []
  | _ + 1, [] => none
  | n + 1, c :: cs =>
    if c.utf8Size ≤ n + 1 then (takeBytes? (n + 1 - c.utf8Size) cs).map (c :: ·) else none

/-- What stands from byte `start` up to byte `stop`. -/
def cut? (cs : List Char) (start stop : Nat) : Option (List Char) :=
  if start ≤ stop then (dropBytes? start cs).bind (takeBytes? (stop - start)) else none

/-- The first byte of a character, as the character with that number. -/
def leadByte (c : Char) : Char := Char.ofNat ((String.utf8EncodeChar c).headD 0).toNat

end SkitPage.Text
