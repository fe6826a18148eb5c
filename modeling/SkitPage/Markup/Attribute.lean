import SkitPage.Markup.Entity
import SkitPage.Markup.Token
import SkitPage.OrderedMap

/-!
# Attributes of a tag

The content of a tag is a name and then attributes `key = "value"` or `key = 'value'`. A key runs up to
the next `=` or blank, its first character aside, which is never looked at. An attribute may follow the
one before it directly. A key may not stand twice.

Key definitions: `Markup.nameOf`, `Markup.nextAttribute`, `Markup.attributes`.
-/

namespace SkitPage.Markup

/-- Why a tag's attributes cannot be read. -/
inductive TagFault
  | attribute (fault : AttributeFault)
  | value (fault : MarkupFault)
deriving DecidableEq, Repr

/-- The name at the start of a tag's content: everything up to the first blank. -/
def nameOf (content : List Char) : List Char := content.takeWhile (!isBlank ·)

/-- An attribute as it is written, and where its key begins. -/
structure RawAttribute where
  /-- The key. -/
  key : List Char
  /-- Where the key begins. -/
  position : Nat
  /-- The value between its quotes, entities and all. -/
  value : List Char
deriving DecidableEq, Repr

/-- Whether a key ends before a character. -/
def endsKey (c : Char) : Bool := c = '=' || isBlank c

/-- The next attribute, and the content after it; none at the end. `size` is the number of bytes of the
whole content and `seen` holds the keys before. -/
def nextAttribute (size : Nat) (seen : List (List Char × Nat)) (cs : List Char) :
    Except AttributeFault (Option (RawAttribute × List Char)) :=
  let position (rest : List Char) : Nat := size - Text.byteLength rest
  match cs.dropWhile isBlank with
  | [] => .ok none
  | first :: rest =>
    let keyAt := position (first :: rest)
    let key := first :: rest.takeWhile (!endsKey ·)
    match (rest.dropWhile (!endsKey ·)).dropWhile isBlank with
    | '=' :: afterEquals =>
      match seen.lookup key with
      | some previous => .error (.duplicate keyAt previous)
      | none => match afterEquals.dropWhile isBlank with
        | [] => .error (.noValue size)
        | q :: afterQuote =>
          if q = '"' ∨ q = '\'' then
            match afterQuote.dropWhile (· ≠ q) with
            | [] => .error (.openQuote size q)
            | _ :: left => .ok (some (⟨key, keyAt, afterQuote.takeWhile (· ≠ q)⟩, left))
          else .error (.unquoted (position (q :: afterQuote)))
    | other => .error (.noEquals (position other))

theorem nextAttribute_shorter {size : Nat} {seen : List (List Char × Nat)} {cs left : List Char}
    {a : RawAttribute} (h : nextAttribute size seen cs = .ok (some (a, left))) :
    left.length < cs.length := by
  have bound : ∀ (p : Char → Bool) (xs : List Char), (xs.dropWhile p).length ≤ xs.length :=
    fun p _ => (List.dropWhile_suffix p).length_le
  unfold nextAttribute at h
  dsimp only at h
  split at h
  · simp at h
  · rename_i first rest h1
    have b1 := bound isBlank cs
    split at h
    · rename_i afterEquals h2
      have b2 := bound isBlank (rest.dropWhile (!endsKey ·))
      have b3 := bound (!endsKey ·) rest
      split at h
      · simp at h
      · split at h
        · simp at h
        · rename_i q afterQuote h3
          have b4 := bound isBlank afterEquals
          split at h
          · split at h
            · simp at h
            · rename_i c r h4
              have b5 := bound (· ≠ q) afterQuote
              simp at h
              rw [h1] at b1
              rw [h2] at b2
              rw [h3] at b4
              rw [h4] at b5
              simp only [List.length_cons] at b1 b2 b4 b5
              rw [← h.2]
              omega
          · simp at h
    · simp at h

/-- The attributes in `cs`, added to those before. The value of an attribute is read before the next
attribute is looked at. -/
def attributesFrom (size : Nat) (seen : List (List Char × Nat)) (found : OrderedMap String String)
    (cs : List Char) : Except TagFault (OrderedMap String String) :=
  match h : nextAttribute size seen cs with
  | .error fault => .error (.attribute fault)
  | .ok none => .ok found
  | .ok (some (a, left)) =>
    have : left.length < cs.length := nextAttribute_shorter h
    match unescape a.value with
    | .error fault => .error (.value fault)
    | .ok value =>
      attributesFrom size ((a.key, a.position) :: seen)
        (found.insert (String.ofList a.key) (String.ofList value)) left
termination_by cs.length

/-- The attributes of a tag with the given content. -/
def attributes (content : List Char) : Except TagFault (OrderedMap String String) :=
  attributesFrom (Text.byteLength content) [] .empty (content.drop (nameOf content).length)

end SkitPage.Markup
