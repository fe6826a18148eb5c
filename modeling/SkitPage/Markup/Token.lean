import SkitPage.Markup.Fault

/-!
# Tokens of markup

Markup is read token by token: text up to the next `<`, start tags, end tags, and what is passed over
(comments, character data, instructions, declarations). A tag ends at the first `>` outside quotes; a
quote may begin anywhere in it. Names are not checked.

Key definitions: `Markup.Token`, `Markup.next`. Key theorem: `Markup.next_shorter`, every token uses up
some of the input.
-/

namespace SkitPage.Markup

/-- A token; the content of a tag is what stands between its brackets. -/
inductive Token
  | text
  | start (content : List Char)
  | empty (content : List Char)
  | close (name : List Char)
  | passed
deriving DecidableEq, Repr

/-- The four blanks of markup. -/
def isBlank (c : Char) : Bool := c = ' ' || c = '\t' || c = '\r' || c = '\n'

/-! ### Scanning to the end of a token -/

/-- The content of a tag up to its `>`, and what follows. `quote` is the quote that is open. -/
def scanTag (quote : Option Char) : List Char → Option (List Char × List Char)
  | [] => none
  | c :: cs =>
    match quote with
    | some q =>
      (scanTag (if c = q then none else some q) cs).map fun (content, rest) => (c :: content, rest)
    | none =>
      if c = '>' then some ([], cs)
      else
        (scanTag (if c = '"' ∨ c = '\'' then some c else none) cs).map
          fun (content, rest) => (c :: content, rest)

theorem scanTag_shorter {quote : Option Char} {cs content rest : List Char}
    (h : scanTag quote cs = some (content, rest)) : rest.length < cs.length := by
  induction cs generalizing quote content rest with
  | nil => simp [scanTag] at h
  | cons c cs ih =>
    unfold scanTag at h
    split at h
    · obtain ⟨⟨b, r⟩, h1, h2⟩ := Option.map_eq_some_iff.1 h
      have := ih h1
      simp_all
      omega
    · split at h
      · simp_all
      · obtain ⟨⟨b, r⟩, h1, h2⟩ := Option.map_eq_some_iff.1 h
        have := ih h1
        simp_all
        omega

/-- The text up to the first `>` at which `ends` holds of the characters before it, latest first, and
what follows. -/
def scanTo (ends : List Char → Bool) (before : List Char) : List Char → Option (List Char × List Char)
  | [] => none
  | c :: cs =>
    if c = '>' ∧ ends before then some (before.reverse, cs) else scanTo ends (c :: before) cs

theorem scanTo_shorter {ends : List Char → Bool} {before cs content rest : List Char}
    (h : scanTo ends before cs = some (content, rest)) : rest.length < cs.length := by
  induction cs generalizing before with
  | nil => simp [scanTo] at h
  | cons c cs ih =>
    rw [scanTo] at h
    split at h
    · simp_all
    · have := ih h
      simp
      omega

/-- The text of a doctype up to the `>` that balances, `depth` pairs of brackets being open, and what
follows. -/
def scanBalanced (depth : Nat) : List Char → Option (List Char × List Char)
  | [] => none
  | '<' :: cs => (scanBalanced (depth + 1) cs).map fun (content, rest) => ('<' :: content, rest)
  | '>' :: cs => match depth with
    | 0 => some ([], cs)
    | depth + 1 => (scanBalanced depth cs).map fun (content, rest) => ('>' :: content, rest)
  | c :: cs => (scanBalanced depth cs).map fun (content, rest) => (c :: content, rest)

theorem scanBalanced_shorter {depth : Nat} {cs content rest : List Char}
    (h : scanBalanced depth cs = some (content, rest)) : rest.length < cs.length := by
  fun_induction scanBalanced depth cs generalizing content rest with
  | case1 => simp at h
  | case3 => simp_all
  | case2 _ _ ih | case4 _ _ ih | case5 _ _ _ _ _ ih =>
    obtain ⟨⟨b, r⟩, h1, h2⟩ := Option.map_eq_some_iff.1 h
    have := ih h1
    simp_all
    omega

/-! ### Tokens -/

/-- An instruction ends at the first `>` after a `?`. -/
def endsInstruction (before : List Char) : Bool := ['?'].isPrefixOf before

/-- A comment ends at the first `>` after `--`, which may not be the two dashes it begins with. -/
def endsComment (before : List Char) : Bool := ['-', '-'].isPrefixOf before && 4 < before.length

/-- Character data ends at the first `>` after `]]`. -/
def endsCharacterData (before : List Char) : Bool := [']', ']'].isPrefixOf before

/-- Whether `cs` starts with a word, in any mixture of cases. -/
def startsWithWord (word cs : List Char) : Bool := (cs.take word.length).map Char.toUpper == word

/-- A token, and the input after it. -/
abbrev Step := Token × List Char

/-- A declaration, from its `!` on. -/
def declaration (cs : List Char) : Except MarkupFault Step :=
  match cs with
  | _ :: '-' :: _ => match scanTo endsComment [] cs with
    | some (content, rest) =>
      if ['!', '-', '-'].isPrefixOf content then .ok (.passed, rest) else .error .openComment
    | none => .error .openComment
  | _ :: '[' :: _ => match scanTo endsCharacterData [] cs with
    | some (content, rest) =>
      if "![CDATA[".toList.isPrefixOf content then .ok (.passed, rest) else .error .openCharacterData
    | none => .error .openCharacterData
  | _ :: c :: _ =>
    if c = 'D' ∨ c = 'd' then
      match scanBalanced 0 cs with
      | some (content, rest) =>
        if startsWithWord "!DOCTYPE".toList content then
          if (content.drop 8).all isBlank then .error .namelessDoctype else .ok (.passed, rest)
        else .error .openDoctype
      | none => .error .openDoctype
    else .error .unknownDeclaration
  | _ => .error .unknownDeclaration

/-- An instruction, from its `?` on. -/
def instruction (cs : List Char) : Except MarkupFault Step :=
  match scanTo endsInstruction [] cs with
  | some (content, rest) => if 1 < content.length then .ok (.passed, rest) else .error .openInstruction
  | none => .error .openInstruction

/-- Without the blanks at the end, unless there is nothing else. -/
def trimEnd (cs : List Char) : List Char :=
  match cs.reverse.dropWhile isBlank with
  | [] => cs
  | kept => kept.reverse

/-- A tag, from the character after its `<` on. -/
def tag (cs : List Char) : Except MarkupFault Step :=
  match scanTag none cs with
  | none => .error .openTag
  | some (content, rest) => match content with
    | '/' :: name => .ok (.close (trimEnd name), rest)
    | content => match content.reverse with
      | '/' :: front => .ok (.empty front.reverse, rest)
      | _ => .ok (.start content, rest)

/-- The next token, or none at the end of the input. -/
def next (cs : List Char) : Except MarkupFault (Option Step) :=
  match cs with
  | [] => .ok none
  | '<' :: rest => match rest with
    | '!' :: _ => (declaration rest).map some
    | '?' :: _ => (instruction rest).map some
    | _ => (tag rest).map some
  | _ :: rest => .ok (some (.text, rest.dropWhile (· ≠ '<')))

theorem declaration_shorter {cs rest : List Char} {t : Token} (h : declaration cs = .ok (t, rest)) :
    rest.length < cs.length := by
  unfold declaration at h
  split at h
  · split at h
    · split at h
      · simp at h
        rename_i hs _
        exact h.2 ▸ scanTo_shorter hs
      · simp at h
    · simp at h
  · split at h
    · split at h
      · simp at h
        rename_i hs _
        exact h.2 ▸ scanTo_shorter hs
      · simp at h
    · simp at h
  · split at h
    · split at h
      · split at h
        · split at h
          · simp at h
          · simp at h
            rename_i hs _ _
            exact h.2 ▸ scanBalanced_shorter hs
        · simp at h
      · simp at h
    · simp at h
  · simp at h

theorem instruction_shorter {cs rest : List Char} {t : Token} (h : instruction cs = .ok (t, rest)) :
    rest.length < cs.length := by
  unfold instruction at h
  split at h
  · split at h
    · simp at h
      rename_i hs _
      exact h.2 ▸ scanTo_shorter hs
    · simp at h
  · simp at h

theorem tag_shorter {cs rest : List Char} {t : Token} (h : tag cs = .ok (t, rest)) :
    rest.length < cs.length := by
  unfold tag at h
  split at h
  · simp at h
  · rename_i hs
    have := scanTag_shorter hs
    split at h
    · simp_all
    · split at h <;> simp_all

/-- Every token uses up some of the input. -/
theorem next_shorter {cs rest : List Char} {t : Token} (h : next cs = .ok (some (t, rest))) :
    rest.length < cs.length := by
  unfold next at h
  split at h
  · simp at h
  · rename_i r
    have key : ∀ x : Except MarkupFault Step, x.map some = .ok (some (t, rest)) → x = .ok (t, rest) := by
      intro x hx
      cases x with
      | error e => simp [Except.map] at hx
      | ok v => simpa [Except.map] using hx
    split at h
    · have := declaration_shorter (key _ h); simp at this ⊢; omega
    · have := instruction_shorter (key _ h); simp at this ⊢; omega
    · have := tag_shorter (key _ h); simp at this ⊢; omega
  · rename_i c r _
    simp at h
    have := (List.dropWhile_suffix (l := r) (· ≠ '<')).length_le
    simp [← h.2] at this ⊢
    omega

end SkitPage.Markup
