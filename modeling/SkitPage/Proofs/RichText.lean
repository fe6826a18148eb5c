import Mathlib.Data.Finset.Dedup
import Mathlib.Data.Finset.Filter
import SkitPage.RichText

/-!
# Rich text reads back

The markup of runs is read back as what the runs say (`RichText.read?_html`). A reader takes the text
apart into tags and characters, follows the tags with a stack of open styles, and notes for each character
which styles are open around it. It refuses a tag that closes anything but the innermost open style, a tag
that opens a style which is open already, and a text that ends while a style is open. It knows the tags and
the entities, and nothing of how runs are written.

The writer keeps a stack of its own. What it has written so far leads a reader to the same stack
(`RichText.Writer.Reads`), and while the text of a run is written the open styles are just those that the
run wants (`RichText.Writer.mem_opened_run`), whatever was open before and in whatever order.

Key definitions: `RichText.Token`, `RichText.tokens?`, `RichText.Reader.step?`, `RichText.read?`,
`Run.styled`, `RichText.Writer.Reads`.
Key theorems: `RichText.tokens?_spell`, `RichText.Writer.mem_opened_run`, `RichText.Writer.Reads.run`,
`RichText.read?_html`.
-/

namespace SkitPage

namespace RichText

/-! ### Tags and characters -/

/-- A piece of rich text: a tag, or a character of the text itself. -/
inductive Token
  | start (s : Style)
  | stop (s : Style)
  | char (c : Char)
deriving DecidableEq, Repr

/-- The tags and the entities that a reader knows. -/
def known : List (String × Token) := [
  ("<strong>", .start .strong), ("</strong>", .stop .strong),
  ("<em>", .start .em), ("</em>", .stop .em),
  ("<code>", .start .code), ("</code>", .stop .code),
  ("&lt;", .char '<'), ("&gt;", .char '>'), ("&amp;", .char '&'), ("&apos;", .char '\''),
  ("&quot;", .char '"')]

/-- The characters that never stand for themselves. -/
def reserved : List Char := ['<', '>', '&', '\'', '"']

/-- What a text begins with, and the rest of the text. -/
def next? (cs : List Char) : Option (Token × List Char) :=
  match known.findSome? fun k => (k.1.toList.isPrefixOf? cs).map (k.2, ·), cs with
  | some found, _ => some found
  | none, c :: rest => if c ∈ reserved then none else some (.char c, rest)
  | none, [] => none

/-- Whatever a reader knows begins with a character that does not stand for itself. -/
theorem exists_cons_of_known : ∀ k ∈ known, ∃ c ∈ reserved, ∃ cs, k.1.toList = c :: cs := by
  intro k hk
  have hall : ∀ k ∈ known, k.1.toList.head?.any (· ∈ reserved) = true := by decide
  obtain ⟨c, hhead, hc⟩ := (Option.any_eq_true _ _).mp (hall k hk)
  exact ⟨c, of_decide_eq_true hc, List.head?_eq_some_iff.mp hhead⟩

theorem next?_shorter {cs rest : List Char} {t : Token} (h : next? cs = some (t, rest)) :
    rest.length < cs.length := by
  unfold next? at h
  split at h
  case h_1 found _ hfound =>
    obtain ⟨k, hk, hmap⟩ := List.exists_of_findSome?_eq_some hfound
    obtain ⟨rest', hprefix, rfl⟩ := Option.map_eq_some_iff.mp hmap
    obtain ⟨c, -, cs', hc⟩ := exists_cons_of_known k hk
    have happend := List.isPrefixOf?_eq_some_iff_append_eq.mp hprefix
    obtain rfl : rest' = rest := congrArg Prod.snd (Option.some.inj h)
    rw [← happend, hc, List.length_append, List.length_cons]
    omega
  case h_2 c rest' _ =>
    split at h
    · cases h
    · cases h
      exact Nat.lt_succ_self _
  case h_3 => cases h

/-- A text as tags and characters, if it holds nothing else. -/
def tokens? (cs : List Char) : Option (List Token) :=
  if cs = [] then some []
  else match _h : next? cs with
    | none => none
    | some (t, rest) => (tokens? rest).map (t :: ·)
termination_by cs.length
decreasing_by exact next?_shorter _h

/-! ### Open styles -/

/-- A reader in the middle of a text. -/
structure Reader where
  /-- The open styles, innermost first. -/
  opened : List Style := []
  /-- The characters so far, each with the styles that are open around it. -/
  chars : List (Char × Finset Style) := []

/-- Read on. A tag may not start a style that is open, and may stop the innermost one only. -/
def Reader.step? (r : Reader) : Token → Option Reader
  | .start s => if s ∈ r.opened then none else some { r with opened := s :: r.opened }
  | .stop s => if r.opened.head? = some s then some { r with opened := r.opened.tail } else none
  | .char c => some { r with chars := r.chars ++ [(c, r.opened.toFinset)] }

/-- The characters of a text with their styles, if the text is properly nested and leaves nothing open. -/
def read? (text : String) : Option (List (Char × Finset Style)) := do
  let ts ← tokens? text.toList
  let r ← ts.foldlM Reader.step? {}
  if r.opened = [] then some r.chars else none

end RichText

/-- The styles of a run. -/
def Run.styles (r : Run) : Finset Style := Style.all.toFinset.filter fun s => r.wants s = true

/-- What a run says: its characters, each in the styles of the run. -/
def Run.styled (r : Run) : List (Char × Finset Style) := r.text.toList.map (·, r.styles)

theorem Run.mem_styles {r : Run} {s : Style} : s ∈ r.styles ↔ r.wants s = true := by
  have hall : s ∈ Style.all := by cases s <;> decide
  simp [styles, hall]

namespace RichText

/-! ### What is written is read -/

/-- How a tag or a character is written. -/
def Token.spell : Token → List Char
  | .start s => s.openTag.toList
  | .stop s => s.closeTag.toList
  | .char c => Text.escapeChar c

theorem next?_cons {c : Char} (hc : c ∉ reserved) (rest : List Char) :
    next? (c :: rest) = some (.char c, rest) := by
  have hnone : known.findSome? (fun k => (k.1.toList.isPrefixOf? (c :: rest)).map (k.2, ·)) = none := by
    refine List.findSome?_eq_none_iff.mpr fun k hk => ?_
    obtain ⟨c', hc', cs, hk'⟩ := exists_cons_of_known k hk
    have hne : c' ≠ c := fun h => hc (h ▸ hc')
    simp [hk', List.isPrefixOf?, hne]
  unfold next?
  rw [hnone]
  exact if_neg hc

theorem escapeChar_of_not_reserved {c : Char} (hc : c ∉ reserved) : Text.escapeChar c = [c] := by
  have hnone : Text.entity? c = none := by
    unfold Text.entity?
    split
    all_goals first | rfl | exact absurd (by decide) hc
  simp [Text.escapeChar, hnone]

theorem next?_spell (t : Token) (rest : List Char) : next? (t.spell ++ rest) = some (t, rest) := by
  cases t with
  | start s => cases s <;> rfl
  | stop s => cases s <;> rfl
  | char c =>
    by_cases hc : c ∈ reserved
    · simp only [reserved, List.mem_cons, List.not_mem_nil, or_false] at hc
      obtain rfl | rfl | rfl | rfl | rfl := hc <;> rfl
    · rw [Token.spell, escapeChar_of_not_reserved hc]
      exact next?_cons hc rest

/-- Every way to write tags and characters is read as these. -/
theorem tokens?_spell : ∀ ts : List Token, tokens? (ts.flatMap Token.spell) = some ts
  | [] => by rw [tokens?, List.flatMap_nil, if_pos rfl]
  | t :: ts => by
    have hnext := next?_spell t (ts.flatMap Token.spell)
    rw [List.flatMap_cons, tokens?]
    split
    · rename_i hnil
      rw [hnil] at hnext
      cases hnext
    · split
      · rename_i hnone
        rw [hnext] at hnone
        cases hnone
      · rename_i t' rest hsome
        obtain ⟨rfl, rfl⟩ : t = t' ∧ _ = rest := Prod.mk.inj (Option.some.inj (hnext.symm.trans hsome))
        rw [tokens?_spell ts, Option.map_some]

theorem foldlM_chars (cs : List Char) : ∀ r : Reader, (cs.map Token.char).foldlM Reader.step? r =
    some { r with chars := r.chars ++ cs.map (·, r.opened.toFinset) } := by
  induction cs with
  | nil => simp
  | cons c cs ih =>
    intro r
    rw [List.map_cons, List.foldlM_cons]
    simp only [Reader.step?, Option.bind_eq_bind, Option.bind_some, ih]
    simp

/-- Tags that stop the innermost styles in order lead to what is outside of them. -/
theorem foldlM_stops (inner : List Style) : ∀ r : Reader, ∀ outer, r.opened = inner ++ outer →
    (inner.map Token.stop).foldlM Reader.step? r = some { r with opened := outer } := by
  induction inner with
  | nil =>
    intro r outer h
    rw [List.nil_append] at h
    simp [← h]
  | cons s inner ih =>
    intro r outer h
    rw [List.map_cons, List.foldlM_cons]
    simp only [Reader.step?, h, List.cons_append, List.head?_cons, if_pos, Option.bind_eq_bind, Option.bind_some,
      List.tail_cons]
    exact ih { r with opened := inner ++ outer } outer rfl

namespace Writer

/-! ### The writer -/

variable {w : Writer} {r : Run} {chars : List (Char × Finset Style)}

/-- The characters written so far. -/
def text (w : Writer) : List Char := w.written.flatMap String.toList

/-- What was written so far is read as the given characters, and leaves the same styles open. -/
def Reads (w : Writer) (chars : List (Char × Finset Style)) : Prop :=
  ∃ ts : List Token, w.text = ts.flatMap Token.spell ∧ ts.foldlM Reader.step? {} = some ⟨w.opened, chars⟩

theorem reads_empty : Reads {} [] := ⟨[], rfl, rfl⟩

/-- It is enough to read what was written last. -/
theorem Reads.append (h : w.Reads chars) {w' : Writer} {chars' : List (Char × Finset Style)} (ts : List Token)
    (htext : w'.text = w.text ++ ts.flatMap Token.spell)
    (hread : ts.foldlM Reader.step? ⟨w.opened, chars⟩ = some ⟨w'.opened, chars'⟩) : w'.Reads chars' := by
  obtain ⟨before, hbefore, hfold⟩ := h
  refine ⟨before ++ ts, ?_, ?_⟩
  · rw [htext, hbefore, List.flatMap_append]
  · rw [List.foldlM_append, hfold]
    exact hread

/-- Closing takes the innermost styles away, each with its tag, until the style is not open any more. -/
theorem closing_eq (s : Style) : ∀ opened : List Style, ∃ inner,
    opened = inner ++ (closing s opened).2 ∧ (closing s opened).1 = inner.map Style.closeTag ∧
      s ∉ (closing s opened).2
  | [] => ⟨[], rfl, rfl, List.not_mem_nil⟩
  | top :: opened => by
    obtain ⟨inner, hopened, htags, hs⟩ := closing_eq s opened
    unfold closing
    split
    · refine ⟨top :: inner, ?_, ?_, hs⟩
      · rw [List.cons_append, ← hopened]
      · rw [List.map_cons, ← htags]
    · rename_i hnot
      exact ⟨[], rfl, rfl, hnot⟩

theorem Reads.close (h : w.Reads chars) (s : Style) : (w.close r s).Reads chars := by
  unfold Writer.close
  split
  · exact h
  · obtain ⟨inner, hopened, htags, -⟩ := closing_eq s w.opened
    refine h.append (inner.map Token.stop) ?_ (foldlM_stops inner _ _ hopened)
    simp [text, htags, List.flatMap_map, Token.spell]

theorem opened_close (w : Writer) (r : Run) (s : Style) :
    (w.close r s).opened <:+ w.opened ∧ (r.wants s = false → s ∉ (w.close r s).opened) := by
  unfold Writer.close
  split
  · rename_i hwants
    exact ⟨List.suffix_rfl, fun h => absurd hwants (by simp [h])⟩
  · obtain ⟨inner, hopened, -, hs⟩ := closing_eq s w.opened
    exact ⟨⟨inner, hopened.symm⟩, fun _ => hs⟩

/-- After the styles were gone through, none of them is open that the run does not want. Closing one may
take others down with it, but never puts one back. -/
theorem foldl_close (r : Run) : ∀ (ss : List Style) (w : Writer),
    (ss.foldl (close r) w).opened <:+ w.opened ∧
      (∀ s ∈ ss, r.wants s = false → s ∉ (ss.foldl (close r) w).opened) ∧
      ∀ chars, w.Reads chars → (ss.foldl (close r) w).Reads chars
  | [], w => ⟨List.suffix_rfl, nofun, fun _ h => h⟩
  | s :: ss, w => by
    obtain ⟨hsuffix, hunwanted, hreads⟩ := foldl_close r ss (w.close r s)
    obtain ⟨hsuffix', hunwanted'⟩ := opened_close w r s
    refine ⟨hsuffix.trans hsuffix', fun s' hs' hwants => ?_, fun chars h => hreads chars (h.close s)⟩
    rcases List.mem_cons.mp hs' with rfl | hs'
    · exact fun hmem => hunwanted' hwants (hsuffix.subset hmem)
    · exact hunwanted s' hs' hwants

theorem Reads.openIfWanted (h : w.Reads chars) (s : Style) : (w.openIfWanted r s).Reads chars := by
  unfold Writer.openIfWanted
  split
  · rename_i hs
    refine h.append [.start s] ?_ ?_
    · simp [text, Token.spell]
    · simp [Reader.step?, hs.2]
  · exact h

theorem mem_opened_openIfWanted (w : Writer) (r : Run) (s s' : Style) :
    s' ∈ (w.openIfWanted r s).opened ↔ s' ∈ w.opened ∨ s' = s ∧ r.wants s = true := by
  unfold Writer.openIfWanted
  split
  · rename_i hs
    simp [hs.1, or_comm]
  · rename_i hs
    refine ⟨Or.inl, ?_⟩
    rintro (h | ⟨rfl, hwants⟩)
    · exact h
    · exact not_not.mp fun hnot => hs ⟨hwants, hnot⟩

/-- After the styles were gone through, those that the run wants are open besides the ones that were. -/
theorem foldl_openIfWanted (r : Run) : ∀ (ss : List Style) (w : Writer),
    (∀ s, s ∈ (ss.foldl (Writer.openIfWanted r) w).opened ↔ s ∈ w.opened ∨ s ∈ ss ∧ r.wants s = true) ∧
      ∀ chars, w.Reads chars → (ss.foldl (Writer.openIfWanted r) w).Reads chars
  | [], w => ⟨by simp, fun _ h => h⟩
  | s :: ss, w => by
    obtain ⟨hmem, hreads⟩ := foldl_openIfWanted r ss (w.openIfWanted r s)
    refine ⟨fun s' => ?_, fun chars h => hreads chars (h.openIfWanted s)⟩
    rw [List.foldl_cons, hmem, mem_opened_openIfWanted, List.mem_cons]
    constructor
    · rintro ((h | ⟨rfl, h⟩) | ⟨h, hwants⟩)
      · exact Or.inl h
      · exact Or.inr ⟨Or.inl rfl, h⟩
      · exact Or.inr ⟨Or.inr h, hwants⟩
    · rintro (h | ⟨rfl | h, hwants⟩)
      · exact Or.inl (Or.inl h)
      · exact Or.inl (Or.inr ⟨rfl, hwants⟩)
      · exact Or.inr ⟨h, hwants⟩

/-- While a run is written, just the styles that it wants are open. -/
theorem mem_opened_run (w : Writer) (r : Run) (s : Style) : s ∈ (w.run r).opened ↔ r.wants s = true := by
  have hall : s ∈ Style.all := by cases s <;> decide
  obtain ⟨-, hunwanted, -⟩ := foldl_close r Style.all w
  obtain ⟨hmem, -⟩ := foldl_openIfWanted r Style.all (Style.all.foldl (close r) w)
  have hrun : s ∈ (w.run r).opened ↔ _ := hmem s
  rw [hrun]
  constructor
  · rintro (h | h)
    · exact Bool.not_eq_false _ ▸ fun hwants => hunwanted s hall hwants h
    · exact h.2
  · exact fun h => Or.inr ⟨hall, h⟩

theorem toFinset_opened_run (w : Writer) (r : Run) : (w.run r).opened.toFinset = r.styles := by
  ext s
  rw [List.mem_toFinset, mem_opened_run, Run.mem_styles]

/-- A run adds what it says. -/
theorem Reads.run (h : w.Reads chars) (r : Run) : (w.run r).Reads (chars ++ r.styled) := by
  have hclosed := (foldl_close r Style.all w).2.2 chars h
  have hready := (foldl_openIfWanted r Style.all _).2 chars hclosed
  refine hready.append (r.text.toList.map Token.char) ?_ ?_
  · simp [text, Writer.run, Text.escape, List.flatMap_map, Token.spell]
  · rw [foldlM_chars, Run.styled, ← toFinset_opened_run w r]
    rfl

theorem Reads.runs : ∀ (rs : List Run) {w : Writer} {chars : List (Char × Finset Style)}, w.Reads chars →
    (rs.foldl Writer.run w).Reads (chars ++ rs.flatMap Run.styled)
  | [], _, _, h => by simpa using h
  | r :: rs, _, _, h => by
    have := Reads.runs rs (h.run r)
    rwa [List.append_assoc] at this

end Writer

/-- **Rich text reads back.** The markup of any runs is made of known tags and of characters, each tag
stops the innermost open style or starts one that is not open, and at the end nothing is open. Its
characters, each with the styles that are open around it, are those of the runs, each in the styles of its
run. -/
theorem read?_html (runs : List Run) : read? (html runs) = some (runs.flatMap Run.styled) := by
  obtain ⟨ts, htext, hread⟩ := Writer.Reads.runs (runs ++ [plainEnd]) Writer.reads_empty
  have hopened : ((runs ++ [plainEnd]).foldl Writer.run {}).opened = [] := by
    rw [List.foldl_append]
    refine List.eq_nil_iff_forall_not_mem.mpr fun s hs => ?_
    have hwants := (Writer.mem_opened_run _ plainEnd s).mp hs
    cases s <;> cases hwants
  have hchars : (runs ++ [plainEnd]).flatMap Run.styled = runs.flatMap Run.styled := by
    simp [Run.styled, plainEnd]
  have htokens : tokens? (html runs).toList = some ts := by
    rw [html, String.toList_join, ← tokens?_spell ts, ← htext, Writer.text]
  rw [hopened, List.nil_append, hchars] at hread
  unfold read?
  rw [htokens]
  simp [hread]

end RichText

end SkitPage
