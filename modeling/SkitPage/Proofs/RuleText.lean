import Mathlib.Data.List.Basic
import SkitPage.Stylesheet.Rule
import SkitPage.Text.Basic

/-!
# Reading rules back

The text of rules is what a page hands on, so what is said of the rules has to be said of what can be read in
their text. This module reads it, line by line. A line that begins with `@include` and its indentation is a
mixin of the rule above it; any other line begins a rule with its selectors, and blank lines are passed over
(`Rule.readAll?`). Selectors are cut into tokens first, and the tokens are put together with a stack of open
negations (`Selector.readList?`).

Rules that are plain are read as they were written (`Rule.readAll?_renderAll`). A rule is plain if the names in
its selectors are words of small letters and no mixin has a line break in its name. A line break ends the mixin,
and what comes after it is read as lines of their own (`Rule.readAll?_renderAll_eq`).

Key definitions: `Text.isBreak`, `RuleText.scan`, `RuleText.Reader.step?`, `Selector.readList?`,
`Rule.readAll?`, `Selector.Plain`, `Rule.Plain`, `Rule.textLines`.
Key theorems: `RuleText.scan_selectors`, `RuleText.run_selectors`, `RuleText.readList?_renderList`,
`Rule.readAll?_renderAll_eq`, `Rule.readAll?_renderAll`.
-/

namespace SkitPage

namespace RuleText

/-! ### Tokens of selectors -/

/-- What the text of selectors is made of. -/
inductive Token
  /-- A condition other than a negation. -/
  | plain (condition : Simple)
  /-- The start of a negation. -/
  | opening
  /-- The end of a negation. -/
  | closing
  /-- A sign between selectors or between the parts of one. -/
  | separator (c : Char)

/-- The signs between selectors and between the parts of one. -/
def separators : List Char := [',', ' ', '>', '+', '~']

/-- The characters of words: small letters, and the parenthesis that ends the word of a negation. -/
def isWordChar (c : Char) : Bool := c.isLower || c = '('

/-- The token that a sign alone stands for. -/
def Token.ofSign? (c : Char) : Option Token :=
  if c = '*' then some (.plain .any)
  else if c = ')' then some .closing
  else if c ∈ separators then some (.separator c)
  else none

/-- The token that a sign with a word after it stands for. -/
def Token.ofWord? (c : Char) (word : List Char) : Option Token :=
  if c = '.' ∧ word.all Char.isLower then some (.plain (.hasClass (String.ofList word)))
  else if c = '#' ∧ word.all Char.isLower then some (.plain (.hasId (String.ofList word)))
  else if c = ':' ∧ word = "target".toList then some (.plain .target)
  else if c = ':' ∧ word = "not(".toList then some .opening
  else none

/-- The tokens of a text, and the letters before them that belong to no sign yet. -/
def scan : List Char → Option (List Char × List Token)
  | [] => some ([], [])
  | c :: cs => do
    let (word, ts) ← scan cs
    if isWordChar c then some (c :: word, ts)
    else if word.isEmpty then (Token.ofSign? c).map fun t => ([], t :: ts)
    else (Token.ofWord? c word).map fun t => ([], t :: ts)

/-! ### Selectors from tokens -/

/-- Selectors in the middle of being read. -/
structure Frame where
  /-- The selectors that are complete. -/
  complete : List Selector := []
  /-- What is on the left of the element at hand. -/
  left : Option (Selector × Combinator) := none
  /-- The conditions on the element at hand. -/
  conditions : List Simple := []
  /-- The separators after them. -/
  gap : List Char := []

namespace Frame

/-- The selector at hand, if there are conditions. -/
def selector? (f : Frame) : Option Selector :=
  if f.conditions.isEmpty then none
  else match f.left with
    | none => some (.compound f.conditions)
    | some (left, k) => some (.related left k f.conditions)

/-- The combinator that separators stand for. -/
def combinator? (gap : List Char) : Option Combinator :=
  [.descendant, .child, .next, .sibling].find? fun k => (k.render .wide).toList = gap

/-- Go on after the separators: to the next selector after a comma, or to the next part of this one. -/
def enter? (f : Frame) : Option Frame :=
  if f.gap = [] then some f
  else if f.gap = ", ".toList then f.selector?.map fun s => { complete := f.complete ++ [s] }
  else do
    let s ← f.selector?
    let k ← combinator? f.gap
    return { complete := f.complete, left := some (s, k) }

/-- One more condition. That any element will do is said first or not at all. -/
def add? (f : Frame) : Simple → Option Frame
  | .any => if f.conditions.isEmpty then some { f with conditions := [.any] } else none
  | c => some { f with conditions := f.conditions ++ [c] }

/-- All selectors, if nothing is missing in the last one. -/
def selectors? (f : Frame) : Option (List Selector) :=
  if f.gap = [] then f.selector?.map (f.complete ++ [·]) else none

end Frame

/-- A reader of selectors: what it is reading, and around it what the open negations interrupt. -/
structure Reader where
  /-- What is being read. -/
  frame : Frame := {}
  /-- What is interrupted, innermost first. -/
  outer : List Frame := []

/-- Read on. -/
def Reader.step? (r : Reader) : Token → Option Reader
  | .separator c => some { r with frame := { r.frame with gap := r.frame.gap ++ [c] } }
  | .plain c => do
    let f ← r.frame.enter?
    let f ← f.add? c
    return { r with frame := f }
  | .opening => r.frame.enter?.map fun f => ⟨{}, f :: r.outer⟩
  | .closing => match r.outer with
    | [] => none
    | f :: outer => do
      let ss ← r.frame.selectors?
      let f ← f.add? (.not ss)
      return ⟨f, outer⟩

end RuleText

open RuleText in
/-- The selectors that a text spells, if it does. -/
def Selector.readList? (cs : List Char) : Option (List Selector) := do
  let (word, ts) ← scan cs
  let r ← ts.foldlM Reader.step? {}
  if word.isEmpty ∧ r.outer.isEmpty then r.frame.selectors? else none

/-! ### Rules from lines -/

/-- Whether a character ends a line. -/
def Text.isBreak (c : Char) : Bool := c = '\n' || c = '\r' || c = '\x0c'

namespace RuleText

/-- The lines of a text. -/
def lines (cs : List Char) : List (List Char) := cs.splitOnP Text.isBreak

/-- The mixin that a line applies, if it applies one. -/
def mixin? (line : List Char) : Option String :=
  ("  @include ".toList.isPrefixOf? line).map String.ofList

/-- The rules that lines spell, and the mixins before the first of them. -/
def readLines : List (List Char) → Option (List String × List Rule)
  | [] => some ([], [])
  | l :: ls => do
    let (mixins, rules) ← readLines ls
    if l.all Text.isBlank then some (mixins, rules)
    else match mixin? l with
      | some m => some (m :: mixins, rules)
      | none => (Selector.readList? l).map fun ss => ([], ⟨ss, mixins⟩ :: rules)

end RuleText

/-- The rules that lines spell, if they do. -/
def Rule.ofLines? (ls : List (List Char)) : Option (List Rule) :=
  match RuleText.readLines ls with
  | some ([], rules) => some rules
  | _ => none

/-- The rules that a text spells, if it does. -/
def Rule.readAll? (text : String) : Option (List Rule) := ofLines? (RuleText.lines text.toList)

/-! ### Plain rules -/

/-- A word of small letters. -/
def Name.IsWord (name : String) : Prop := name ≠ "" ∧ name.toList.all Char.isLower = true

mutual

/-- A condition whose names are words. -/
def Simple.Plain : Simple → Prop
  | .any => False
  | .element _ => False
  | .hasClass name => Name.IsWord name
  | .hasId name => Name.IsWord name
  | .target => True
  | .not alternatives => alternatives ≠ [] ∧ Selector.PlainAll alternatives

/-- Conditions whose names are words. -/
def Simple.PlainAll : List Simple → Prop
  | [] => True
  | c :: cs => c.Plain ∧ Simple.PlainAll cs

/-- A selector whose names are words. There are conditions on each element; where any element will do,
nothing else is said of it. -/
def Selector.Plain : Selector → Prop
  | .compound cs => cs = [.any] ∨ cs ≠ [] ∧ Simple.PlainAll cs
  | .related left _ cs => left.Plain ∧ (cs = [.any] ∨ cs ≠ [] ∧ Simple.PlainAll cs)

/-- Selectors whose names are words. -/
def Selector.PlainAll : List Selector → Prop
  | [] => True
  | s :: ss => s.Plain ∧ Selector.PlainAll ss

end

theorem Selector.plainAll_iff : ∀ {ss : List Selector}, PlainAll ss ↔ ∀ s ∈ ss, s.Plain
  | [] => by simp [PlainAll]
  | s :: ss => by
    have ih : PlainAll ss ↔ _ := plainAll_iff
    simp [PlainAll, ih]

/-- A rule whose text can be read back. -/
structure Rule.Plain (r : Rule) : Prop where
  nonempty : r.selectors ≠ []
  selectors : ∀ s ∈ r.selectors, s.Plain
  mixins : ∀ m ∈ r.mixins, m.toList.any Text.isBreak = false

namespace RuleText

mutual

/-- The tokens of a condition. -/
def ofSimple : Simple → List Token
  | .not alternatives => .opening :: (ofSelectors alternatives ++ [.closing])
  | c => [.plain c]

/-- The tokens of the conditions on one element. -/
def ofConditions : List Simple → List Token
  | [] => []
  | c :: cs => ofSimple c ++ ofConditions cs

/-- The tokens of a selector. -/
def ofSelector : Selector → List Token
  | .compound cs => ofConditions cs
  | .related left k cs => ofSelector left ++ ((k.render .wide).toList.map .separator ++ ofConditions cs)

/-- The tokens of selectors with commas between them. -/
def ofSelectors : List Selector → List Token
  | [] => []
  | [s] => ofSelector s
  | s :: s' :: ss => ofSelector s ++ (", ".toList.map .separator ++ ofSelectors (s' :: ss))

end

/-! ### From text to tokens -/

variable {cs : List Char} {ts : List Token}

theorem scan_word (h : scan cs = some ([], ts)) {word : List Char} (hword : word.all isWordChar = true) :
    scan (word ++ cs) = some (word, ts) := by
  induction word with
  | nil => exact h
  | cons c word ih =>
    obtain ⟨hc, hword⟩ := Bool.and_eq_true_iff.mp hword
    simp [scan, ih hword, hc]

/-- A sign with a word after it is a token. -/
theorem scan_ofWord (h : scan cs = some ([], ts)) {c : Char} (hc : isWordChar c = false) (word : List Char)
    (hne : word ≠ []) (hword : word.all isWordChar = true) {t : Token} (ht : Token.ofWord? c word = some t) :
    scan (c :: (word ++ cs)) = some ([], t :: ts) := by
  simp [scan, scan_word h hword, hc, hne, ht]

/-- A sign alone is a token. -/
theorem scan_ofSign (h : scan cs = some ([], ts)) {c : Char} (hc : isWordChar c = false) {t : Token}
    (ht : Token.ofSign? c = some t) : scan (c :: cs) = some ([], t :: ts) := by
  simp [scan, h, hc, ht]

theorem scan_separators (h : scan cs = some ([], ts)) (gap : List Char) (hgap : gap.all (· ∈ separators) = true) :
    scan (gap ++ cs) = some ([], gap.map .separator ++ ts) := by
  have hsign : ∀ c ∈ separators, isWordChar c = false ∧ c ≠ '*' ∧ c ≠ ')' := by
    intro c hc
    simp only [separators, List.mem_cons, List.not_mem_nil, or_false] at hc
    obtain rfl | rfl | rfl | rfl | rfl := hc <;> decide
  induction gap with
  | nil => exact h
  | cons c gap ih =>
    obtain ⟨hc, hgap⟩ := Bool.and_eq_true_iff.mp hgap
    have hc : c ∈ separators := of_decide_eq_true hc
    obtain ⟨hword, hany, hclosing⟩ := hsign c hc
    refine scan_ofSign (ih hgap) hword ?_
    rw [Token.ofSign?, if_neg hany, if_neg hclosing, if_pos hc]

/-- A name after a sign is read as a whole. -/
theorem scan_name (h : scan cs = some ([], ts)) {name : String} (hname : Name.IsWord name) {c : Char}
    (hc : isWordChar c = false) {t : Token} (ht : Token.ofWord? c name.toList = some t) :
    scan (c :: (name.toList ++ cs)) = some ([], t :: ts) := by
  refine scan_ofWord h hc _ (by simpa using hname.1) ?_ ht
  refine List.all_eq_true.mpr fun x hx => ?_
  rw [isWordChar, List.all_eq_true.mp hname.2 x hx, Bool.true_or]

/-- The signs that the text of a condition begins with. -/
def beginnings : List Char := ['*', '.', '#', ':']

theorem head?_simple {c : Simple} (h : c.Plain) : ∃ x ∈ beginnings.tail, (c.render .wide).toList.head? = some x := by
  cases c with
  | any => exact absurd h id
  | element name => exact absurd h id
  | hasClass name => exact ⟨'.', by decide, by simp [Simple.render]⟩
  | hasId name => exact ⟨'#', by decide, by simp [Simple.render]⟩
  | target => exact ⟨':', by decide, rfl⟩
  | not alternatives => exact ⟨':', by decide, by simp [Simple.render]⟩

/-- Where any element will do, nothing else is said of it, so that nothing is left out. -/
theorem joined_eq {conditions : List Simple}
    (h : conditions = [.any] ∨ conditions ≠ [] ∧ Simple.PlainAll conditions) :
    Simple.joined (Simple.renderEach .wide conditions) = String.join (Simple.renderEach .wide conditions) := by
  rcases h with rfl | ⟨-, h⟩
  · simp [Simple.renderEach, Simple.render, Simple.joined]
  · cases conditions with
    | nil => simp [Simple.renderEach, Simple.joined]
    | cons c conditions =>
      have hne : c.render .wide ≠ "*" := by
        intro heq
        obtain ⟨x, hx, hhead⟩ := head?_simple h.1
        rw [heq] at hhead
        obtain rfl : '*' = x := Option.some.inj hhead
        exact absurd hx (by decide)
      rw [Simple.renderEach]
      unfold Simple.joined
      split
      · rename_i heq
        exact absurd (List.cons.inj heq).1 hne
      · rfl

theorem separators_combinator (k : Combinator) : (k.render .wide).toList.all (· ∈ separators) = true := by
  cases k <;> decide

theorem scan_any (h : scan cs = some ([], ts)) : scan ('*' :: cs) = some ([], .plain .any :: ts) :=
  scan_ofSign h (by decide) rfl

mutual

/-- The text of a condition is read as its tokens, whatever follows it. -/
theorem scan_simple : ∀ {c : Simple}, c.Plain → ∀ {cs ts}, scan cs = some ([], ts) →
    scan ((c.render .wide).toList ++ cs) = some ([], ofSimple c ++ ts)
  | .any, h, _, _, _ => absurd h id
  | .element _, h, _, _, _ => absurd h id
  | .hasClass name, h, cs, ts, hcs => by
    simp only [Simple.render, String.toList_append]
    refine scan_name hcs h (by decide) ?_
    rw [Token.ofWord?, if_pos ⟨rfl, h.2⟩, String.ofList_toList]
  | .hasId name, h, cs, ts, hcs => by
    simp only [Simple.render, String.toList_append]
    refine scan_name hcs h (by decide) ?_
    rw [Token.ofWord?, if_neg fun hdot => absurd hdot.1 (by decide), if_pos ⟨rfl, h.2⟩, String.ofList_toList]
  | .target, _, cs, ts, hcs => by
    exact scan_ofWord hcs (by decide) "target".toList (by decide) (by decide) rfl
  | .not alternatives, h, cs, ts, hcs => by
    have hclosed : scan (')' :: cs) = some ([], .closing :: ts) := scan_ofSign hcs (by decide) rfl
    have hinside := scan_selectors h.2 hclosed
    have hopened : scan (':' :: ("not(".toList ++ _)) = _ :=
      scan_ofWord hinside (by decide) _ (by decide) (by decide) rfl
    simpa [Simple.render, ofSimple, Spacing.wide] using hopened

theorem scan_conditions : ∀ {conditions : List Simple}, Simple.PlainAll conditions →
    ∀ {cs ts}, scan cs = some ([], ts) →
      scan ((String.join (Simple.renderEach .wide conditions)).toList ++ cs) = some ([], ofConditions conditions ++ ts)
  | [], _, cs, ts, hcs => by simpa [Simple.renderEach, ofConditions] using hcs
  | c :: conditions, h, cs, ts, hcs => by
    have hfirst := scan_simple h.1 (scan_conditions h.2 hcs)
    simpa [Simple.renderEach, ofConditions, String.join_cons] using hfirst

theorem scan_selector : ∀ {sel : Selector}, sel.Plain → ∀ {cs ts}, scan cs = some ([], ts) →
    scan ((sel.render .wide).toList ++ cs) = some ([], ofSelector sel ++ ts)
  | .compound conditions, h, cs, ts, hcs => by
    rw [Selector.render, ofSelector, joined_eq h]
    rcases h with rfl | ⟨-, h⟩
    · exact scan_any hcs
    · exact scan_conditions h hcs
  | .related left k conditions, h, cs, ts, hcs => by
    have hright : scan ((Simple.joined (Simple.renderEach .wide conditions)).toList ++ cs) =
        some ([], ofConditions conditions ++ ts) := by
      rw [joined_eq h.2]
      rcases h.2 with rfl | ⟨-, h⟩
      · exact scan_any hcs
      · exact scan_conditions h hcs
    have hgap := scan_separators hright _ (separators_combinator k)
    simpa [Selector.render, ofSelector] using scan_selector h.1 hgap

/-- So is the text of selectors with commas between them. -/
theorem scan_selectors : ∀ {ss : List Selector}, Selector.PlainAll ss → ∀ {cs ts}, scan cs = some ([], ts) →
    scan ((", ".intercalate (Selector.renderEach .wide ss)).toList ++ cs) = some ([], ofSelectors ss ++ ts)
  | [], _, cs, ts, hcs => by simpa [Selector.renderEach, ofSelectors] using hcs
  | [s], h, cs, ts, hcs => by
    simpa [Selector.renderEach, ofSelectors, String.intercalate_singleton] using scan_selector h.1 hcs
  | s :: s' :: ss, h, cs, ts, hcs => by
    have hrest := scan_selectors h.2 hcs
    have hgap := scan_separators hrest ", ".toList (by decide)
    have hfirst := scan_selector h.1 hgap
    simpa [Selector.renderEach, ofSelectors, String.intercalate_cons_cons] using hfirst

end

/-! ### From tokens to selectors -/

namespace Frame

variable {f f' : Frame}

theorem enter?_of_gap (h : f.gap = []) : f.enter? = some f := if_pos h

theorem gap_enter? (h : f.enter? = some f') : f'.gap = [] := by
  unfold enter? at h
  split at h
  · rename_i hgap
    rwa [← Option.some.inj h]
  · split at h
    · obtain ⟨_, -, rfl⟩ := Option.map_eq_some_iff.mp h
      rfl
    · simp only [Option.bind_eq_bind, Option.bind_eq_some_iff] at h
      obtain ⟨_, -, _, -, h⟩ := h
      rw [← Option.some.inj h]

/-- A frame that has come to the end of a selector. -/
def upTo (f : Frame) : Selector → Frame
  | .compound conditions => { f with conditions }
  | .related left k conditions => { f with left := some (left, k), conditions }

theorem selector?_upTo {s : Selector} (h : s.Plain) (hleft : f.left = none) : (f.upTo s).selector? = some s := by
  have hne : ∀ {conditions : List Simple}, (conditions = [.any] ∨ conditions ≠ [] ∧ Simple.PlainAll conditions) →
      conditions.isEmpty = false := by
    rintro conditions (rfl | ⟨hne, -⟩)
    · rfl
    · simpa using hne
  cases s with
  | compound conditions => simp [upTo, selector?, hne h, hleft]
  | related left k conditions => simp [upTo, selector?, hne h.2]

theorem gap_upTo (f : Frame) (s : Selector) : (f.upTo s).gap = f.gap := by
  cases s <;> rfl

theorem complete_upTo (f : Frame) (s : Selector) : (f.upTo s).complete = f.complete := by
  cases s <;> rfl

theorem combinator?_render (k : Combinator) : combinator? (k.render .wide).toList = some k := by
  cases k <;> decide

/-- After a combinator the next part of the selector follows. -/
theorem enter?_combinator {s : Selector} (hs : f.selector? = some s) (k : Combinator) :
    ({ f with gap := (k.render .wide).toList } : Frame).enter? =
      some { complete := f.complete, left := some (s, k) } := by
  have hne : (k.render .wide).toList ≠ [] := by cases k <;> decide
  have hcomma : (k.render .wide).toList ≠ ", ".toList := by cases k <;> decide
  have hs' : ({ f with gap := (k.render .wide).toList } : Frame).selector? = some s := hs
  rw [enter?, if_neg hne, if_neg hcomma, hs', combinator?_render]
  rfl

/-- After a comma the next selector follows. -/
theorem enter?_comma {s : Selector} (hs : f.selector? = some s) :
    ({ f with gap := ", ".toList } : Frame).enter? = some { complete := f.complete ++ [s] } := by
  have hs' : ({ f with gap := ", ".toList } : Frame).selector? = some s := hs
  rw [enter?, if_neg (show ", ".toList ≠ [] by decide), if_pos rfl, hs']
  rfl

end Frame

theorem run_separators (gap : List Char) (f : Frame) (outer : List Frame) :
    (gap.map Token.separator).foldlM Reader.step? ⟨f, outer⟩ = some ⟨{ f with gap := f.gap ++ gap }, outer⟩ := by
  induction gap generalizing f with
  | nil => simp
  | cons c gap ih =>
    rw [List.map_cons, List.foldlM_cons]
    simp only [Reader.step?, Option.bind_eq_bind, Option.bind_some, ih]
    simp

theorem run_any {f f' : Frame} (hf : f.enter? = some f') (hnone : f'.conditions = []) (outer : List Frame) :
    (ofConditions [.any]).foldlM Reader.step? ⟨f, outer⟩ = some ⟨{ f' with conditions := [.any] }, outer⟩ := by
  simp [ofConditions, ofSimple, Reader.step?, hf, Frame.add?, hnone]

mutual

/-- The tokens of a condition add it to the element at hand. -/
theorem run_simple : ∀ {c : Simple}, c.Plain → ∀ {f f' : Frame}, f.enter? = some f' → ∀ outer : List Frame,
    (ofSimple c).foldlM Reader.step? ⟨f, outer⟩ =
      some ⟨{ f' with conditions := f'.conditions ++ [c] }, outer⟩
  | .any, h, _, _, _, _ => absurd h id
  | .element _, h, _, _, _, _ => absurd h id
  | .hasClass _, _, _, _, hf, _ => by simp [ofSimple, Reader.step?, hf, Frame.add?]
  | .hasId _, _, _, _, hf, _ => by simp [ofSimple, Reader.step?, hf, Frame.add?]
  | .target, _, _, _, hf, _ => by simp [ofSimple, Reader.step?, hf, Frame.add?]
  | .not alternatives, h, f, f', hf, outer => by
    -- the negation is read in a frame of its own, which is closed with all its selectors
    obtain ⟨g, hrun, hg⟩ := run_selectors h.2 h.1 (Frame.enter?_of_gap (f := {}) rfl) rfl rfl (f' :: outer)
    rw [ofSimple, List.foldlM_cons, Reader.step?, hf]
    simp only [Option.map_some, Option.bind_eq_bind, Option.bind_some, List.foldlM_append, hrun]
    simp [Reader.step?, hg, Frame.add?]

theorem run_conditions : ∀ {conditions : List Simple}, Simple.PlainAll conditions → conditions ≠ [] →
    ∀ {f f' : Frame}, f.enter? = some f' → ∀ outer : List Frame,
      (ofConditions conditions).foldlM Reader.step? ⟨f, outer⟩ =
        some ⟨{ f' with conditions := f'.conditions ++ conditions }, outer⟩
  | [], _, hne, _, _, _, _ => absurd rfl hne
  | [c], h, _, f, f', hf, outer => by
    have hc := run_simple h.1 hf outer
    simpa [ofConditions] using hc
  | c :: c' :: conditions, h, _, f, f', hf, outer => by
    have hgap : f'.gap = [] := Frame.gap_enter? hf
    have hnext := Frame.enter?_of_gap (f := { f' with conditions := f'.conditions ++ [c] }) hgap
    rw [ofConditions, List.foldlM_append, run_simple h.1 hf outer]
    simpa using run_conditions h.2 (List.cons_ne_nil _ _) hnext outer

/-- The tokens of a selector are read up to its end. -/
theorem run_selector : ∀ {s : Selector}, s.Plain → ∀ {f f' : Frame}, f.enter? = some f' → f'.left = none →
    f'.conditions = [] → ∀ outer : List Frame,
      (ofSelector s).foldlM Reader.step? ⟨f, outer⟩ = some ⟨f'.upTo s, outer⟩
  | .compound conditions, h, f, f', hf, _, hnone, outer => by
    rw [ofSelector]
    rcases h with rfl | ⟨hne, h⟩
    · exact run_any hf hnone outer
    · rw [run_conditions h hne hf outer, hnone]
      rfl
  | .related left k conditions, h, f, f', hf, hleft, hnone, outer => by
    have hgap : (f'.upTo left).gap = [] := (f'.gap_upTo left).trans (Frame.gap_enter? hf)
    have hnext := Frame.enter?_combinator (Frame.selector?_upTo h.1 hleft) k
    have hend : f'.upTo (.related left k conditions) =
        { complete := (f'.upTo left).complete, left := some (left, k), conditions } := by
      rw [Frame.upTo, Frame.gap_enter? hf, Frame.complete_upTo]
    rw [ofSelector, List.foldlM_append, run_selector h.1 hf hleft hnone outer]
    simp only [Option.bind_eq_bind, Option.bind_some, List.foldlM_append, run_separators, hgap, List.nil_append]
    rcases h.2 with rfl | ⟨hne, h⟩
    · rw [run_any hnext rfl outer, hend]
    · rw [run_conditions h hne hnext outer, hend, List.nil_append]

/-- The tokens of selectors with commas between them are read as these selectors. -/
theorem run_selectors : ∀ {ss : List Selector}, Selector.PlainAll ss → ss ≠ [] → ∀ {f f' : Frame},
    f.enter? = some f' → f'.left = none → f'.conditions = [] → ∀ outer : List Frame,
      ∃ g : Frame, (ofSelectors ss).foldlM Reader.step? ⟨f, outer⟩ = some ⟨g, outer⟩ ∧
        g.selectors? = some (f'.complete ++ ss)
  | [], _, hne, _, _, _, _, _, _ => absurd rfl hne
  | [s], h, _, f, f', hf, hleft, hnone, outer => by
    refine ⟨f'.upTo s, run_selector h.1 hf hleft hnone outer, ?_⟩
    rw [Frame.selectors?, if_pos ((f'.gap_upTo s).trans (Frame.gap_enter? hf)), Frame.selector?_upTo h.1 hleft,
      Frame.complete_upTo]
    rfl
  | s :: s' :: ss, h, _, f, f', hf, hleft, hnone, outer => by
    have hgap : (f'.upTo s).gap = [] := (f'.gap_upTo s).trans (Frame.gap_enter? hf)
    have hnext := Frame.enter?_comma (Frame.selector?_upTo h.1 hleft)
    obtain ⟨g, hrun, hg⟩ := run_selectors h.2 (List.cons_ne_nil _ _) hnext rfl rfl outer
    refine ⟨g, ?_, ?_⟩
    · rw [ofSelectors, List.foldlM_append, run_selector h.1 hf hleft hnone outer]
      simp only [Option.bind_eq_bind, Option.bind_some, List.foldlM_append, run_separators, hgap, List.nil_append]
      exact hrun
    · rw [hg, Frame.complete_upTo, List.append_assoc]
      rfl

end

theorem renderEach_eq_map (ss : List Selector) : Selector.renderEach .wide ss = ss.map (Selector.render .wide) := by
  induction ss with
  | nil => simp [Selector.renderEach]
  | cons s ss ih => rw [Selector.renderEach, ih, List.map_cons]

theorem scan_renderList {ss : List Selector} (h : ∀ s ∈ ss, s.Plain) :
    scan (Selector.renderList .wide ss).toList = some ([], ofSelectors ss) := by
  have hnil : scan [] = some ([], []) := rfl
  have hscan := scan_selectors (Selector.plainAll_iff.mpr h) hnil
  rw [List.append_nil, List.append_nil, renderEach_eq_map] at hscan
  exact hscan

/-- Selectors are read as they were written. -/
theorem readList?_renderList {ss : List Selector} (hne : ss ≠ []) (h : ∀ s ∈ ss, s.Plain) :
    Selector.readList? (Selector.renderList .wide ss).toList = some ss := by
  obtain ⟨g, hrun, hg⟩ :=
    run_selectors (Selector.plainAll_iff.mpr h) hne (Frame.enter?_of_gap (f := {}) rfl) rfl rfl []
  have hrun' : (ofSelectors ss).foldlM Reader.step? {} = some ⟨g, []⟩ := hrun
  simp [Selector.readList?, scan_renderList h, hrun', hg]

/-! ### Lines -/

/-- No token has a line break in it. -/
theorem any_isBreak_of_scan {word : List Char} (h : scan cs = some (word, ts)) : cs.any Text.isBreak = false := by
  induction cs generalizing word ts with
  | nil => rfl
  | cons c cs ih =>
    simp only [scan, Option.bind_eq_bind, Option.bind_eq_some_iff] at h
    obtain ⟨⟨word', ts'⟩, hrest, h⟩ := h
    have hc : Text.isBreak c = false := by
      rw [← Bool.not_eq_true]
      intro hbreak
      have hbreaks : c = '\n' ∨ c = '\r' ∨ c = '\x0c' := by simpa [Text.isBreak, or_assoc] using hbreak
      obtain ⟨hletter, hsign, hword⟩ :
          isWordChar c = false ∧ Token.ofSign? c = none ∧ Token.ofWord? c word' = none := by
        obtain rfl | rfl | rfl := hbreaks <;> exact ⟨by decide, rfl, by simp [Token.ofWord?]⟩
      simp [hletter, hsign, hword] at h
    rw [List.any_cons, hc, ih hrest]
    rfl

theorem head?_conditions {conditions : List Simple}
    (h : conditions = [.any] ∨ conditions ≠ [] ∧ Simple.PlainAll conditions) :
    ∃ x ∈ beginnings, (Simple.joined (Simple.renderEach .wide conditions)).toList.head? = some x := by
  rw [joined_eq h]
  rcases h with rfl | ⟨hne, h⟩
  · exact ⟨'*', by decide, rfl⟩
  · obtain ⟨c, conditions, rfl⟩ := List.exists_cons_of_ne_nil hne
    obtain ⟨x, hx, hc⟩ := head?_simple h.1
    exact ⟨x, List.mem_of_mem_tail hx, by simp [Simple.renderEach, String.join_cons, hc]⟩

theorem head?_selector : ∀ {s : Selector}, s.Plain → ∃ x ∈ beginnings, (s.render .wide).toList.head? = some x
  | .compound _, h => by
    rw [Selector.render]
    exact head?_conditions h
  | .related _ _ _, h => by
    obtain ⟨x, hx, hleft⟩ := head?_selector h.1
    exact ⟨x, hx, by simp [Selector.render, hleft]⟩

/-- The line of the selectors of a rule does not begin with a blank, as the lines of mixins do. -/
theorem head?_renderList {ss : List Selector} (hne : ss ≠ []) (h : ∀ s ∈ ss, s.Plain) :
    ∃ x ∈ beginnings, (Selector.renderList .wide ss).toList.head? = some x := by
  obtain ⟨s, ss, rfl⟩ := List.exists_cons_of_ne_nil hne
  obtain ⟨x, hx, hs⟩ := head?_selector (h s List.mem_cons_self)
  refine ⟨x, hx, ?_⟩
  cases ss with
  | nil => simpa [Selector.renderList, String.intercalate_singleton] using hs
  | cons s' ss =>
    rw [Selector.renderList, List.map_cons, List.map_cons, String.intercalate_cons_cons, String.toList_append,
      String.toList_append, List.head?_append, List.head?_append, hs]
    rfl

theorem lines_of_not_break {line : List Char} (h : line.any Text.isBreak = false) : lines line = [line] :=
  List.splitOnP_eq_singleton fun c hc => Bool.eq_false_iff.mpr (List.any_eq_false.mp h c hc)

/-- Texts that were put together line by line have the lines of each. -/
theorem lines_intercalate {texts : List String} (hne : texts ≠ []) :
    lines ("\n".intercalate texts).toList = texts.flatMap fun text => lines text.toList := by
  induction texts with
  | nil => exact absurd rfl hne
  | cons text texts ih =>
    cases texts with
    | nil => simp [String.intercalate_singleton]
    | cons text' texts =>
      rw [String.intercalate_cons_cons, String.toList_append, String.toList_append, List.append_assoc,
        List.flatMap_cons, ← ih (List.cons_ne_nil _ _)]
      exact List.splitOnP_append_cons _ _ rfl

theorem readLines_mixins (mixins : List String) {ls : List (List Char)} {rules : List Rule}
    (h : readLines ls = some ([], rules)) :
    readLines (mixins.map (fun m => ("  @include " ++ m).toList) ++ ls) = some (mixins, rules) := by
  induction mixins with
  | nil => exact h
  | cons m mixins ih =>
    have hmixin : mixin? ("  @include " ++ m).toList = some m := by
      rw [mixin?, String.toList_append, List.isPrefixOf?_eq_some_iff_append_eq.mpr rfl, Option.map_some,
        String.ofList_toList]
    have hblank : ("  @include " ++ m).toList.all Text.isBlank = false := by
      rw [String.toList_append]
      rfl
    rw [List.map_cons, List.cons_append, readLines, ih]
    simp only [Option.bind_eq_bind, Option.bind_some, hblank, hmixin, Bool.false_eq_true, if_false]

/-- The lines of a rule are read as this rule, before those that follow. -/
theorem readLines_rule {r : Rule} (hr : r.Plain) {ls : List (List Char)} {rules : List Rule}
    (h : readLines ls = some ([], rules)) :
    readLines (r.lines.map String.toList ++ ls) = some ([], r :: rules) := by
  obtain ⟨x, hx, hhead⟩ := head?_renderList hr.nonempty hr.selectors
  obtain ⟨xs, htext⟩ := List.head?_eq_some_iff.mp hhead
  have hread := readList?_renderList hr.nonempty hr.selectors
  have hbegin : beginnings.all (fun x => !Text.isBlank x && x != ' ') = true := by decide
  obtain ⟨hblank, hindent⟩ : Text.isBlank x = false ∧ x ≠ ' ' := by simpa using List.all_eq_true.mp hbegin x hx
  have hmixin : mixin? (x :: xs) = none := by
    simp [mixin?, List.isPrefixOf?, hindent.symm]
  rw [htext] at hread
  rw [Rule.lines, List.map_cons, List.map_map, List.cons_append, readLines]
  rw [show (String.toList ∘ fun m => "  @include " ++ m) = fun m => ("  @include " ++ m).toList from rfl,
    readLines_mixins r.mixins h, htext]
  simp [hblank, hmixin, hread]

end RuleText

open RuleText

namespace Rule

/-- The lines that a rule has in its text. -/
def textLines (r : Rule) : List (List Char) := r.lines.flatMap fun l => RuleText.lines l.toList

/-- The text of rules is read line by line. A mixin with a line break in its name is several of these lines, and only
the first of them applies a mixin to the rule. -/
theorem readAll?_renderAll_eq (rules : List Rule) : readAll? (renderAll rules) = ofLines? (rules.flatMap textLines) := by
  cases rules with
  | nil => rfl
  | cons r rules =>
    rw [readAll?, renderAll, lines_intercalate (by simp [lines]), List.flatMap_assoc]
    rfl

theorem Plain.textLines {r : Rule} (h : r.Plain) : r.textLines = r.lines.map String.toList := by
  have hunbroken : ∀ l ∈ r.lines, l.toList.any Text.isBreak = false := by
    intro l hl
    rcases List.mem_cons.mp hl with rfl | hl
    · exact any_isBreak_of_scan (scan_renderList h.selectors)
    · obtain ⟨m, hm, rfl⟩ := List.mem_map.mp hl
      rw [String.toList_append, List.any_append, h.mixins m hm]
      rfl
  rw [Rule.textLines, List.map_eq_flatMap]
  exact List.flatMap_congr fun l hl => lines_of_not_break (hunbroken l hl)

/-- **Plain rules are read as they were written.** -/
theorem readAll?_renderAll {rules : List Rule} (h : ∀ r ∈ rules, r.Plain) :
    readAll? (renderAll rules) = some rules := by
  have hread : readLines (rules.flatMap textLines) = some ([], rules) := by
    induction rules with
    | nil => rfl
    | cons r rules ih =>
      obtain ⟨hr, hrules⟩ := List.forall_mem_cons.mp h
      rw [List.flatMap_cons, hr.textLines]
      exact readLines_rule hr (ih hrules)
  rw [readAll?_renderAll_eq, ofLines?, hread]

end Rule

end SkitPage
