import Mathlib.Data.List.Infix
import Mathlib.Data.List.TakeWhile
import SkitPage.Markup.Split

/-!
# How tokens are written

Each token of markup has its forms, which say nothing about how it is found: a tag is a text between
brackets in which `>` only stands in quotes, a comment is a text without `-->` between `<!--` and `-->`,
and so on (`Markup.Lexeme`). The next token of an input is the one whose form the input begins with. A
token that is read has its form (`Markup.lexeme_of_next`), and where an input begins with a form, the token
is read from it (`Markup.Lexeme.next_eq`). A text alone may go on: it is read up to the next `<`.

Each scan is taken to the form of what it passes over: `Markup.scanTag_eq_some`,
`Markup.scanBalanced_eq_some` and `Markup.scanTo_stop`. A scan in the middle of its token has a quote or some
brackets open, so that these are shown for the rest of a form (`Markup.TagRest`, `Markup.BracketRest`).

Key definitions: `Markup.TagText`, `Markup.BracketText`, `Markup.Lexeme`.
Key theorems: `Markup.scanTag_eq_some`, `Markup.scanBalanced_eq_some`, `Markup.scanTo_stop`,
`Markup.lexeme_of_next`, `Markup.Lexeme.next_eq`.
-/

namespace SkitPage.Markup

/-! ### Tags -/

/-- The two quotes. -/
def IsQuote (c : Char) : Prop := c = '"' ∨ c = '\''

/-- What may stand between the brackets of a tag: characters other than `>`, and quoted text. -/
inductive TagText : List Char → Prop
  | nil : TagText []
  | plain {c : Char} {cs : List Char} : c ≠ '>' → ¬ IsQuote c → TagText cs → TagText (c :: cs)
  | quoted {q : Char} {inner cs : List Char} :
      IsQuote q → q ∉ inner → TagText cs → TagText (q :: inner ++ q :: cs)

/-- What may still come in a tag while `quote` is open. -/
def TagRest : Option Char → List Char → Prop
  | none, cs => TagText cs
  | some q, cs => ∃ inner more, cs = inner ++ q :: more ∧ q ∉ inner ∧ TagText more

theorem scanTag_quoted {q : Char} : ∀ {inner : List Char}, q ∉ inner → ∀ cs : List Char,
    scanTag (some q) (inner ++ q :: cs) =
      (scanTag none cs).map fun (content, rest) => (inner ++ q :: content, rest)
  | [], _, cs => by
    rw [List.nil_append, scanTag, if_pos rfl]
    rfl
  | c :: inner, h, cs => by
    have hc : c ≠ q := fun heq => h (heq ▸ List.mem_cons_self)
    rw [List.cons_append, scanTag]
    simp only [if_neg hc]
    rw [scanTag_quoted fun hq => h (List.mem_cons_of_mem _ hq), Option.map_map]
    rfl

theorem TagText.scanTag_eq {content : List Char} (h : TagText content) (rest : List Char) :
    scanTag none (content ++ '>' :: rest) = some (content, rest) := by
  induction h with
  | nil => simp [scanTag]
  | plain hc hq _ ih =>
    rw [List.cons_append, scanTag]
    simp only [if_neg hc, if_neg (show ¬(_ ∨ _) from hq), ih]
    rfl
  | @quoted q inner cs hq hin _ ih =>
    have hne : q ≠ '>' := by
      rcases hq with rfl | rfl <;> decide
    rw [List.append_assoc, List.cons_append, scanTag]
    simp only [if_neg hne, if_pos (show _ ∨ _ from hq), List.cons_append, scanTag_quoted hin, ih]
    rfl

theorem tagRest_of_scanTag {cs rest : List Char} : ∀ {quote : Option Char} {content : List Char},
    scanTag quote cs = some (content, rest) → TagRest quote content ∧ cs = content ++ '>' :: rest := by
  induction cs with
  | nil => simp [scanTag]
  | cons c cs ih =>
    intro quote content h
    cases quote with
    | some q =>
      rw [scanTag] at h
      obtain ⟨⟨content', rest'⟩, hscan, heq⟩ := Option.map_eq_some_iff.mp h
      obtain ⟨rfl, rfl⟩ : c :: content' = content ∧ rest' = rest := Prod.mk.inj heq
      obtain ⟨hrest, rfl⟩ := ih hscan
      refine ⟨?_, rfl⟩
      by_cases hc : c = q
      · rw [if_pos hc] at hrest
        exact ⟨[], content', by rw [hc]; rfl, List.not_mem_nil, hrest⟩
      · rw [if_neg hc] at hrest
        obtain ⟨inner, more, rfl, hq, hmore⟩ := hrest
        exact ⟨c :: inner, more, rfl, by simp [Ne.symm hc, hq], hmore⟩
    | none =>
      rw [scanTag] at h
      by_cases hc : c = '>'
      · simp only [if_pos hc, Option.some.injEq, Prod.mk.injEq] at h
        obtain ⟨rfl, rfl⟩ := h
        exact ⟨.nil, by rw [hc]; rfl⟩
      · simp only [if_neg hc] at h
        obtain ⟨⟨content', rest'⟩, hscan, heq⟩ := Option.map_eq_some_iff.mp h
        obtain ⟨rfl, rfl⟩ : c :: content' = content ∧ rest' = rest := Prod.mk.inj heq
        obtain ⟨hrest, rfl⟩ := ih hscan
        refine ⟨?_, rfl⟩
        by_cases hq : c = '"' ∨ c = '\''
        · rw [if_pos hq] at hrest
          obtain ⟨inner, more, rfl, hin, hmore⟩ := hrest
          exact .quoted hq hin hmore
        · rw [if_neg hq] at hrest
          exact .plain hc hq hrest

/-- A tag goes up to the first `>` outside of quotes. -/
theorem scanTag_eq_some {cs content rest : List Char} :
    scanTag none cs = some (content, rest) ↔ TagText content ∧ cs = content ++ '>' :: rest := by
  refine ⟨tagRest_of_scanTag, ?_⟩
  rintro ⟨h, rfl⟩
  exact h.scanTag_eq rest

theorem TagText.append {a b : List Char} (ha : TagText a) (hb : TagText b) : TagText (a ++ b) := by
  induction ha with
  | nil => exact hb
  | plain hc hq _ ih => exact .plain hc hq ih
  | quoted hq hinner _ ih =>
    rw [List.append_assoc]
    exact .quoted hq hinner ih

theorem TagText.of_plain {cs : List Char} (h : ∀ c ∈ cs, c ≠ '>' ∧ ¬ IsQuote c) : TagText cs := by
  induction cs with
  | nil => exact .nil
  | cons c cs ih =>
    obtain ⟨hc, hq⟩ := h c List.mem_cons_self
    exact .plain hc hq (ih fun c' hc' => h c' (List.mem_cons_of_mem _ hc'))

theorem TagText.of_blanks {cs : List Char} (h : ∀ c ∈ cs, isBlank c = true) : TagText cs := by
  refine .of_plain fun c hc => ⟨?_, ?_⟩
  · rintro rfl
    exact absurd (h _ hc) (by decide)
  · rintro (rfl | rfl) <;> exact absurd (h _ hc) (by decide)

theorem TagText.tail {c : Char} {cs : List Char} (hc : ¬ IsQuote c) (h : TagText (c :: cs)) : TagText cs := by
  generalize hcs : c :: cs = w at h
  cases h with
  | nil => cases hcs
  | plain _ _ h =>
    obtain ⟨-, rfl⟩ := List.cons.inj hcs
    exact h
  | quoted hq =>
    obtain ⟨rfl, -⟩ := List.cons.inj hcs
    exact absurd hq hc

/-! ### Doctypes -/

/-- Text in which every bracket has its partner. -/
inductive BracketText : List Char → Prop
  | nil : BracketText []
  | plain {c : Char} {cs : List Char} : c ≠ '<' → c ≠ '>' → BracketText cs → BracketText (c :: cs)
  | nested {inner cs : List Char} :
      BracketText inner → BracketText cs → BracketText ('<' :: inner ++ '>' :: cs)

/-- Text that closes `depth` brackets which it does not open. -/
def BracketRest : Nat → List Char → Prop
  | 0, cs => BracketText cs
  | depth + 1, cs => ∃ inner more, cs = inner ++ '>' :: more ∧ BracketText inner ∧ BracketRest depth more

theorem BracketRest.plain {c : Char} (hl : c ≠ '<') (hr : c ≠ '>') {cs : List Char} :
    ∀ {depth : Nat}, BracketRest depth cs → BracketRest depth (c :: cs)
  | 0, h => BracketText.plain hl hr h
  | _ + 1, ⟨inner, more, heq, hin, hmore⟩ => ⟨c :: inner, more, by rw [heq]; rfl, .plain hl hr hin, hmore⟩

theorem BracketRest.nested {cs : List Char} :
    ∀ {depth : Nat}, BracketRest (depth + 1) cs → BracketRest depth ('<' :: cs)
  | 0, ⟨inner, more, heq, hin, hmore⟩ => heq ▸ BracketText.nested hin hmore
  | _ + 1, ⟨inner, more, heq, hin, inner', more', heq', hin', hmore'⟩ =>
    ⟨'<' :: inner ++ '>' :: inner', more', by simp [heq, heq'], .nested hin hin', hmore'⟩

theorem bracketRest_of_scanBalanced {depth : Nat} {cs content rest : List Char}
    (h : scanBalanced depth cs = some (content, rest)) :
    BracketRest depth content ∧ cs = content ++ '>' :: rest := by
  fun_induction scanBalanced depth cs generalizing content with
  | case1 => cases h
  | case2 depth cs ih =>
    obtain ⟨⟨content', rest'⟩, hscan, heq⟩ := Option.map_eq_some_iff.mp h
    obtain ⟨rfl, rfl⟩ : '<' :: content' = content ∧ rest' = rest := Prod.mk.inj heq
    obtain ⟨hrest, rfl⟩ := ih hscan
    exact ⟨hrest.nested, rfl⟩
  | case3 cs =>
    obtain ⟨rfl, rfl⟩ : [] = content ∧ cs = rest := Prod.mk.inj (Option.some.inj h)
    exact ⟨BracketText.nil, rfl⟩
  | case4 cs depth ih =>
    obtain ⟨⟨content', rest'⟩, hscan, heq⟩ := Option.map_eq_some_iff.mp h
    obtain ⟨rfl, rfl⟩ : '>' :: content' = content ∧ rest' = rest := Prod.mk.inj heq
    obtain ⟨hrest, rfl⟩ := ih hscan
    exact ⟨⟨[], content', rfl, .nil, hrest⟩, rfl⟩
  | case5 depth c cs hl hr ih =>
    obtain ⟨⟨content', rest'⟩, hscan, heq⟩ := Option.map_eq_some_iff.mp h
    obtain ⟨rfl, rfl⟩ : c :: content' = content ∧ rest' = rest := Prod.mk.inj heq
    obtain ⟨hrest, rfl⟩ := ih hscan
    exact ⟨hrest.plain hl hr, rfl⟩

theorem BracketText.scanBalanced_append {inner : List Char} (h : BracketText inner) :
    ∀ (depth : Nat) (cs : List Char), scanBalanced depth (inner ++ cs) =
      (scanBalanced depth cs).map fun (content, rest) => (inner ++ content, rest) := by
  induction h with
  | nil => simp
  | plain hl hr _ ih =>
    intro depth cs
    rw [List.cons_append, scanBalanced, ih, Option.map_map]
    · rfl
    · exact hl
    · exact hr
  | nested _ _ ihin ih =>
    intro depth cs
    rw [List.append_assoc, List.cons_append, scanBalanced, List.cons_append, ihin, scanBalanced, ih]
    simp only [Option.map_map]
    congr 1
    funext p
    simp

theorem BracketText.append_iff {word cs : List Char} (h : ∀ c ∈ word, c ≠ '<' ∧ c ≠ '>') :
    BracketText (word ++ cs) ↔ BracketText cs := by
  induction word with
  | nil => rfl
  | cons c word ih =>
    have ih := ih fun c' hc' => h c' (List.mem_cons_of_mem _ hc')
    obtain ⟨hl, hr⟩ := h c List.mem_cons_self
    refine ⟨fun hcs => ih.mp ?_, fun hcs => .plain hl hr (ih.mpr hcs)⟩
    generalize hw : c :: word ++ cs = w at hcs
    cases hcs with
    | nil => cases hw
    | plain _ _ hcs =>
      obtain ⟨-, rfl⟩ := List.cons.inj hw
      exact hcs
    | nested =>
      obtain ⟨rfl, -⟩ := List.cons.inj hw
      exact absurd rfl hl

/-- A doctype goes up to the `>` that is no partner of an earlier `<`. -/
theorem scanBalanced_eq_some {cs content rest : List Char} :
    scanBalanced 0 cs = some (content, rest) ↔ BracketText content ∧ cs = content ++ '>' :: rest := by
  refine ⟨bracketRest_of_scanBalanced, ?_⟩
  rintro ⟨h, rfl⟩
  rw [h.scanBalanced_append, scanBalanced]
  simp

/-! ### Comments, character data and instructions -/

/-- Such a token goes up to the first `>` at which it may end. -/
theorem scanTo_eq_some {ends : List Char → Bool} {rest content : List Char} :
    ∀ {before cs : List Char}, scanTo ends before cs = some (content, rest) ↔
      ∃ body, cs = body ++ '>' :: rest ∧ content = before.reverse ++ body ∧
        ends (body.reverse ++ before) = true ∧ ∀ x y, body = x ++ '>' :: y → ends (x.reverse ++ before) = false
  | before, [] => by simp [scanTo]
  | before, c :: cs => by
    rw [scanTo]
    by_cases hstop : c = '>' ∧ ends before = true
    · rw [if_pos hstop]
      constructor
      · intro h
        obtain ⟨rfl, rfl⟩ : before.reverse = content ∧ cs = rest := Prod.mk.inj (Option.some.inj h)
        exact ⟨[], by rw [hstop.1]; rfl, by simp, by simpa using hstop.2, by simp⟩
      · rintro ⟨body, hcs, rfl, -, hfirst⟩
        cases body with
        | nil =>
          obtain ⟨-, rfl⟩ := List.cons.inj hcs
          simp
        | cons c' body =>
          obtain ⟨rfl, -⟩ := List.cons.inj hcs
          have hnot := hfirst [] body (by rw [hstop.1]; rfl)
          rw [List.reverse_nil, List.nil_append, hstop.2] at hnot
          cases hnot
    · rw [if_neg hstop, scanTo_eq_some]
      constructor
      · rintro ⟨body, rfl, rfl, hends, hfirst⟩
        refine ⟨c :: body, rfl, by simp, by simpa using hends, fun x y hbody => ?_⟩
        cases x with
        | nil =>
          obtain ⟨rfl, -⟩ := List.cons.inj hbody
          exact Bool.not_eq_true _ ▸ fun h => hstop ⟨rfl, h⟩
        | cons c' x =>
          obtain ⟨rfl, htail⟩ := List.cons.inj hbody
          simpa using hfirst x y htail
      · rintro ⟨body, hcs, rfl, hends, hfirst⟩
        cases body with
        | nil =>
          obtain ⟨rfl, -⟩ := List.cons.inj hcs
          exact absurd ⟨rfl, hends⟩ hstop
        | cons c' body =>
          obtain ⟨rfl, rfl⟩ := List.cons.inj hcs
          refine ⟨body, rfl, by simp, by simpa using hends, fun x y hbody => ?_⟩
          simpa using hfirst (c :: x) y (by rw [hbody]; rfl)

theorem scanTo_append {ends : List Char → Bool} : ∀ {pre : List Char}, '>' ∉ pre → ∀ before cs : List Char,
    scanTo ends before (pre ++ cs) = scanTo ends (pre.reverse ++ before) cs
  | [], _, before, cs => rfl
  | c :: pre, h, before, cs => by
    have hc : ¬(c = '>' ∧ ends before = true) := fun hc => h (hc.1 ▸ List.mem_cons_self)
    rw [List.cons_append, scanTo, if_neg hc, scanTo_append fun hm => h (List.mem_cons_of_mem _ hm)]
    simp

/-- Where a token ends with the word `stop` and `>`, these two do not stand together inside of it. -/
theorem scanTo_stop {ends : List Char → Bool} {stop before cs content rest : List Char} (hstop : '>' ∉ stop)
    (hends : ∀ x, ends (x ++ before) = stop.reverse.isPrefixOf x) :
    scanTo ends before cs = some (content, rest) ↔
      ∃ body, cs = body ++ stop ++ '>' :: rest ∧ content = before.reverse ++ body ++ stop ∧
        ¬ stop ++ ['>'] <:+: body := by
  have hends' : ∀ x, ends (List.reverse x ++ before) = true ↔ stop <:+ x := fun x => by
    rw [hends, List.isPrefixOf_iff_prefix, List.reverse_prefix]
  rw [scanTo_eq_some]
  constructor
  · rintro ⟨body', rfl, rfl, hend, hfirst⟩
    obtain ⟨body, rfl⟩ := (hends' _).mp hend
    refine ⟨body, by simp, by simp, ?_⟩
    rintro ⟨x, y, rfl⟩
    have hnot := hfirst (x ++ stop) (y ++ stop) (by simp)
    rw [(hends' _).mpr (List.suffix_append x stop)] at hnot
    cases hnot
  · rintro ⟨body, rfl, rfl, hnot⟩
    refine ⟨body ++ stop, by simp, by simp, (hends' _).mpr (List.suffix_append body stop), fun x y hxy => ?_⟩
    refine Bool.not_eq_true _ ▸ fun h => hnot ?_
    obtain ⟨x, rfl⟩ := (hends' _).mp h
    -- The `>` after `x ++ stop` is not one of `stop`, so that it stands in `body`.
    rcases List.append_eq_append_iff.mp hxy with ⟨z, hz, hz'⟩ | ⟨z, hz, hz'⟩
    · have hmem : '>' ∈ stop := by
        rw [hz']
        simp
      exact absurd hmem hstop
    · cases z with
      | nil =>
        have hmem : '>' ∈ stop := by
          rw [List.nil_append] at hz'
          rw [← hz']
          exact List.mem_cons_self
        exact absurd hmem hstop
      | cons c z =>
        obtain ⟨rfl, -⟩ := List.cons.inj hz'
        exact ⟨x, z, by rw [hz]; simp⟩

/-- A token that begins with `word` and ends with `stop` and `>`. -/
theorem scanTo_word {ends : List Char → Bool} {word stop cs rest : List Char} (hword : '>' ∉ word)
    (hstop : '>' ∉ stop) (hends : ∀ x, ends (x ++ word.reverse) = stop.reverse.isPrefixOf x) :
    (∃ content, scanTo ends [] cs = some (content, rest) ∧ word.isPrefixOf content = true) ↔
      ∃ body, cs = word ++ (body ++ (stop ++ '>' :: rest)) ∧ ¬ stop ++ ['>'] <:+: body := by
  constructor
  · rintro ⟨content, hscan, hpre⟩
    obtain ⟨after, rfl⟩ := List.isPrefixOf_iff_prefix.mp hpre
    obtain ⟨_, rfl, rfl, -⟩ := scanTo_eq_some.mp hscan
    rw [List.append_assoc, scanTo_append hword, List.append_nil] at hscan
    obtain ⟨body, hafter, -, hnot⟩ := (scanTo_stop hstop hends).mp hscan
    exact ⟨body, by rw [List.append_assoc, hafter, List.append_assoc], hnot⟩
  · rintro ⟨body, rfl, hnot⟩
    refine ⟨word ++ body ++ stop, ?_, List.isPrefixOf_iff_prefix.mpr ⟨body ++ stop, by simp⟩⟩
    rw [scanTo_append hword, List.append_nil]
    exact (scanTo_stop hstop hends).mpr ⟨body, by simp, by simp, hnot⟩

theorem endsComment_append (x : List Char) : endsComment (x ++ ['-', '-', '!']) = ['-', '-'].isPrefixOf x := by
  rcases x with _ | ⟨a, _ | ⟨b, x⟩⟩ <;> simp [endsComment, List.isPrefixOf]

theorem scanTo_comment (cs rest : List Char) :
    (∃ content, scanTo endsComment [] cs = some (content, rest) ∧ ['!', '-', '-'].isPrefixOf content = true) ↔
      ∃ body, cs = ['!', '-', '-'] ++ (body ++ (['-', '-'] ++ '>' :: rest)) ∧ ¬ ['-', '-', '>'] <:+: body :=
  scanTo_word (by decide) (by decide) endsComment_append

/-- How character data begins, after the bracket. -/
def dataWord : List Char := ['!', '[', 'C', 'D', 'A', 'T', 'A', '[']

theorem endsCharacterData_append (x : List Char) :
    endsCharacterData (x ++ dataWord.reverse) = [']', ']'].isPrefixOf x := by
  rcases x with _ | ⟨a, _ | ⟨b, x⟩⟩ <;> simp [endsCharacterData, dataWord, List.isPrefixOf]

theorem scanTo_characterData (cs rest : List Char) :
    (∃ content, scanTo endsCharacterData [] cs = some (content, rest) ∧ dataWord.isPrefixOf content = true) ↔
      ∃ body, cs = dataWord ++ (body ++ ([']', ']'] ++ '>' :: rest)) ∧ ¬ [']', ']', '>'] <:+: body :=
  scanTo_word (by decide) (by decide) endsCharacterData_append

theorem scanTo_instruction (cs rest : List Char) :
    (∃ content, scanTo endsInstruction [] ('?' :: cs) = some (content, rest) ∧ 1 < content.length) ↔
      ∃ body, cs = body ++ ['?', '>'] ++ rest ∧ ¬ ['?', '>'] <:+: '?' :: body := by
  have hstop : '>' ∉ ['?'] := by decide
  have hends : ∀ x, endsInstruction (x ++ []) = ['?'].reverse.isPrefixOf x := fun x => by
    rw [List.append_nil]
    rfl
  constructor
  · rintro ⟨content, hscan, hlength⟩
    obtain ⟨body', hcs, rfl, hnot⟩ := (scanTo_stop hstop hends).mp hscan
    cases body' with
    | nil => simp at hlength
    | cons c body =>
      obtain ⟨rfl, rfl⟩ := List.cons.inj hcs
      exact ⟨body, by simp, hnot⟩
  · rintro ⟨body, rfl, hnot⟩
    exact ⟨_, (scanTo_stop hstop hends).mpr ⟨'?' :: body, by simp, rfl, hnot⟩, by simp⟩

/-! ### Lexemes -/

/-- The name of a doctype, in capital letters. -/
def doctypeWord : List Char := ['D', 'O', 'C', 'T', 'Y', 'P', 'E']

/-- Whether a tag with such content is a start tag or an empty tag, by its first character. -/
def Opens (content : List Char) : Prop := ∀ c ∈ content.head?, c ≠ '/' ∧ c ≠ '!' ∧ c ≠ '?'

/-- The ways in which each token may be written. -/
inductive Lexeme : Token → List Char → Prop
  | text {w : List Char} : w ≠ [] → '<' ∉ w → Lexeme .text w
  | start {content : List Char} : TagText content → Opens content → content.getLast? ≠ some '/' →
      Lexeme (.start content) ('<' :: content ++ ['>'])
  | empty {content : List Char} : TagText (content ++ ['/']) → content ≠ [] → Opens content →
      Lexeme (.empty content) ('<' :: content ++ ['/', '>'])
  | close {front blanks : List Char} {last : Char} : TagText (front ++ last :: blanks) → isBlank last = false →
      (∀ c ∈ blanks, isBlank c = true) →
      Lexeme (.close (front ++ [last])) ('<' :: '/' :: front ++ last :: blanks ++ ['>'])
  /-- Blanks at the end of a name do not count, unless there is nothing else. -/
  | closeBlank {blanks : List Char} : (∀ c ∈ blanks, isBlank c = true) →
      Lexeme (.close blanks) ('<' :: '/' :: blanks ++ ['>'])
  | comment {body : List Char} : ¬ ['-', '-', '>'] <:+: body →
      Lexeme .passed (['<', '!', '-', '-'] ++ body ++ ['-', '-', '>'])
  | characterData {body : List Char} : ¬ [']', ']', '>'] <:+: body →
      Lexeme .passed ('<' :: dataWord ++ body ++ [']', ']', '>'])
  /-- The first question mark may not be the last as well. -/
  | instruction {body : List Char} : ¬ ['?', '>'] <:+: '?' :: body →
      Lexeme .passed ('<' :: '?' :: body ++ ['?', '>'])
  | doctype {word body : List Char} : word.map Char.toUpper = doctypeWord →
      BracketText body → (∃ c ∈ body, isBlank c = false) →
      Lexeme .passed ('<' :: '!' :: word ++ body ++ ['>'])

/-! ### Names of end tags -/

theorem trimEnd_cases (cs : List Char) :
    (∃ front last blanks, cs = front ++ last :: blanks ∧ isBlank last = false ∧
      (∀ c ∈ blanks, isBlank c = true) ∧ trimEnd cs = front ++ [last]) ∨
    (∀ c ∈ cs, isBlank c = true) ∧ trimEnd cs = cs := by
  unfold trimEnd
  split
  · rename_i h
    refine Or.inr ⟨fun c hc => ?_, rfl⟩
    exact List.dropWhile_eq_nil_iff.mp h c (List.mem_reverse.mpr hc)
  · rename_i kept hkept
    cases hk : cs.reverse.dropWhile isBlank with
    | nil => exact absurd hk hkept
    | cons last front =>
      refine Or.inl ⟨front.reverse, last, (cs.reverse.takeWhile isBlank).reverse, ?_, ?_, ?_, ?_⟩
      · have := congrArg List.reverse (List.takeWhile_append_dropWhile (p := isBlank) (l := cs.reverse))
        rw [hk] at this
        simpa using this.symm
      · simpa [hk] using List.head?_dropWhile_not isBlank cs.reverse
      · intro c hc
        exact List.mem_takeWhile_imp (List.mem_reverse.mp hc)
      · simp

theorem trimEnd_append {front blanks : List Char} {last : Char} (hlast : isBlank last = false)
    (hblanks : ∀ c ∈ blanks, isBlank c = true) : trimEnd (front ++ last :: blanks) = front ++ [last] := by
  unfold trimEnd
  have : (front ++ last :: blanks).reverse.dropWhile isBlank = last :: front.reverse := by
    rw [List.reverse_append, List.reverse_cons, List.append_assoc,
      List.dropWhile_append_of_pos fun c hc => hblanks c (List.mem_reverse.mp hc)]
    simp [hlast]
  rw [this]
  simp

theorem trimEnd_blanks {blanks : List Char} (hblanks : ∀ c ∈ blanks, isBlank c = true) :
    trimEnd blanks = blanks := by
  unfold trimEnd
  have : blanks.reverse.dropWhile isBlank = [] :=
    List.dropWhile_eq_nil_iff.mpr fun c hc => hblanks c (List.mem_reverse.mp hc)
  rw [this]

/-! ### Declarations and instructions -/

theorem startsWithWord_doctype {content : List Char} :
    startsWithWord "!DOCTYPE".toList ('!' :: content) = true ↔
      ∃ word body, content = word ++ body ∧ word.map Char.toUpper = doctypeWord := by
  have hlit : "!DOCTYPE".toList = '!' :: doctypeWord := by decide
  have hlength : doctypeWord.length = 7 := rfl
  have hmark : '!'.toUpper = '!' := by decide
  rw [startsWithWord, hlit, beq_iff_eq, List.length_cons, hlength, List.take_succ_cons, List.map_cons, hmark]
  constructor
  · intro h
    exact ⟨content.take 7, content.drop 7, (List.take_append_drop 7 content).symm, (List.cons.inj h).2⟩
  · rintro ⟨word, body, rfl, hword⟩
    have : word.length = 7 := by
      rw [← hlength, ← hword, List.length_map]
    rw [← this, List.take_left, hword]

theorem eq_of_toUpper {c : Char} (h : c.toUpper = 'D') : c = 'D' ∨ c = 'd' := by
  unfold Char.toUpper at h
  split at h
  · refine Or.inr (Char.ext (UInt32.toNat_inj.mp ?_))
    have hval := congrArg UInt32.toNat (Char.ext_iff.mp h)
    have hshift : ('A'.val - 'a'.val).toNat = 4294967264 := by decide
    have hupper : 'D'.val.toNat = 68 := by decide
    have hlower : 'd'.val.toNat = 100 := by decide
    have := c.val.toNat_lt
    rw [UInt32.toNat_add, hshift, hupper] at hval
    rw [hlower]
    omega
  · exact Or.inl h

theorem length_of_doctype {word : List Char} (h : word.map Char.toUpper = doctypeWord) : word.length = 7 := by
  rw [← List.length_map Char.toUpper, h]
  rfl

theorem bracketText_doctype {word : List Char} (h : word.map Char.toUpper = doctypeWord) {body : List Char} :
    BracketText ('!' :: word ++ body) ↔ BracketText body := by
  refine BracketText.append_iff fun c hc => ?_
  rcases List.mem_cons.mp hc with rfl | hc
  · decide
  · have hmem : c.toUpper ∈ doctypeWord := h ▸ List.mem_map_of_mem hc
    constructor <;> rintro rfl <;> exact absurd hmem (by decide)

/-- A declaration that was scanned is passed over if it has the right form. -/
theorem scanned_eq_ok {scan : Option (List Char × List Char)} {fits : List Char → Bool} {e : MarkupFault}
    {t : Token} {rest : List Char} :
    (match scan with
      | some (content, rest) => if fits content = true then Except.ok (Token.passed, rest) else .error e
      | none => .error e) = Except.ok (t, rest) ↔
      t = .passed ∧ ∃ content, scan = some (content, rest) ∧ fits content = true := by
  cases scan with
  | none => simp
  | some p =>
    obtain ⟨content, rest'⟩ := p
    by_cases hfits : fits content = true
    · simp only [if_pos hfits, Except.ok.injEq, Prod.mk.injEq, Option.some.injEq]
      constructor
      · rintro ⟨rfl, rfl⟩
        exact ⟨rfl, content, ⟨rfl, rfl⟩, hfits⟩
      · rintro ⟨rfl, -, ⟨-, rfl⟩, -⟩
        exact ⟨rfl, rfl⟩
    · simp [hfits]

theorem declaration_comment {tail rest : List Char} {t : Token} :
    declaration ('!' :: '-' :: tail) = .ok (t, rest) ↔ t = .passed ∧
      ∃ body, '!' :: '-' :: tail = ['!', '-', '-'] ++ (body ++ (['-', '-'] ++ '>' :: rest)) ∧
        ¬ ['-', '-', '>'] <:+: body := by
  rw [← scanTo_comment]
  exact scanned_eq_ok

theorem declaration_characterData {tail rest : List Char} {t : Token} :
    declaration ('!' :: '[' :: tail) = .ok (t, rest) ↔ t = .passed ∧
      ∃ body, '!' :: '[' :: tail = dataWord ++ (body ++ ([']', ']'] ++ '>' :: rest)) ∧
        ¬ [']', ']', '>'] <:+: body := by
  rw [← scanTo_characterData]
  exact scanned_eq_ok

theorem declaration_doctype {c : Char} (hc : c = 'D' ∨ c = 'd') {tail rest : List Char} {t : Token} :
    declaration ('!' :: c :: tail) = .ok (t, rest) ↔ t = .passed ∧
      ∃ word body, c :: tail = word ++ (body ++ '>' :: rest) ∧ word.map Char.toUpper = doctypeWord ∧
        BracketText body ∧ ∃ x ∈ body, isBlank x = false := by
  have hdef : declaration ('!' :: c :: tail) = match scanBalanced 0 ('!' :: c :: tail) with
      | some (content, rest) =>
        if startsWithWord "!DOCTYPE".toList content then
          if (content.drop 8).all isBlank then .error .namelessDoctype else .ok (.passed, rest)
        else .error .openDoctype
      | none => .error .openDoctype := by
    rcases hc with rfl | rfl <;> rfl
  rw [hdef]
  constructor
  · intro h
    split at h
    case h_2 => cases h
    case h_1 content rest' hscan =>
      obtain ⟨htext, hcs⟩ := scanBalanced_eq_some.mp hscan
      split at h
      case isFalse => cases h
      case isTrue hword =>
        split at h
        case isTrue => cases h
        case isFalse hblank =>
          obtain ⟨rfl, rfl⟩ : Token.passed = t ∧ rest' = rest := Prod.mk.inj (Except.ok.inj h)
          cases content with
          | nil =>
            obtain ⟨hmark, -⟩ := List.cons.inj hcs
            exact absurd hmark (by decide)
          | cons mark content =>
            obtain ⟨rfl, htail⟩ := List.cons.inj hcs
            obtain ⟨word, body, rfl, hupper⟩ := startsWithWord_doctype.mp hword
            refine ⟨rfl, word, body, htail.trans (List.append_assoc ..), hupper,
              (bracketText_doctype hupper).mp htext, ?_⟩
            rw [List.drop_succ_cons, ← length_of_doctype hupper, List.drop_left] at hblank
            simpa using hblank
  · rintro ⟨rfl, word, body, hcs, hword, htext, x, hx, hblank⟩
    have hscan : scanBalanced 0 ('!' :: c :: tail) = some ('!' :: word ++ body, rest) := by
      refine scanBalanced_eq_some.mpr ⟨(bracketText_doctype hword).mpr htext, ?_⟩
      rw [hcs]
      simp
    have hstarts : startsWithWord "!DOCTYPE".toList ('!' :: word ++ body) = true :=
      startsWithWord_doctype.mpr ⟨word, body, rfl, hword⟩
    have hnot : ¬(('!' :: word ++ body).drop 8).all isBlank = true := by
      rw [List.cons_append, List.drop_succ_cons, ← length_of_doctype hword, List.drop_left]
      intro hall
      rw [List.all_eq_true.mp hall x hx] at hblank
      cases hblank
    simp only [hscan, if_pos hstarts, if_neg hnot]

theorem declaration_other {cs rest : List Char} {t : Token}
    (hcs : ∀ c ∈ cs.head?, c ≠ '-' ∧ c ≠ '[' ∧ ¬(c = 'D' ∨ c = 'd')) :
    declaration ('!' :: cs) ≠ .ok (t, rest) := by
  cases cs with
  | nil => simp [declaration]
  | cons c cs =>
    obtain ⟨hdash, hbracket, hletter⟩ := hcs c rfl
    unfold declaration
    split
    · simp_all
    · simp_all
    · rename_i heq
      obtain ⟨-, htail⟩ := List.cons.inj heq
      obtain ⟨rfl, -⟩ := List.cons.inj htail
      rw [if_neg hletter]
      simp
    · simp

theorem instruction_eq_ok {cs rest : List Char} {t : Token} :
    instruction ('?' :: cs) = .ok (t, rest) ↔
      t = .passed ∧ ∃ body, cs = body ++ ['?', '>'] ++ rest ∧ ¬ ['?', '>'] <:+: '?' :: body := by
  rw [← scanTo_instruction]
  unfold instruction
  constructor
  · intro h
    split at h
    case h_1 content rest' hscan =>
      split at h
      case isTrue hlength =>
        obtain ⟨rfl, rfl⟩ : Token.passed = t ∧ rest' = rest := Prod.mk.inj (Except.ok.inj h)
        exact ⟨rfl, content, hscan, hlength⟩
      case isFalse => cases h
    case h_2 => cases h
  · rintro ⟨rfl, content, hscan, hlength⟩
    simp only [hscan, if_pos hlength]

/-! ### A token that is read has its form -/

theorem lexeme_close {name : List Char} (h : TagText name) :
    Lexeme (.close (trimEnd name)) ('<' :: '/' :: name ++ ['>']) := by
  obtain ⟨front, last, blanks, rfl, hlast, hblanks, htrim⟩ | ⟨hblanks, htrim⟩ := trimEnd_cases name
  · rw [htrim, ← List.cons_append, ← List.cons_append]
    exact .close h hlast hblanks
  · rw [htrim]
    exact .closeBlank hblanks

theorem lexeme_of_tag {cs rest : List Char} {t : Token} (hcs : ∀ c ∈ cs.head?, c ≠ '!' ∧ c ≠ '?')
    (h : tag cs = .ok (t, rest)) : ∃ w, Lexeme t ('<' :: w) ∧ cs = w ++ rest ∧ t ≠ .text := by
  unfold tag at h
  split at h
  case h_1 => cases h
  case h_2 content rest' hscan =>
    obtain ⟨htext, rfl⟩ := scanTag_eq_some.mp hscan
    split at h
    case h_1 name =>
      obtain ⟨rfl, rfl⟩ : Token.close (trimEnd name) = t ∧ rest' = rest := Prod.mk.inj (Except.ok.inj h)
      have hslash : ¬ IsQuote '/' := by
        rintro (h | h) <;> cases h
      exact ⟨'/' :: name ++ ['>'], lexeme_close (htext.tail hslash), by simp, by simp⟩
    case h_2 hclose =>
      have hopens : Opens content := by
        intro c hc
        refine ⟨fun heq => ?_, ?_⟩
        · obtain ⟨tail, htail⟩ := List.head?_eq_some_iff.mp hc
          exact hclose tail (heq ▸ htail)
        · exact hcs c (by rw [List.head?_append, hc]; rfl)
      split at h
      case h_1 front hfront =>
        obtain ⟨rfl, rfl⟩ : Token.empty front.reverse = t ∧ rest' = rest := Prod.mk.inj (Except.ok.inj h)
        have hcontent : content = front.reverse ++ ['/'] := by
          rw [← List.reverse_cons, ← hfront, List.reverse_reverse]
        have hne : front.reverse ≠ [] := by
          intro hnil
          rw [hnil] at hcontent
          exact hclose [] hcontent
        refine ⟨front.reverse ++ ['/', '>'], .empty (hcontent ▸ htext) hne ?_, by rw [hcontent]; simp, by simp⟩
        intro c hc
        exact hopens c (by rw [hcontent, List.head?_append, hc]; rfl)
      case h_2 hfront =>
        obtain ⟨rfl, rfl⟩ : Token.start content = t ∧ rest' = rest := Prod.mk.inj (Except.ok.inj h)
        refine ⟨content ++ ['>'], .start htext hopens fun hlast => ?_, by simp, by simp⟩
        obtain ⟨front, hfront'⟩ := List.getLast?_eq_some_iff.mp hlast
        exact hfront front.reverse (by rw [hfront']; simp)

theorem lexeme_of_declaration {cs rest : List Char} {t : Token} (h : declaration ('!' :: cs) = .ok (t, rest)) :
    ∃ w, Lexeme t ('<' :: w) ∧ '!' :: cs = w ++ rest ∧ t ≠ .text := by
  by_cases hdash : ∃ tail, cs = '-' :: tail
  · obtain ⟨tail, rfl⟩ := hdash
    obtain ⟨rfl, body, hcs, hnot⟩ := declaration_comment.mp h
    exact ⟨_, .comment hnot, by rw [hcs]; simp, by simp⟩
  by_cases hbracket : ∃ tail, cs = '[' :: tail
  · obtain ⟨tail, rfl⟩ := hbracket
    obtain ⟨rfl, body, hcs, hnot⟩ := declaration_characterData.mp h
    exact ⟨_, .characterData hnot, by rw [hcs]; simp, by simp⟩
  by_cases hletter : ∃ c tail, (c = 'D' ∨ c = 'd') ∧ cs = c :: tail
  · obtain ⟨c, tail, hc, rfl⟩ := hletter
    obtain ⟨rfl, word, body, hcs, hword, htext, hblank⟩ := (declaration_doctype hc).mp h
    exact ⟨_, .doctype hword htext hblank, by rw [hcs]; simp, by simp⟩
  refine absurd h (declaration_other fun c hc => ?_)
  obtain ⟨tail, htail⟩ := List.head?_eq_some_iff.mp hc
  refine ⟨?_, ?_, fun h => hletter ⟨c, tail, h, htail⟩⟩
  · rintro rfl
    exact hdash ⟨tail, htail⟩
  · rintro rfl
    exact hbracket ⟨tail, htail⟩

theorem map_some_eq_ok {x : Except MarkupFault Step} {step : Step} :
    x.map some = .ok (some step) ↔ x = .ok step := by
  cases x <;> simp [Except.map]

theorem lexeme_of_next {cs rest : List Char} {t : Token} (h : next cs = .ok (some (t, rest))) :
    ∃ w, Lexeme t w ∧ cs = w ++ rest ∧ (t = .text → ∀ c ∈ rest.head?, c = '<') := by
  unfold next at h
  split at h
  case h_1 => cases h
  case h_2 cs =>
    split at h
    case h_1 cs =>
      obtain ⟨w, hw, hcs, ht⟩ := lexeme_of_declaration (map_some_eq_ok.mp h)
      exact ⟨_, hw, by rw [hcs]; rfl, fun h => absurd h ht⟩
    case h_2 cs =>
      obtain ⟨rfl, body, rfl, hnot⟩ := instruction_eq_ok.mp (map_some_eq_ok.mp h)
      exact ⟨_, .instruction hnot, by simp, by simp⟩
    case h_3 hbang hmark =>
      have hcs : ∀ c ∈ cs.head?, c ≠ '!' ∧ c ≠ '?' := by
        intro c hc
        obtain ⟨tail, htail⟩ := List.head?_eq_some_iff.mp hc
        constructor <;> rintro rfl
        · exact hbang tail htail
        · exact hmark tail htail
      obtain ⟨w, hw, rfl, ht⟩ := lexeme_of_tag hcs (map_some_eq_ok.mp h)
      exact ⟨_, hw, rfl, fun h => absurd h ht⟩
  case h_3 c cs hc =>
    obtain ⟨rfl, rfl⟩ : Token.text = t ∧ cs.dropWhile (· ≠ '<') = rest :=
      Prod.mk.inj (Option.some.inj (Except.ok.inj h))
    refine ⟨c :: cs.takeWhile (· ≠ '<'), .text (List.cons_ne_nil _ _) ?_, ?_, fun _ c' hc' => ?_⟩
    · intro hmem
      rcases List.mem_cons.mp hmem with rfl | hmem
      · exact hc rfl
      · simpa using List.mem_takeWhile_imp hmem
    · rw [List.cons_append, List.takeWhile_append_dropWhile]
    · have := List.head?_dropWhile_not (· ≠ '<') cs
      rw [Option.mem_def] at hc'
      rw [hc'] at this
      simpa using this

/-! ### A token is read from its form -/

theorem next_tag {cs : List Char} (h : ∀ c ∈ cs.head?, c ≠ '!' ∧ c ≠ '?') :
    next ('<' :: cs) = (tag cs).map some := by
  unfold next
  split
  · rename_i heq
    cases heq
  · rename_i heq
    obtain ⟨-, rfl⟩ := List.cons.inj heq
    split
    · exact absurd rfl (h '!' rfl).1
    · exact absurd rfl (h '?' rfl).2
    · rfl
  · rename_i hc heq
    exact absurd (List.cons.inj heq).1.symm hc

theorem tag_close {name : List Char} (h : TagText name) (rest : List Char) :
    tag ('/' :: name ++ '>' :: rest) = .ok (.close (trimEnd name), rest) := by
  have hslash : TagText ('/' :: name) := by
    refine .plain (by decide) ?_ h
    rintro (h | h) <;> cases h
  unfold tag
  rw [hslash.scanTag_eq]
  rfl

theorem tag_empty {content : List Char} (h : TagText (content ++ ['/'])) (hne : content ≠ [])
    (hopens : Opens content) (rest : List Char) : tag (content ++ ['/'] ++ '>' :: rest) = .ok (.empty content, rest) := by
  unfold tag
  rw [h.scanTag_eq]
  obtain ⟨c, content, rfl⟩ := List.exists_cons_of_ne_nil hne
  dsimp only
  split
  · rename_i heq
    exact absurd (List.cons.inj heq).1 (hopens c rfl).1
  · simp

theorem tag_start {content : List Char} (h : TagText content) (hopens : Opens content)
    (hlast : content.getLast? ≠ some '/') (rest : List Char) :
    tag (content ++ '>' :: rest) = .ok (.start content, rest) := by
  unfold tag
  rw [h.scanTag_eq]
  dsimp only
  split
  · exact absurd rfl (hopens '/' rfl).1
  · split
    · rename_i front hfront
      refine absurd ?_ hlast
      rw [← List.reverse_reverse content, hfront]
      simp
    · rfl

theorem next_text {w rest : List Char} (hne : w ≠ []) (hw : '<' ∉ w) :
    next (w ++ rest) = .ok (some (.text, rest.dropWhile (· ≠ '<'))) := by
  obtain ⟨c, w, rfl⟩ := List.exists_cons_of_ne_nil hne
  have hc : c ≠ '<' := fun heq => hw (heq ▸ List.mem_cons_self)
  have hw' : ∀ x ∈ w, decide (x ≠ '<') = true := by
    intro x hx
    refine decide_eq_true ?_
    rintro rfl
    exact hw (List.mem_cons_of_mem _ hx)
  rw [List.cons_append]
  unfold next
  split
  · rename_i heq
    cases heq
  · rename_i heq
    exact absurd (List.cons.inj heq).1 hc
  · rename_i heq
    obtain ⟨-, rfl⟩ := List.cons.inj heq
    rw [List.dropWhile_append_of_pos hw']

theorem Lexeme.next_eq {t : Token} {w : List Char} (h : Lexeme t w) {rest : List Char}
    (hrest : t = .text → ∀ c ∈ rest.head?, c = '<') : next (w ++ rest) = .ok (some (t, rest)) := by
  cases h with
  | text hne hw =>
    have hdrop : rest.dropWhile (· ≠ '<') = rest := by
      cases rest with
      | nil => rfl
      | cons x rest =>
        rw [List.dropWhile_cons_of_neg]
        simp [hrest rfl x rfl]
    rw [next_text hne hw, hdrop]
  | @start content htext hopens hlast =>
    rw [List.append_assoc, List.cons_append, List.singleton_append, next_tag, tag_start htext hopens hlast]
    · rfl
    · cases content with
      | nil => simp
      | cons c content => exact fun _ hc => (hopens _ hc).2
  | @empty content htext hne hopens =>
    have happend : content ++ ['/', '>'] ++ rest = content ++ ['/'] ++ '>' :: rest := by simp
    rw [List.cons_append, List.cons_append, happend, next_tag, tag_empty htext hne hopens]
    · rfl
    · obtain ⟨c, content, rfl⟩ := List.exists_cons_of_ne_nil hne
      exact fun _ hc => (hopens _ hc).2
  | @close front blanks last htext hlast hblanks =>
    have happend : '/' :: front ++ last :: blanks ++ ['>'] ++ rest =
        '/' :: (front ++ last :: blanks) ++ '>' :: rest := by simp
    rw [List.cons_append, List.cons_append, List.cons_append, happend, next_tag, tag_close htext,
      trimEnd_append hlast hblanks]
    · rfl
    · simp
  | @closeBlank blanks hblanks =>
    have htext := TagText.of_blanks hblanks
    have happend : '/' :: blanks ++ ['>'] ++ rest = '/' :: blanks ++ '>' :: rest := by simp
    rw [List.cons_append, List.cons_append, happend, next_tag, tag_close htext, trimEnd_blanks hblanks]
    · rfl
    · simp
  | @comment body hnot =>
    have hdecl : declaration (['!', '-', '-'] ++ (body ++ (['-', '-'] ++ '>' :: rest))) = .ok (.passed, rest) :=
      declaration_comment.mpr ⟨rfl, body, rfl, hnot⟩
    simp only [List.append_assoc, List.cons_append, List.nil_append] at hdecl ⊢
    exact map_some_eq_ok.mpr hdecl
  | @characterData body hnot =>
    have hdecl : declaration (dataWord ++ (body ++ ([']', ']'] ++ '>' :: rest))) = .ok (.passed, rest) :=
      declaration_characterData.mpr ⟨rfl, body, rfl, hnot⟩
    simp only [List.append_assoc, List.cons_append, List.nil_append] at hdecl ⊢
    exact map_some_eq_ok.mpr hdecl
  | @instruction body hnot =>
    have hinstr : Markup.instruction ('?' :: (body ++ ['?', '>'] ++ rest)) = .ok (.passed, rest) :=
      instruction_eq_ok.mpr ⟨rfl, body, rfl, hnot⟩
    exact map_some_eq_ok.mpr hinstr
  | @doctype word body hword htext hblank =>
    obtain ⟨c, word, rfl⟩ : ∃ c tail, word = c :: tail := by
      refine List.exists_cons_of_ne_nil fun hnil => ?_
      rw [hnil] at hword
      cases hword
    have hc : c = 'D' ∨ c = 'd' := eq_of_toUpper (List.cons.inj hword).1
    have hdecl : declaration ('!' :: c :: (word ++ (body ++ '>' :: rest))) = .ok (.passed, rest) :=
      (declaration_doctype hc).mpr ⟨rfl, c :: word, body, rfl, hword, htext, hblank⟩
    simp only [List.append_assoc, List.cons_append, List.nil_append]
    exact map_some_eq_ok.mpr hdecl

end SkitPage.Markup
