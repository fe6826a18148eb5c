import SkitPage.Proofs.AttributeForms

/-!
# What a document is, and its split

A document has a root element: nothing but text and what is passed over before its start tag, a balanced
text between its tags, and anything at all after its end tag. The split accepts just these documents, and
gives the attributes of the start tag and the text between the tags (`Markup.split_exact`). So tags are
counted in step with the positions at which the content is cut out.

The search for the end tag keeps the names of the open elements. A balanced text leaves them as they were
(`Markup.Balanced.closeOf_append`), whatever they are; in the other direction the text that closes them is
cut at their end tags, one after the other (`Markup.Closes`), and an element that is opened is a balanced
text in front of what closes the others (`Markup.Closes.element`).

Positions are counted in bytes. They are the lengths of two beginnings of the text, so no cut falls inside
a character (`Text.cut?_eq_some`).

Key definitions: `Markup.Prolog`, `Markup.Balanced`, `Markup.Closes`, `Markup.Document`, `Markup.locate`.
Key theorems: `Text.cut?_eq_some`, `Markup.findRoot_eq_ok`, `Markup.closeOf_eq_ok`, `Markup.split_eq`,
`Markup.exists_document`, `Markup.split_exact`.
-/

namespace SkitPage

namespace Text

/-! ### Positions in bytes -/

theorem byteLength_append : ∀ a b : List Char, byteLength (a ++ b) = byteLength a + byteLength b
  | [], b => by simp [byteLength]
  | c :: a, b => by
    rw [List.cons_append, byteLength, byteLength, byteLength_append a b]
    omega

theorem byteLength_eq_zero {cs : List Char} : byteLength cs = 0 ↔ cs = [] := by
  cases cs with
  | nil => simp [byteLength]
  | cons c cs =>
    have := c.utf8Size_pos
    simp only [byteLength, reduceCtorEq, iff_false]
    omega

/-- A beginning of `n + 1` bytes takes the first character whole, and the other bytes from those after it. -/
theorem cons_eq_append_iff {c : Char} {cs pre rest : List Char} {n : Nat} :
    c :: cs = pre ++ rest ∧ byteLength pre = n + 1 ↔
      c.utf8Size ≤ n + 1 ∧
        ∃ tail, pre = c :: tail ∧ cs = tail ++ rest ∧ byteLength tail = n + 1 - c.utf8Size := by
  constructor
  · rintro ⟨hcs, hpre⟩
    cases pre with
    | nil => cases hpre
    | cons c' tail =>
      obtain ⟨rfl, rfl⟩ := List.cons.inj hcs
      rw [byteLength] at hpre
      exact ⟨by omega, tail, rfl, rfl, by omega⟩
  · rintro ⟨hc, tail, rfl, rfl, htail⟩
    refine ⟨rfl, ?_⟩
    rw [byteLength, htail]
    omega

theorem dropBytes?_eq_some {n : Nat} {cs rest : List Char} :
    dropBytes? n cs = some rest ↔ ∃ pre, cs = pre ++ rest ∧ byteLength pre = n := by
  fun_induction dropBytes? n cs with
  | case1 cs => simp [byteLength_eq_zero]
  | case2 n =>
    simp only [reduceCtorEq, false_iff, not_exists, not_and]
    rintro pre hpre hn
    rw [(List.append_eq_nil_iff.mp hpre.symm).1] at hn
    cases hn
  | case3 n c cs hc ih =>
    simp only [cons_eq_append_iff, ih, hc, true_and]
    grind
  | case4 n c cs hc => simp [cons_eq_append_iff, hc]

theorem takeBytes?_eq_some {n : Nat} {cs pre : List Char} :
    takeBytes? n cs = some pre ↔ ∃ rest, cs = pre ++ rest ∧ byteLength pre = n := by
  fun_induction takeBytes? n cs generalizing pre with
  | case1 cs =>
    simp only [Option.some.injEq, byteLength_eq_zero]
    constructor
    · rintro rfl
      exact ⟨cs, rfl, rfl⟩
    · rintro ⟨_, -, rfl⟩
      rfl
  | case2 n =>
    simp only [reduceCtorEq, false_iff, not_exists, not_and]
    rintro rest hpre hn
    rw [(List.append_eq_nil_iff.mp hpre.symm).1] at hn
    cases hn
  | case3 n c cs hc ih =>
    simp only [cons_eq_append_iff, Option.map_eq_some_iff, ih, hc, true_and]
    grind
  | case4 n c cs hc => simp [cons_eq_append_iff, hc]

/-- A cut exists where both positions are the ends of some characters. -/
theorem cut?_eq_some {cs mid : List Char} {start stop : Nat} :
    cut? cs start stop = some mid ↔
      ∃ pre rest, cs = pre ++ mid ++ rest ∧ byteLength pre = start ∧ start + byteLength mid = stop := by
  unfold cut?
  constructor
  · intro h
    split at h
    case isTrue hle =>
      obtain ⟨after, hdrop, htake⟩ := Option.bind_eq_some_iff.mp h
      obtain ⟨pre, rfl, hpre⟩ := dropBytes?_eq_some.mp hdrop
      obtain ⟨rest, rfl, hmid⟩ := takeBytes?_eq_some.mp htake
      exact ⟨pre, rest, by simp, hpre, by omega⟩
    case isFalse => cases h
  · rintro ⟨pre, rest, rfl, hpre, rfl⟩
    rw [if_pos (Nat.le_add_right _ _), List.append_assoc, dropBytes?_eq_some.mpr ⟨pre, rfl, hpre⟩,
      Option.bind_some, Nat.add_sub_cancel_left]
    exact takeBytes?_eq_some.mpr ⟨rest, rfl, rfl⟩

end Text

namespace Markup

/-! ### The parts of a document -/

/-- Whether a token may stand before the root. -/
def Token.IsAside (t : Token) : Prop := t = .text ∨ t = .passed

/-- What may stand before the root: no tags. -/
inductive Prolog : List Char → Prop
  | nil : Prolog []
  | cons {t : Token} {w cs : List Char} : t.IsAside → Lexeme t w → Prolog cs → Prolog (w ++ cs)

/-- What may stand in an element: each start tag has its end tag, of the same name, and they are nested. -/
inductive Balanced : List Char → Prop
  | nil : Balanced []
  | aside {t : Token} {w cs : List Char} : t.IsAside → Lexeme t w → Balanced cs → Balanced (w ++ cs)
  | empty {content w cs : List Char} : Lexeme (.empty content) w → Balanced cs → Balanced (w ++ cs)
  | element {content start inner close cs : List Char} : Lexeme (.start content) start → Balanced inner →
      Lexeme (.close (nameOf content)) close → Balanced cs → Balanced (start ++ inner ++ close ++ cs)

theorem Balanced.append {a b : List Char} (ha : Balanced a) (hb : Balanced b) : Balanced (a ++ b) := by
  induction ha with
  | nil => exact hb
  | aside ht hw _ ih =>
    rw [List.append_assoc]
    exact .aside ht hw ih
  | empty hw _ ih =>
    rw [List.append_assoc]
    exact .empty hw ih
  | element hs hi hc _ _ ih =>
    rw [List.append_assoc]
    exact .element hs hi hc ih

/-! ### Reading up to the root and to its end tag -/

theorem findRoot_of_next {cs rest : List Char} {t : Token} (h : next cs = .ok (some (t, rest))) :
    findRoot cs = match t with
      | .start content => .ok (.opened content rest)
      | .empty content => .ok (.selfClosing content)
      | .close name => .error (.markup (.closeWithoutOpen (String.ofList name)))
      | .text | .passed => findRoot rest := by
  rw [findRoot]
  split <;> rename_i h' <;> cases h'.symm.trans h
  cases t <;> rfl

theorem closeOf_of_next {opened : List (List Char)} {cs rest : List Char} {t : Token}
    (h : next cs = .ok (some (t, rest))) :
    closeOf opened cs = match t with
      | .start content => closeOf (nameOf content :: opened) rest
      | .close name => match opened with
        | [] => .error (.markup (.closeWithoutOpen (String.ofList name)))
        | expected :: outer =>
          if name ≠ expected then
            .error (.markup (.closeMismatch (String.ofList expected) (String.ofList name)))
          else if outer.isEmpty then .ok cs
          else closeOf outer rest
      | _ => closeOf opened rest := by
  rw [closeOf]
  split <;> rename_i h' <;> cases h'.symm.trans h
  cases t <;> rfl

/-- What reads on after each text does not see how the text is cut into pieces. -/
theorem eq_of_text {β : Type} {f : List Char → β}
    (hf : ∀ cs rest, next cs = .ok (some (.text, rest)) → f cs = f rest) {w : List Char} (hw : Lexeme .text w)
    (cs : List Char) : f (w ++ cs) = f cs := by
  cases hw with
  | text hne hw =>
    have hdrop : f (cs.dropWhile (· ≠ '<')) = f cs := by
      cases cs with
      | nil => rfl
      | cons c cs =>
        by_cases hc : c = '<'
        · rw [List.dropWhile_cons_of_neg (by simp [hc])]
        · rw [List.dropWhile_cons_of_pos (by simp [hc])]
          exact (hf (c :: cs) _ (next_text (w := [c]) (by simp) (by simpa using Ne.symm hc))).symm
    rw [hf _ _ (next_text hne hw), hdrop]

theorem findRoot_aside {t : Token} {w : List Char} (ht : t.IsAside) (hw : Lexeme t w) (cs : List Char) :
    findRoot (w ++ cs) = findRoot cs := by
  obtain rfl | rfl := ht
  · exact eq_of_text (fun _ _ h => findRoot_of_next h) hw cs
  · exact findRoot_of_next (hw.next_eq (by simp))

theorem closeOf_aside {t : Token} {w : List Char} (ht : t.IsAside) (hw : Lexeme t w)
    (opened : List (List Char)) (cs : List Char) : closeOf opened (w ++ cs) = closeOf opened cs := by
  obtain rfl | rfl := ht
  · exact eq_of_text (fun _ _ h => closeOf_of_next h) hw cs
  · exact closeOf_of_next (hw.next_eq (by simp))

theorem Prolog.findRoot_append {prolog : List Char} (h : Prolog prolog) (cs : List Char) :
    findRoot (prolog ++ cs) = findRoot cs := by
  induction h with
  | nil => rfl
  | cons ht hw _ ih => rw [List.append_assoc, findRoot_aside ht hw, ih]

/-- Reading a balanced text inside an element leaves the open elements as they were. -/
theorem Balanced.closeOf_append {inner : List Char} (h : Balanced inner) {opened : List (List Char)}
    (hopened : opened ≠ []) (cs : List Char) : closeOf opened (inner ++ cs) = closeOf opened cs := by
  induction h generalizing opened cs with
  | nil => rfl
  | aside ht hw _ ih => rw [List.append_assoc, closeOf_aside ht hw, ih hopened]
  | empty hw _ ih =>
    rw [List.append_assoc, closeOf_of_next (hw.next_eq (by simp))]
    exact ih hopened cs
  | @element content start inner close after hstart _ hclose _ ihinner ihafter =>
    have hempty : opened.isEmpty = false := by simpa using hopened
    simp only [List.append_assoc]
    rw [closeOf_of_next (hstart.next_eq (by simp))]
    dsimp only
    rw [ihinner (by simp), closeOf_of_next (hclose.next_eq (by simp))]
    simp only [ne_eq, not_true_eq_false, if_false, hempty]
    exact ihafter hopened cs

/-- The input after a prolog that begins with the tag of the root. -/
inductive RootText : Root → List Char → Prop
  | opened {tag start rest : List Char} :
      Lexeme (.start tag) start → RootText (.opened tag rest) (start ++ rest)
  | selfClosing {tag w rest : List Char} :
      Lexeme (.empty tag) w → RootText (.selfClosing tag) (w ++ rest)

theorem RootText.findRoot_eq {root : Root} {cs : List Char} (h : RootText root cs) :
    findRoot cs = .ok root := by
  cases h with
  | opened hw | selfClosing hw => exact findRoot_of_next (hw.next_eq (by simp))

theorem rootText_of_findRoot {cs : List Char} {root : Root} (h : findRoot cs = .ok root) :
    ∃ prolog after, cs = prolog ++ after ∧ Prolog prolog ∧ RootText root after := by
  fun_induction findRoot cs with
  | case1 | case2 | case5 => cases h
  | case3 cs rest _ content hnext =>
    obtain ⟨w, hw, rfl, -⟩ := lexeme_of_next hnext
    cases h
    exact ⟨[], _, rfl, .nil, .opened hw⟩
  | case4 cs rest _ content hnext =>
    obtain ⟨w, hw, rfl, -⟩ := lexeme_of_next hnext
    cases h
    exact ⟨[], _, rfl, .nil, .selfClosing hw⟩
  | case6 cs rest hnext _ _ ih =>
    obtain ⟨w, hw, rfl, -⟩ := lexeme_of_next hnext
    obtain ⟨prolog, after, rfl, hprolog, hroot⟩ := ih h
    exact ⟨w ++ prolog, after, by simp, .cons (.inl rfl) hw hprolog, hroot⟩
  | case7 cs rest hnext _ _ ih =>
    obtain ⟨w, hw, rfl, -⟩ := lexeme_of_next hnext
    obtain ⟨prolog, after, rfl, hprolog, hroot⟩ := ih h
    exact ⟨w ++ prolog, after, by simp, .cons (.inr rfl) hw hprolog, hroot⟩

theorem findRoot_eq_ok {cs : List Char} {root : Root} :
    findRoot cs = .ok root ↔ ∃ prolog after, cs = prolog ++ after ∧ Prolog prolog ∧ RootText root after := by
  refine ⟨rootText_of_findRoot, ?_⟩
  rintro ⟨prolog, after, rfl, hprolog, hroot⟩
  rw [hprolog.findRoot_append, hroot.findRoot_eq]

/-- The input closes the open elements one after the other, and `close` begins with the last of their end
tags. -/
inductive Closes (close : List Char) : List (List Char) → List Char → Prop
  | last {name inner e rest : List Char} : Balanced inner → Lexeme (.close name) e → close = e ++ rest →
      Closes close [name] (inner ++ close)
  | next {name inner e cs : List Char} {outer : List (List Char)} : Balanced inner → Lexeme (.close name) e →
      Closes close outer cs → Closes close (name :: outer) (inner ++ e ++ cs)

theorem Closes.prepend {close front cs : List Char} {opened : List (List Char)} (hfront : Balanced front)
    (h : Closes close opened cs) : Closes close opened (front ++ cs) := by
  cases h with
  | last hinner he hclose =>
    rw [← List.append_assoc]
    exact .last (hfront.append hinner) he hclose
  | next hinner he hcs =>
    simp only [← List.append_assoc]
    exact .next (hfront.append hinner) he hcs

/-- The element that was opened last is closed inside those that were open before. -/
theorem Closes.element {close content start cs : List Char} {opened : List (List Char)}
    (hopened : opened ≠ []) (hstart : Lexeme (.start content) start) (h : Closes close (nameOf content :: opened) cs) :
    Closes close opened (start ++ cs) := by
  cases h with
  | last => exact absurd rfl hopened
  | @next _ inner e cs _ hinner he hcs =>
    have helement : Balanced (start ++ inner ++ e ++ []) := .element hstart hinner he .nil
    have := hcs.prepend helement
    simpa using this

theorem closes_of_closeOf {opened : List (List Char)} {cs close : List Char} (hopened : opened ≠ [])
    (h : closeOf opened cs = .ok close) : Closes close opened cs := by
  fun_induction closeOf opened cs with
  | case1 | case2 | case4 | case5 => cases h
  | case3 opened cs rest content hnext _ _ ih =>
    obtain ⟨w, hw, rfl, -⟩ := lexeme_of_next hnext
    exact (ih (by simp) h).element hopened hw
  | case6 cs rest name hnext expected outer hname houter =>
    obtain ⟨w, hw, rfl, -⟩ := lexeme_of_next hnext
    obtain rfl : name = expected := not_not.mp hname
    obtain rfl := List.isEmpty_iff.mp houter
    cases h
    exact .last .nil hw rfl
  | case7 cs rest name hnext expected outer hname houter _ _ ih =>
    obtain ⟨w, hw, rfl, -⟩ := lexeme_of_next hnext
    obtain rfl : name = expected := not_not.mp hname
    exact .next .nil hw (ih (by simpa using houter) h)
  | case8 opened cs token rest hnext _ _ hstart hclose ih =>
    obtain ⟨w, hw, rfl, -⟩ := lexeme_of_next hnext
    have hbalanced : Balanced (w ++ []) := by
      cases token with
      | text => exact .aside (.inl rfl) hw .nil
      | passed => exact .aside (.inr rfl) hw .nil
      | empty content => exact .empty hw .nil
      | start content => exact absurd HEq.rfl (hstart content hnext rfl)
      | close name => exact absurd HEq.rfl (hclose name hnext rfl)
    have := (ih hopened h).prepend hbalanced
    simpa using this

/-- The end tag of an element that is open alone is found where the text before it is balanced. -/
theorem closeOf_eq_ok {name cs close : List Char} :
    closeOf [name] cs = .ok close ↔
      ∃ inner e rest, cs = inner ++ close ∧ Balanced inner ∧ Lexeme (.close name) e ∧ close = e ++ rest := by
  constructor
  · intro h
    cases closes_of_closeOf (by simp) h with
    | last hinner he hclose => exact ⟨_, _, _, rfl, hinner, he, hclose⟩
    | next _ _ hcs => cases hcs
  · rintro ⟨inner, e, rest, rfl, hinner, he, rfl⟩
    rw [hinner.closeOf_append (by simp), closeOf_of_next (he.next_eq (by simp))]
    simp

/-- A text is balanced if an element without a name could hold it. -/
theorem balanced_iff_closeOf {cs : List Char} :
    Balanced cs ↔ closeOf [[]] (cs ++ ['<', '/', '>']) = .ok ['<', '/', '>'] := by
  have hclose : Lexeme (.close []) ['<', '/', '>'] := .closeBlank nofun
  rw [closeOf_eq_ok]
  constructor
  · intro h
    exact ⟨cs, ['<', '/', '>'], [], rfl, h, hclose, rfl⟩
  · rintro ⟨inner, _, _, hcs, hinner, -⟩
    exact List.append_cancel_right hcs ▸ hinner

instance : DecidablePred Balanced := fun _ => decidable_of_iff _ balanced_iff_closeOf.symm

/-! ### Documents -/

/-- A document whose root has a start and an end tag. -/
structure Document where
  prolog : List Char
  /-- What stands between the brackets of the root's start tag. -/
  tag : List Char
  start : List Char
  content : List Char
  close : List Char
  rest : List Char
  attributes : OrderedMap String String
  prolog_ok : Prolog prolog
  start_ok : Lexeme (.start tag) start
  attributes_ok : HasAttributes tag attributes
  content_ok : Balanced content
  close_ok : Lexeme (.close (nameOf tag)) close

namespace Document

/-- What stands before the content. -/
def front (d : Document) : List Char := d.prolog ++ d.start

/-- What stands after the content. -/
def back (d : Document) : List Char := d.close ++ d.rest

/-- The whole document. -/
def text (d : Document) : List Char := d.front ++ d.content ++ d.back

/-- The graphic that is in the document. -/
def graphic (d : Document) : Graphic := { attributes := d.attributes, content := String.ofList d.content }

end Document

/-- Where the content of a graphic stands: nowhere, or between two positions. -/
abbrev Span := Option (Nat × Nat)

/-- The attributes of the root and where its content stands. -/
def locate (input : List Char) : Except SplitFault (OrderedMap String String × Span) := do
  match ← findRoot input with
  | .selfClosing content => return (← (attributes content).mapError .ofTag, none)
  | .opened content rest =>
    let found ← (attributes content).mapError SplitFault.ofTag
    let close ← closeOf [nameOf content] rest
    let position (left : List Char) : Nat := Text.byteLength input - Text.byteLength left
    return (found, some (position rest, position close))

/-- The graphic with the content that is cut out of a text. -/
def cutOut (whole : List Char) : OrderedMap String String × Span → Except SplitFault Graphic
  | (found, none) => .ok { attributes := found, content := "" }
  | (found, some (start, stop)) => match Text.cut? whole start stop with
    | some inner => .ok { attributes := found, content := String.ofList inner }
    | none => .error .insideCharacter

theorem split_eq (text : String) : split text = locate (withoutMark text.toList) >>= cutOut text.toList := by
  unfold split locate
  dsimp only
  cases findRoot (withoutMark text.toList) with
  | error fault => rfl
  | ok root =>
    dsimp only [bind, Except.bind]
    cases root with
    | selfClosing content =>
      dsimp only
      cases attributes content <;> rfl
    | opened content rest =>
      dsimp only
      cases attributes content with
      | error fault => rfl
      | ok found => cases closeOf [nameOf content] rest <;> rfl

theorem findRoot_eq_opened {cs tag rest : List Char} :
    findRoot cs = .ok (.opened tag rest) ↔
      ∃ prolog start, cs = prolog ++ (start ++ rest) ∧ Prolog prolog ∧ Lexeme (.start tag) start := by
  rw [findRoot_eq_ok]
  constructor
  · rintro ⟨prolog, after, rfl, hprolog, hroot⟩
    cases hroot with
    | opened hstart => exact ⟨prolog, _, rfl, hprolog, hstart⟩
  · rintro ⟨prolog, start, rfl, hprolog, hstart⟩
    exact ⟨prolog, _, rfl, hprolog, .opened hstart⟩

theorem except_bind_eq_ok {ε α β : Type} {x : Except ε α} {f : α → Except ε β} {b : β} :
    (x >>= f) = .ok b ↔ ∃ a, x = .ok a ∧ f a = .ok b := by
  cases x <;> simp [bind, Except.bind]

theorem except_bind_eq_error {ε α β : Type} {x : Except ε α} {f : α → Except ε β} {e : ε} :
    (x >>= f) = .error e ↔ x = .error e ∨ ∃ a, x = .ok a ∧ f a = .error e := by
  cases x <;> simp [bind, Except.bind]

theorem locate_selfClosing {input tag : List Char} (h : findRoot input = .ok (.selfClosing tag)) :
    locate input = (attributes tag).mapError SplitFault.ofTag >>= fun found => .ok (found, none) := by
  rw [locate, h]
  rfl

theorem locate_opened {input tag rest : List Char} (h : findRoot input = .ok (.opened tag rest)) :
    locate input = (attributes tag).mapError SplitFault.ofTag >>= fun found =>
      closeOf [nameOf tag] rest >>= fun close =>
        .ok (found, some (Text.byteLength input - Text.byteLength rest,
          Text.byteLength input - Text.byteLength close)) := by
  rw [locate, h]
  rfl

theorem Document.findRoot_text (d : Document) : findRoot d.text = .ok (.opened d.tag (d.content ++ d.back)) :=
  findRoot_eq_opened.mpr ⟨d.prolog, d.start, by simp [text, front], d.prolog_ok, d.start_ok⟩

theorem Document.locate_text (d : Document) :
    locate d.text = .ok (d.attributes,
      some (Text.byteLength d.front, Text.byteLength d.front + Text.byteLength d.content)) := by
  have hclose : closeOf [nameOf d.tag] (d.content ++ d.back) = .ok d.back :=
    closeOf_eq_ok.mpr ⟨d.content, d.close, d.rest, rfl, d.content_ok, d.close_ok, rfl⟩
  have hstart : Text.byteLength d.text - Text.byteLength (d.content ++ d.back) = Text.byteLength d.front := by
    simp only [text, Text.byteLength_append]
    omega
  have hstop : Text.byteLength d.text - Text.byteLength d.back =
      Text.byteLength d.front + Text.byteLength d.content := by
    simp only [text, Text.byteLength_append]
    omega
  rw [locate_opened d.findRoot_text, attributes_eq_ok.mpr d.attributes_ok, hclose, ← hstop, hstart]
  rfl

/-- A span is found in documents only. -/
theorem exists_document {input tag rest : List Char} {x : OrderedMap String String × Span}
    (hroot : findRoot input = .ok (.opened tag rest)) (h : locate input = .ok x) :
    ∃ d : Document, d.text = input := by
  rw [locate_opened hroot] at h
  cases hfound : attributes tag with
  | error fault =>
    rw [hfound] at h
    cases h
  | ok found =>
    rw [hfound] at h
    obtain ⟨_, -, h⟩ := except_bind_eq_ok.mp h
    obtain ⟨close, hclose, -⟩ := except_bind_eq_ok.mp h
    obtain ⟨prolog, start, rfl, hprolog, hstart⟩ := findRoot_eq_opened.mp hroot
    obtain ⟨inner, e, after, rfl, hinner, he, rfl⟩ := closeOf_eq_ok.mp hclose
    let d : Document :=
      { prolog, tag, start, content := inner, close := e, rest := after, attributes := found
        prolog_ok := hprolog, start_ok := hstart, attributes_ok := attributes_eq_ok.mp hfound
        content_ok := hinner, close_ok := he }
    exact ⟨d, by simp [d, Document.text, Document.front, Document.back]⟩

theorem opened_of_span {input : List Char} {found : OrderedMap String String} {span : Nat × Nat}
    (h : locate input = .ok (found, some span)) : ∃ tag rest, findRoot input = .ok (.opened tag rest) := by
  cases hroot : findRoot input with
  | error fault =>
    rw [locate, hroot] at h
    cases h
  | ok root =>
    cases root with
    | selfClosing tag =>
      rw [locate_selfClosing hroot] at h
      obtain ⟨_, -, h⟩ := except_bind_eq_ok.mp h
      cases h
    | opened tag rest => exact ⟨tag, rest, rfl⟩

/-- Where there is no document nothing is cut, whatever the text is. -/
theorem cutOut_of_no_document {input : List Char} (h : ∀ d : Document, d.text ≠ input) (whole : List Char) :
    (locate input >>= cutOut whole) = (locate input).map fun x => { attributes := x.1, content := "" } := by
  cases hx : locate input with
  | error fault => rfl
  | ok x =>
    obtain ⟨found, _ | span⟩ := x
    · rfl
    · obtain ⟨tag, rest, hroot⟩ := opened_of_span hx
      obtain ⟨d, hd⟩ := exists_document hroot hx
      exact absurd hd (h d)

theorem findRoot_ne_insideCharacter (cs : List Char) : findRoot cs ≠ .error .insideCharacter := by
  fun_induction findRoot cs with
  | case6 _ _ _ _ _ ih | case7 _ _ _ _ _ ih => exact ih
  | _ => simp

theorem closeOf_ne_insideCharacter (opened : List (List Char)) (cs : List Char) :
    closeOf opened cs ≠ .error .insideCharacter := by
  fun_induction closeOf opened cs with
  | case3 _ _ _ _ _ _ _ ih => exact ih
  | case7 _ _ _ _ _ _ _ _ _ _ ih => exact ih
  | case8 _ _ _ _ _ _ _ _ _ ih => exact ih
  | _ => simp

theorem mapError_ofTag_ne_insideCharacter (x : Except TagFault (OrderedMap String String)) :
    x.mapError SplitFault.ofTag ≠ .error .insideCharacter := by
  rcases x with (_ | _) | _ <;> simp [Except.mapError, SplitFault.ofTag]

theorem locate_ne_insideCharacter (input : List Char) : locate input ≠ .error .insideCharacter := by
  intro h
  cases hroot : findRoot input with
  | error fault =>
    rw [locate, hroot] at h
    have hfault : fault = .insideCharacter := Except.error.inj h
    exact findRoot_ne_insideCharacter input (hfault ▸ hroot)
  | ok root =>
    cases root with
    | selfClosing tag =>
      rw [locate_selfClosing hroot, except_bind_eq_error] at h
      obtain h | ⟨_, -, h⟩ := h
      · exact mapError_ofTag_ne_insideCharacter _ h
      · cases h
    | opened tag rest =>
      rw [locate_opened hroot, except_bind_eq_error] at h
      obtain h | ⟨_, -, h⟩ := h
      · exact mapError_ofTag_ne_insideCharacter _ h
      · obtain h | ⟨_, -, h⟩ := except_bind_eq_error.mp h
        · exact closeOf_ne_insideCharacter _ _ h
        · cases h

/-! ### The graphic in a document -/

theorem withoutMark_eq {cs : List Char} (h : cs.head? ≠ some byteOrderMark) : withoutMark cs = cs := by
  cases cs with
  | nil => rfl
  | cons c cs => exact if_neg fun heq => h (congrArg some heq)

theorem split_of_document {text : String} (d : Document) (h : withoutMark text.toList = d.text) :
    split text = cutOut text.toList (d.attributes,
      some (Text.byteLength d.front, Text.byteLength d.front + Text.byteLength d.content)) := by
  rw [split_eq, h, d.locate_text]
  rfl

theorem Document.split_text {text : String} (d : Document) (hmark : text.toList.head? ≠ some byteOrderMark)
    (h : d.text = text.toList) : split text = .ok d.graphic := by
  have hcut : Text.cut? text.toList (Text.byteLength d.front)
      (Text.byteLength d.front + Text.byteLength d.content) = some d.content :=
    Text.cut?_eq_some.mpr ⟨d.front, d.back, h.symm, rfl, rfl⟩
  rw [split_of_document d (by rw [withoutMark_eq hmark, h]), cutOut, hcut]
  rfl

theorem split_selfClosing {text : String} {prolog tag w rest : List Char} {found : OrderedMap String String}
    (hmark : text.toList.head? ≠ some byteOrderMark) (h : text.toList = prolog ++ (w ++ rest))
    (hprolog : Prolog prolog) (hw : Lexeme (.empty tag) w) (hfound : HasAttributes tag found) :
    split text = .ok { attributes := found, content := "" } := by
  have hroot : findRoot text.toList = .ok (.selfClosing tag) :=
    findRoot_eq_ok.mpr ⟨prolog, w ++ rest, h, hprolog, .selfClosing hw⟩
  rw [split_eq, withoutMark_eq hmark, locate_selfClosing hroot, attributes_eq_ok.mpr hfound]
  rfl

/-- **The split is exact.** A text without a mark is split at a root with two tags just where it is a
document, and the graphic is the one in the document. No cut falls inside a character. -/
theorem split_exact (text : String) (hmark : text.toList.head? ≠ some byteOrderMark) :
    (∀ g, (split text = .ok g ∧ ∃ tag rest, findRoot text.toList = .ok (.opened tag rest)) ↔
      ∃ d : Document, d.text = text.toList ∧ d.graphic = g) ∧ split text ≠ .error .insideCharacter := by
  have hsplit := split_eq text
  rw [withoutMark_eq hmark] at hsplit
  refine ⟨fun g => ⟨?_, ?_⟩, ?_⟩
  · rintro ⟨hg, tag, rest, hroot⟩
    obtain ⟨x, hx, -⟩ := except_bind_eq_ok.mp (hsplit ▸ hg)
    obtain ⟨d, hd⟩ := exists_document hroot hx
    exact ⟨d, hd, Except.ok.inj ((d.split_text hmark hd).symm.trans hg)⟩
  · rintro ⟨d, hd, rfl⟩
    exact ⟨d.split_text hmark hd, d.tag, d.content ++ d.back, hd ▸ d.findRoot_text⟩
  · by_cases hdoc : ∃ d : Document, d.text = text.toList
    · obtain ⟨d, hd⟩ := hdoc
      simp [d.split_text hmark hd]
    · rw [hsplit, cutOut_of_no_document (not_exists.mp hdoc)]
      have := locate_ne_insideCharacter text.toList
      cases hx : locate text.toList with
      | error fault => simpa [hx, Except.map] using this
      | ok x => simp [Except.map]

/-- Tags in comments and character data do not count, and elements may be nested in elements of their name. -/
theorem split_exact_nested :
    ∃ d : Document,
      d.text = "<?xml?><!--<a>--><svg k='>'><svg><svg/></svg ><![CDATA[</svg>]]>é</svg></b>".toList ∧
      d.graphic = { attributes := .ofList [("k", ">")], content := "<svg><svg/></svg ><![CDATA[</svg>]]>é" } :=
  ((split_exact "<?xml?><!--<a>--><svg k='>'><svg><svg/></svg ><![CDATA[</svg>]]>é</svg></b>" (by decide)).1 _).mp
    ⟨by decide +kernel, "svg k='>'".toList, "<svg><svg/></svg ><![CDATA[</svg>]]>é</svg></b>".toList,
      by decide +kernel⟩

end Markup

end SkitPage
