import SkitPage.Proofs.Documents

/-!
# Text after the root

A text that was split is split in the same way when more text comes after it. A token is read from its form
whatever comes after the form, and a text between tags, which may go on, ends no search. So the searches for
the root and for its end tag stop where they stopped before (`Markup.findRoot_append`, `Markup.closeOf_append`).
The two positions of the content are counted from the start, so they do not move (`Markup.locate_append`).

Of a text that was split only a beginning was read, which ends with the last tag of the root
(`Markup.EndsWithRoot`): its end tag, or the tag that closes itself. After a byte-order mark the content is cut
out too early, but not too late, so that the cut is in this beginning as well (`Markup.exists_read`).

Key definitions: `Markup.Root.append`, `Markup.EndsWithRoot`.
Key theorems: `Markup.locate_append`, `Markup.split_append`, `Markup.exists_read`, `Markup.split_reads_root`.
-/

namespace SkitPage

namespace Text

theorem byteLength_sub_append (whole left more : List Char) :
    byteLength (whole ++ more) - byteLength (left ++ more) = byteLength whole - byteLength left := by
  rw [byteLength_append, byteLength_append]
  omega

/-- A cut does not move when the text goes on. -/
theorem cut?_append {cs mid : List Char} {start stop : Nat} (h : cut? cs start stop = some mid)
    (more : List Char) : cut? (cs ++ more) start stop = some mid := by
  obtain ⟨pre, rest, rfl, hpre, hstop⟩ := cut?_eq_some.mp h
  exact cut?_eq_some.mpr ⟨pre, rest ++ more, by simp, hpre, hstop⟩

/-- Of two beginnings of one text, the one that has no more bytes is a beginning of the other. -/
theorem prefix_of_byteLength_le {a b c d : List Char} (h : a ++ b = c ++ d) (hle : byteLength a ≤ byteLength c) :
    a <+: c := by
  obtain ⟨more, rfl, -⟩ | ⟨more, rfl, -⟩ := List.append_eq_append_iff.mp h
  · exact List.prefix_append a more
  · rw [byteLength_append] at hle
    have hmore : more = [] := byteLength_eq_zero.mp (by omega)
    rw [hmore, List.append_nil]

/-- A cut that ends in a beginning of the text is a cut of the beginning. -/
theorem cut?_of_append {cs more mid : List Char} {start stop : Nat} (h : cut? (cs ++ more) start stop = some mid)
    (hle : stop ≤ byteLength cs) : cut? cs start stop = some mid := by
  obtain ⟨pre, rest, hcs, hpre, hstop⟩ := cut?_eq_some.mp h
  have hlength : byteLength (pre ++ mid) ≤ byteLength cs := by
    rw [byteLength_append]
    omega
  obtain ⟨post, rfl⟩ := prefix_of_byteLength_le hcs.symm hlength
  exact cut?_eq_some.mpr ⟨pre, post, rfl, hpre, hstop⟩

end Text

namespace Markup

/-! ### Reading on -/

/-- The root of an input that goes on. -/
def Root.append (more : List Char) : Root → Root
  | .opened content rest => .opened content (rest ++ more)
  | .selfClosing content => .selfClosing content

theorem RootText.append {root : Root} {cs : List Char} (h : RootText root cs) (more : List Char) :
    RootText (root.append more) (cs ++ more) := by
  cases h with
  | opened hw =>
    rw [List.append_assoc]
    exact .opened hw
  | selfClosing hw =>
    rw [List.append_assoc]
    exact .selfClosing hw

theorem findRoot_append {cs : List Char} {root : Root} (h : findRoot cs = .ok root) (more : List Char) :
    findRoot (cs ++ more) = .ok (root.append more) := by
  obtain ⟨prolog, after, rfl, hprolog, hroot⟩ := findRoot_eq_ok.mp h
  exact findRoot_eq_ok.mpr ⟨prolog, after ++ more, by simp, hprolog, hroot.append more⟩

theorem closeOf_append {name cs close : List Char} (h : closeOf [name] cs = .ok close) (more : List Char) :
    closeOf [name] (cs ++ more) = .ok (close ++ more) := by
  obtain ⟨inner, e, rest, rfl, hinner, he, rfl⟩ := closeOf_eq_ok.mp h
  exact closeOf_eq_ok.mpr ⟨inner, e, rest ++ more, by simp, hinner, he, by simp⟩

/-- What is found in an input is found at the same place when the input goes on. -/
theorem locate_append {input : List Char} {x : OrderedMap String String × Span} (h : locate input = .ok x)
    (more : List Char) : locate (input ++ more) = .ok x := by
  cases hroot : findRoot input with
  | error fault =>
    rw [locate, hroot] at h
    cases h
  | ok root =>
    have hroot' := findRoot_append hroot more
    cases root with
    | selfClosing tag =>
      rw [locate_selfClosing hroot', ← locate_selfClosing hroot, h]
    | opened tag rest =>
      rw [locate_opened hroot] at h
      obtain ⟨found, hfound, h⟩ := except_bind_eq_ok.mp h
      obtain ⟨close, hclose, h⟩ := except_bind_eq_ok.mp h
      rw [locate_opened hroot', hfound, closeOf_append hclose more, ← h]
      dsimp only [bind, Except.bind]
      rw [Text.byteLength_sub_append, Text.byteLength_sub_append]

theorem cutOut_eq_ok {whole : List Char} {found : OrderedMap String String} {start stop : Nat} {g : Graphic} :
    cutOut whole (found, some (start, stop)) = .ok g ↔
      ∃ inner, Text.cut? whole start stop = some inner ∧
        g = { attributes := found, content := String.ofList inner } := by
  rw [cutOut]
  cases Text.cut? whole start stop with
  | none => simp
  | some inner => simp [eq_comm]

theorem cutOut_append {whole : List Char} {x : OrderedMap String String × Span} {g : Graphic}
    (h : cutOut whole x = .ok g) (more : List Char) : cutOut (whole ++ more) x = .ok g := by
  obtain ⟨found, _ | ⟨start, stop⟩⟩ := x
  · exact h
  · obtain ⟨inner, hinner, hg⟩ := cutOut_eq_ok.mp h
    exact cutOut_eq_ok.mpr ⟨inner, Text.cut?_append hinner more, hg⟩

theorem withoutMark_append {cs : List Char} (hne : cs ≠ []) (more : List Char) :
    withoutMark (cs ++ more) = withoutMark cs ++ more := by
  obtain ⟨c, cs, rfl⟩ := List.exists_cons_of_ne_nil hne
  rw [List.cons_append, withoutMark, withoutMark]
  split <;> rfl

theorem split_eq_ok {text : String} {g : Graphic} :
    split text = .ok g ↔ ∃ x, locate (withoutMark text.toList) = .ok x ∧ cutOut text.toList x = .ok g := by
  rw [split_eq, except_bind_eq_ok]

theorem locate_nil : locate [] = .error .noRoot := by
  rw [locate, findRoot]
  rfl

theorem split_append {text : String} {g : Graphic} (h : split text = .ok g) (more : String) :
    split (text ++ more) = .ok g := by
  obtain ⟨x, hx, hg⟩ := split_eq_ok.mp h
  have hne : text.toList ≠ [] := by
    intro hnil
    rw [hnil] at hx
    exact absurd (locate_nil.symm.trans hx) (by simp)
  refine split_eq_ok.mpr ⟨x, ?_, ?_⟩
  · rw [String.toList_append, withoutMark_append hne]
    exact locate_append hx more.toList
  · rw [String.toList_append]
    exact cutOut_append hg more.toList

/-! ### What is read -/

/-- A text that ends with the last tag of its root. -/
inductive EndsWithRoot : List Char → Prop
  | closed {d : Document} : d.rest = [] → EndsWithRoot d.text
  | selfClosing {prolog tag w : List Char} : Prolog prolog → Lexeme (.empty tag) w → EndsWithRoot (prolog ++ w)

theorem EndsWithRoot.ne_nil {w : List Char} (h : EndsWithRoot w) : w ≠ [] := by
  cases h with
  | @closed d _ =>
    intro hnil
    have hfront : d.prolog ++ d.start = [] :=
      (List.append_eq_nil_iff.mp (List.append_eq_nil_iff.mp hnil).1).1
    have hstart := d.start_ok
    rw [(List.append_eq_nil_iff.mp hfront).2] at hstart
    cases hstart
  | selfClosing _ hw =>
    intro hnil
    rw [(List.append_eq_nil_iff.mp hnil).2] at hw
    cases hw

/-- What is found in an input is found in the beginning that ends with the root, and stands in it. -/
theorem exists_rootEnd {input : List Char} {x : OrderedMap String String × Span} (h : locate input = .ok x) :
    ∃ w rest, input = w ++ rest ∧ EndsWithRoot w ∧ locate w = .ok x ∧
      ∀ span ∈ x.2, span.2 ≤ Text.byteLength w := by
  cases hroot : findRoot input with
  | error fault =>
    rw [locate, hroot] at h
    cases h
  | ok root =>
    cases root with
    | selfClosing tag =>
      obtain ⟨prolog, after, rfl, hprolog, hafter⟩ := findRoot_eq_ok.mp hroot
      cases hafter with
      | @selfClosing _ w rest hw =>
        have hself : RootText (.selfClosing tag) (w ++ []) := .selfClosing hw
        have hroot' : findRoot (prolog ++ w) = .ok (.selfClosing tag) :=
          findRoot_eq_ok.mpr ⟨prolog, w, rfl, hprolog, List.append_nil w ▸ hself⟩
        have hlocate : locate (prolog ++ w) = .ok x := by
          rw [locate_selfClosing hroot', ← locate_selfClosing hroot, h]
        rw [locate_selfClosing hroot] at h
        obtain ⟨found, -, hx⟩ := except_bind_eq_ok.mp h
        refine ⟨prolog ++ w, rest, by simp, .selfClosing hprolog hw, hlocate, ?_⟩
        rw [← Except.ok.inj hx]
        simp
    | opened tag rest =>
      obtain ⟨d, rfl⟩ := exists_document hroot h
      let read : Document := { d with rest := [] }
      have hread : d.text = read.text ++ d.rest := by
        simp [read, Document.text, Document.front, Document.back]
      have hx := Except.ok.inj (h.symm.trans d.locate_text)
      refine ⟨read.text, d.rest, hread, .closed rfl, hx ▸ read.locate_text, ?_⟩
      rintro span hspan
      rw [hx] at hspan
      obtain rfl := Option.mem_some.mp hspan
      simp only [read, Document.text, Document.front, Text.byteLength_append]
      omega

theorem cutOut_of_append {cs more : List Char} {x : OrderedMap String String × Span} {g : Graphic}
    (h : cutOut (cs ++ more) x = .ok g) (hspan : ∀ span ∈ x.2, span.2 ≤ Text.byteLength cs) :
    cutOut cs x = .ok g := by
  obtain ⟨found, _ | ⟨start, stop⟩⟩ := x
  · exact h
  · obtain ⟨inner, hinner, hg⟩ := cutOut_eq_ok.mp h
    exact cutOut_eq_ok.mpr ⟨inner, Text.cut?_of_append hinner (hspan _ rfl), hg⟩

theorem byteLength_withoutMark_le (cs : List Char) : Text.byteLength (withoutMark cs) ≤ Text.byteLength cs := by
  cases cs with
  | nil => exact Nat.le_refl _
  | cons c cs =>
    rw [withoutMark]
    split
    · rw [Text.byteLength]
      omega
    · exact Nat.le_refl _

/-- A beginning of what comes after the mark goes back to a beginning of the whole text. -/
theorem exists_of_withoutMark {cs w rest : List Char} (hne : w ≠ []) (h : withoutMark cs = w ++ rest) :
    ∃ read, cs = read ++ rest ∧ withoutMark read = w := by
  cases cs with
  | nil => exact absurd (List.append_eq_nil_iff.mp h.symm).1 hne
  | cons c cs =>
    by_cases hc : c = byteOrderMark
    · rw [withoutMark, if_pos hc] at h
      exact ⟨c :: w, by rw [h]; rfl, by rw [withoutMark, if_pos hc]⟩
    · rw [withoutMark, if_neg hc] at h
      refine ⟨w, h, withoutMark_eq fun hmark => hc ?_⟩
      obtain ⟨c', w, rfl⟩ := List.exists_cons_of_ne_nil hne
      rw [(List.cons.inj h).1]
      exact Option.some.inj hmark

/-- A text that is split needs only its beginning up to the end of the root. -/
theorem exists_read {text : String} {g : Graphic} (h : split text = .ok g) :
    ∃ read rest : String, text = read ++ rest ∧ EndsWithRoot (withoutMark read.toList) ∧ split read = .ok g := by
  obtain ⟨x, hx, hg⟩ := split_eq_ok.mp h
  obtain ⟨w, rest, hinput, hend, hw, hspan⟩ := exists_rootEnd hx
  obtain ⟨read, htext, rfl⟩ := exists_of_withoutMark hend.ne_nil hinput
  have hcut : cutOut read x = .ok g := by
    refine cutOut_of_append (htext ▸ hg) fun span hmem => ?_
    exact (hspan span hmem).trans (byteLength_withoutMark_le read)
  refine ⟨String.ofList read, String.ofList rest, ?_, ?_, split_eq_ok.mpr ⟨x, ?_, ?_⟩⟩
  · rw [← String.ofList_append, ← htext, String.ofList_toList]
  · rwa [String.toList_ofList]
  · rwa [String.toList_ofList]
  · rwa [String.toList_ofList]

/-- **A split does not look past the root.** A text that can be split gives the same graphic whatever comes after
it. More than that, it has a beginning that ends with the end tag of the root, or with the tag of a root that
closes itself, and already this beginning gives the graphic, whatever comes after it. -/
theorem split_reads_root {text : String} {g : Graphic} (h : split text = .ok g) :
    (∀ more, split (text ++ more) = .ok g) ∧
      ∃ read rest : String, text = read ++ rest ∧ EndsWithRoot (withoutMark read.toList) ∧
        ∀ more, split (read ++ more) = .ok g := by
  obtain ⟨read, rest, htext, hend, hread⟩ := exists_read h
  exact ⟨split_append h, read, rest, htext, hend, split_append hread⟩

/-- What comes after the root may be a tag that is never closed, with or without a mark at the start. -/
theorem split_reads_root_unclosed :
    split ("<!--<a>--><svg k='>'><g/>é</svg></b>" ++ "<svg") =
        .ok { attributes := .ofList [("k", ">")], content := "<g/>é" } ∧
      split ("\ufeff<svg>abc</svg></b>" ++ "<svg") = .ok { attributes := .empty, content := "vg>" } :=
  ⟨(split_reads_root (by decide +kernel)).1 "<svg", (split_reads_root (by decide +kernel)).1 "<svg"⟩

end Markup

end SkitPage
