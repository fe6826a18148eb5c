import SkitPage.Proofs.Documents

/-!
# The split after a byte-order mark

A mark at the start is passed over and not counted, but it is there when the content is cut out. Whether a
text is a document does not depend on the mark, nor do the attributes, nor the fault of a text that is no
document. The content does: it is cut from three bytes before its place, and it is the right one just
where the content repeats the three bytes before it (`Markup.split_marked_iff`).

Key definitions: `Markup.marked`, `Markup.Document.CutEarly`, `Markup.Document.Repeats`.
Key theorems: `Markup.Document.cutEarly_content`, `Markup.split_marked_iff`.
-/

namespace SkitPage.Markup

namespace Document

/-- What is cut out of the document after a mark: the cut begins at the position that the content has without
the mark, and is as long as the content. -/
def CutEarly (d : Document) (inner : List Char) : Prop :=
  ∃ pre post, byteOrderMark :: d.text = pre ++ inner ++ post ∧
    Text.byteLength pre = Text.byteLength d.front ∧ Text.byteLength inner = Text.byteLength d.content

/-- The content repeats the three bytes before it. -/
def Repeats (d : Document) : Prop :=
  ∃ w, Text.byteLength w = Text.byteLength [byteOrderMark] ∧ w <:+ d.front ∧ d.content <+: w ++ d.content

theorem byteLength_front_pos (d : Document) : 0 < Text.byteLength d.front := by
  refine Nat.pos_of_ne_zero fun h => ?_
  have hstart := (List.append_eq_nil_iff.mp (Text.byteLength_eq_zero.mp h)).2
  have := d.start_ok
  rw [hstart] at this
  cases this

theorem cutEarly_content (d : Document) : d.CutEarly d.content ↔ d.Repeats := by
  constructor
  · rintro ⟨pre, post, htext, hpre, -⟩
    cases pre with
    | nil => exact absurd hpre (Nat.ne_of_lt d.byteLength_front_pos)
    | cons c pre =>
      obtain ⟨rfl, htail⟩ := List.cons.inj htext
      have hsplit : d.front ++ (d.content ++ d.back) = pre ++ (d.content ++ post) := by
        simpa [text] using htail
      rw [Text.byteLength] at hpre
      obtain ⟨after, hafter, -⟩ | ⟨w, hfront, hafter⟩ := List.append_eq_append_iff.mp hsplit
      · have := byteOrderMark.utf8Size_pos
        rw [hafter, Text.byteLength_append] at hpre
        omega
      · refine ⟨w, ?_, ⟨pre, hfront.symm⟩, ?_⟩
        · rw [hfront, Text.byteLength_append] at hpre
          simp only [Text.byteLength]
          omega
        · refine List.prefix_of_prefix_length_le ⟨post, hafter⟩ ⟨d.back, List.append_assoc ..⟩ ?_
          simp
  · rintro ⟨w, hw, ⟨pre, hfront⟩, ⟨post, hcontent⟩⟩
    refine ⟨byteOrderMark :: pre, post ++ d.back, ?_, ?_, rfl⟩
    · rw [text, ← hfront, List.append_assoc, List.append_assoc, ← List.append_assoc w, ← hcontent]
      simp
    · rw [← hfront, Text.byteLength_append, hw]
      simp only [Text.byteLength]
      omega

end Document

/-- The text after a byte-order mark. -/
def marked (text : String) : String := String.ofList (byteOrderMark :: text.toList)

theorem Document.split_marked {text : String} (d : Document) (h : d.text = text.toList) :
    split (marked text) = cutOut (byteOrderMark :: d.text) (d.attributes,
      some (Text.byteLength d.front, Text.byteLength d.front + Text.byteLength d.content)) := by
  have hmarked : (marked text).toList = byteOrderMark :: d.text := by rw [marked, String.toList_ofList, h]
  rw [split_of_document d (by rw [hmarked, withoutMark, if_pos rfl]), hmarked]

theorem Document.cut?_marked (d : Document) {inner : List Char} :
    Text.cut? (byteOrderMark :: d.text) (Text.byteLength d.front)
      (Text.byteLength d.front + Text.byteLength d.content) = some inner ↔ d.CutEarly inner := by
  rw [Text.cut?_eq_some, CutEarly]
  simp only [Nat.add_left_cancel_iff]

theorem Document.split_marked_eq_ok {text : String} (d : Document) (h : d.text = text.toList) {g : Graphic} :
    split (marked text) = .ok g ↔
      ∃ inner, d.CutEarly inner ∧ g = { attributes := d.attributes, content := String.ofList inner } := by
  rw [d.split_marked h, cutOut]
  constructor
  · intro hg
    split at hg
    · rename_i inner hcut
      exact ⟨inner, d.cut?_marked.mp hcut, (Except.ok.inj hg).symm⟩
    · cases hg
  · rintro ⟨inner, hinner, rfl⟩
    rw [d.cut?_marked.mpr hinner]

theorem Document.split_marked_eq_error {text : String} (d : Document) (h : d.text = text.toList) :
    split (marked text) = .error .insideCharacter ↔ ∀ inner, ¬ d.CutEarly inner := by
  simp only [d.split_marked h, ← d.cut?_marked, cutOut]
  cases Text.cut? (byteOrderMark :: d.text) (Text.byteLength d.front)
    (Text.byteLength d.front + Text.byteLength d.content) with
  | none => simp
  | some inner => simp

theorem split_marked_of_no_document {text : String} (hmark : text.toList.head? ≠ some byteOrderMark)
    (h : ∀ d : Document, d.text ≠ text.toList) : split (marked text) = split text := by
  have hmarked : withoutMark (marked text).toList = text.toList := by
    rw [marked, String.toList_ofList, withoutMark, if_pos rfl]
  rw [split_eq, split_eq, hmarked, withoutMark_eq hmark, cutOut_of_no_document h, cutOut_of_no_document h]

/-- **A byte-order mark shifts the cut.** It makes no difference where there is nothing to cut, or where
the content repeats the bytes before it. Everywhere else the content is taken from three bytes before its
place, and there is none where that is inside a character. -/
theorem split_marked_iff (text : String) (hmark : text.toList.head? ≠ some byteOrderMark) :
    (split (marked text) = split text ↔ ∀ d : Document, d.text = text.toList → d.Repeats) ∧
    ∀ d : Document, d.text = text.toList →
      (∀ g, split (marked text) = .ok g ↔
        ∃ inner, d.CutEarly inner ∧ g = { attributes := d.attributes, content := String.ofList inner }) ∧
      (split (marked text) = .error .insideCharacter ↔ ∀ inner, ¬ d.CutEarly inner) := by
  refine ⟨⟨fun h d hd => ?_, fun h => ?_⟩, fun d hd => ?_⟩
  · rw [d.split_text hmark hd] at h
    obtain ⟨inner, hinner, hg⟩ := (d.split_marked_eq_ok hd).mp h
    have hcontent : d.content = inner := String.ofList_injective (congrArg Graphic.content hg)
    exact d.cutEarly_content.mp (hcontent ▸ hinner)
  · by_cases hdoc : ∃ d : Document, d.text = text.toList
    · obtain ⟨d, hd⟩ := hdoc
      rw [d.split_text hmark hd, d.split_marked_eq_ok hd]
      exact ⟨d.content, d.cutEarly_content.mpr (h d hd), rfl⟩
    · exact split_marked_of_no_document hmark (not_exists.mp hdoc)
  · exact ⟨fun g => d.split_marked_eq_ok hd, d.split_marked_eq_error hd⟩

/-- A document that a mark does not disturb: the content is the end of the start tag once more. -/
theorem split_marked_iff_repeated : ∃ d : Document, d.text = "<svg>vg></svg>".toList ∧ d.Repeats := by
  have hroot : findRoot "<svg>vg></svg>".toList = .ok (.opened "svg".toList "vg></svg>".toList) := by
    decide +kernel
  have hspan : locate "<svg>vg></svg>".toList = .ok (.empty, some (5, 8)) := by decide +kernel
  obtain ⟨d, hd⟩ := exists_document hroot hspan
  exact ⟨d, hd, (split_marked_iff "<svg>vg></svg>" (by decide)).1.mp (by decide +kernel) d hd⟩

/-- After a mark the end of the start tag is taken for the content, or there is no content. -/
theorem marked_content_early :
    split "<svg>abc</svg>" = .ok { attributes := .empty, content := "abc" } ∧
      split (marked "<svg>abc</svg>") = .ok { attributes := .empty, content := "vg>" } ∧
      split (marked "<svg k='é'>abc</svg>") = .error .insideCharacter := by
  decide +kernel

end SkitPage.Markup
