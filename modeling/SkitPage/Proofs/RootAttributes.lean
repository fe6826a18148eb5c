import Mathlib.Data.List.Nodup
import SkitPage.Proofs.Documents

/-!
# Writing the attributes of a root

Attributes are written with their values escaped, between double quotes. Such values have no quote in
them, so the end of the tag, the end of each attribute and the text that each value stands for are found
where the writer put them: a split gives back the map that was written, in whichever order its entries
stand, and the content (`Markup.split_written`).

Key definitions: `Markup.IsAttributeName`, `Markup.writeAttributes`.
Key theorems: `Markup.denotes_escape`, `Markup.tagText_writeAttributes`,
`Markup.attributesText_writeAttributes`, `Markup.split_written`.
-/

namespace SkitPage.Markup

/-- The characters other than blanks that may not stand in the name of an attribute. -/
def reservedInNames : List Char := ['=', '<', '>', '/', '"', '\'']

/-- What may be the name of an attribute. -/
def IsAttributeName (name : String) : Prop :=
  name ≠ "" ∧ ∀ c ∈ name.toList, isBlank c = false ∧ c ∉ reservedInNames

instance : DecidablePred IsAttributeName := fun _ => @instDecidableAnd _ _ _ (List.decidableBAll _ _)

/-- An attribute, with its value escaped and between double quotes. -/
def writeAttribute (entry : String × String) : String :=
  " " ++ entry.1 ++ "=\"" ++ Text.escape entry.2 ++ "\""

/-- Attributes, one after the other. -/
def writeAttributes (entries : List (String × String)) : String := String.join (entries.map writeAttribute)

theorem toList_writeAttributes (entries : List (String × String)) :
    (writeAttributes entries).toList = entries.flatMap fun p => (writeAttribute p).toList := by
  simp [writeAttributes, List.flatMap_def, Function.comp_def]

theorem toList_writeAttribute (p : String × String) :
    (writeAttribute p).toList =
      ' ' :: (p.1.toList ++ '=' :: '"' :: (p.2.toList.flatMap Text.escapeChar ++ ['"'])) := by
  simp [writeAttribute, Text.escape]

theorem denotes_escape : ∀ value : List Char, Denotes (value.flatMap Text.escapeChar) value
  | [] => .nil
  | c :: value => by
    rw [List.flatMap_cons, Text.escapeChar]
    cases hc : Text.entity? c with
    | some name =>
      have := Denotes.reference (.named hc) (denotes_escape value)
      simpa using this
    | none =>
      refine .plain ?_ (denotes_escape value)
      rintro rfl
      cases hc

theorem quote_not_mem_escape (value : List Char) : '"' ∉ value.flatMap Text.escapeChar := by
  have hchar : ∀ c, '"' ∉ Text.escapeChar c := by
    intro c
    unfold Text.escapeChar Text.entity?
    split
    · rename_i name hname
      split at hname <;> cases hname <;> decide
    · rename_i hname
      split at hname
      case h_6 hquote => simpa using Ne.symm hquote
      all_goals cases hname
  simpa using fun c _ => hchar c

theorem IsAttributeName.isKey {name : String} (h : IsAttributeName name) : IsKey name.toList := by
  obtain ⟨hne, hname⟩ := h
  cases hcs : name.toList with
  | nil => exact absurd (String.toList_eq_nil_iff.mp hcs) hne
  | cons c cs =>
    rw [hcs] at hname
    refine ⟨c, cs, rfl, (hname c List.mem_cons_self).1, fun x hx => ?_⟩
    obtain ⟨hblank, hnot⟩ := hname x (List.mem_cons_of_mem _ hx)
    have hequals : x ≠ '=' := by
      rintro rfl
      exact hnot (by decide)
    simp [endsKey, hblank, hequals]

theorem IsAttributeName.tagText {name : String} (h : IsAttributeName name) : TagText name.toList := by
  refine .of_plain fun c hc => ?_
  have hnot := (h.2 c hc).2
  refine ⟨?_, ?_⟩
  · rintro rfl
    exact hnot (by decide)
  · rintro (rfl | rfl) <;> exact hnot (by decide)

section

variable {entries : List (String × String)} (h : ∀ p ∈ entries, IsAttributeName p.1)
include h

theorem tagText_writeAttributes : TagText (writeAttributes entries).toList := by
  rw [toList_writeAttributes]
  induction entries with
  | nil => exact .nil
  | cons p entries ih =>
    obtain ⟨hname, h⟩ := List.forall_mem_cons.mp h
    have hblank : TagText [' '] := .plain (by decide) (by rintro (h | h) <;> cases h) .nil
    have hequals : TagText ['='] := .plain (by decide) (by rintro (h | h) <;> cases h) .nil
    have hvalue : TagText ('"' :: p.2.toList.flatMap Text.escapeChar ++ ['"']) :=
      .quoted (.inl rfl) (quote_not_mem_escape _) .nil
    rw [List.flatMap_cons, toList_writeAttribute]
    have := (hblank.append (hname.tagText.append (hequals.append hvalue))).append (ih h)
    simpa using this

theorem attributesText_writeAttributes :
    AttributesText (writeAttributes entries).toList (entries.map fun p => (p.1.toList, p.2.toList)) := by
  rw [toList_writeAttributes]
  induction entries with
  | nil => exact .nil (by simp)
  | cons p entries ih =>
    obtain ⟨hname, h⟩ := List.forall_mem_cons.mp h
    have hattribute : AttributeText p.1.toList (p.2.toList.flatMap Text.escapeChar)
        (p.1.toList ++ [] ++ '=' :: [] ++ '"' :: p.2.toList.flatMap Text.escapeChar ++ ['"']) :=
      .mk hname.isKey (by simp) (by simp) (.inl rfl) (quote_not_mem_escape _)
    have hblank : ∀ c ∈ [' '], isBlank c = true := List.forall_mem_singleton.mpr rfl
    have := AttributesText.cons hblank hattribute (denotes_escape _) (ih h)
    rw [List.flatMap_cons, toList_writeAttribute]
    simpa using this

end

theorem nameOf_writeAttributes (entries : List (String × String)) :
    nameOf ("svg".toList ++ (writeAttributes entries).toList) = "svg".toList := by
  rw [toList_writeAttributes]
  cases entries with
  | nil => decide
  | cons p entries =>
    rw [List.flatMap_cons, toList_writeAttribute]
    exact takeWhile_eq_of (List.all_eq_true.mp rfl) rfl

theorem insertPairs_map (entries : List (String × String)) :
    insertPairs .empty (entries.map fun p => (p.1.toList, p.2.toList)) = OrderedMap.ofList entries := by
  simp [insertPairs, OrderedMap.ofList, List.foldl_map]

section

variable {A : OrderedMap String String} {entries : List (String × String)}
  (hnames : ∀ p ∈ entries, IsAttributeName p.1) (hentries : entries.Perm A.entries)
include hnames hentries

theorem hasAttributes_writeAttributes :
    HasAttributes ("svg".toList ++ (writeAttributes entries).toList) A := by
  refine ⟨entries.map fun p => (p.1.toList, p.2.toList), ?_, ?_, ?_⟩
  · rw [nameOf_writeAttributes, List.drop_left]
    exact attributesText_writeAttributes hnames
  · have hnodup := ((hentries.map (·.1)).nodup_iff.mpr A.nodup_keys).map fun _ _ => String.toList_injective
    simpa [Function.comp_def] using hnodup
  · rw [insertPairs_map, OrderedMap.ofList_of_perm hentries]

end

theorem getLast?_writeAttributes (entries : List (String × String)) :
    ("svg".toList ++ (writeAttributes entries).toList).getLast? ≠ some '/' := by
  rw [toList_writeAttributes]
  obtain rfl | ⟨front, last, rfl⟩ := List.eq_nil_or_concat entries
  · decide
  · have hlast : ((front ++ [last]).flatMap fun p => (writeAttribute p).toList) =
        (front.flatMap fun p => (writeAttribute p).toList) ++
          ' ' :: (last.1.toList ++ '=' :: '"' :: last.2.toList.flatMap Text.escapeChar) ++ ['"'] := by
      simp [toList_writeAttribute]
    rw [List.concat_eq_append, hlast, ← List.append_assoc, List.getLast?_concat]
    decide

/-- **What is written is read back**, for every map of attributes, in every order, whatever the values
are. -/
theorem split_written (A : OrderedMap String String)
    (hnames : ∀ k ∈ A.keys, IsAttributeName k) (entries : List (String × String))
    (hentries : entries.Perm A.entries) :
    (∀ content : String, Balanced content.toList →
      split ("<svg" ++ writeAttributes entries ++ ">" ++ content ++ "</svg>") =
        .ok { attributes := A, content := content }) ∧
    split ("<svg" ++ writeAttributes entries ++ "/>") = .ok { attributes := A, content := "" } := by
  have hnames' : ∀ p ∈ entries, IsAttributeName p.1 := by
    intro p hp
    exact hnames p.1 (List.mem_map_of_mem (hentries.mem_iff.mp hp))
  let tag : List Char := "svg".toList ++ (writeAttributes entries).toList
  have hopens : Opens tag := by
    intro c hc
    obtain rfl : 's' = c := Option.some.inj hc
    decide
  have htext : TagText tag := by
    have hsvg : TagText "svg".toList := .of_plain (by simp [IsQuote])
    exact hsvg.append (tagText_writeAttributes hnames')
  have hfound : HasAttributes tag A := hasAttributes_writeAttributes hnames' hentries
  refine ⟨fun content hcontent => ?_, ?_⟩
  · have hclose : Lexeme (.close "svg".toList) "</svg>".toList :=
      @Lexeme.close "sv".toList [] 'g' (.of_plain (by simp [IsQuote])) rfl nofun
    let d : Document :=
      { prolog := [], tag, start := '<' :: tag ++ ['>'], content := content.toList, close := "</svg>".toList
        rest := [], attributes := A
        prolog_ok := .nil, start_ok := .start htext hopens (getLast?_writeAttributes entries)
        attributes_ok := hfound, content_ok := hcontent
        close_ok := by rw [nameOf_writeAttributes]; exact hclose }
    have htoList : d.text = ("<svg" ++ writeAttributes entries ++ ">" ++ content ++ "</svg>").toList := by
      simp [d, tag, Document.text, Document.front, Document.back]
    rw [d.split_text (by rw [← htoList]; simp [d, Document.text, Document.front, byteOrderMark]) htoList,
      Document.graphic, String.ofList_toList]
  · have hslash : TagText ['/'] := .of_plain (by simp [IsQuote])
    have htoList : ("<svg" ++ writeAttributes entries ++ "/>").toList =
        [] ++ (('<' :: tag ++ ['/', '>']) ++ []) := by
      simp [tag]
    refine split_selfClosing ?_ htoList .nil (.empty (htext.append hslash) (by simp [tag]) hopens) hfound
    simp [htoList, byteOrderMark]

/-- Values with quotes, brackets and entities in them, and the entries not in order. -/
theorem split_written_markup :
    split ("<svg" ++ writeAttributes [("z", "/>&lt;"), ("a", "<'\"é")] ++ ">" ++ "<g k='>'><svg/></g>" ++
        "</svg>") =
      .ok { attributes := .ofList [("a", "<'\"é"), ("z", "/>&lt;")], content := "<g k='>'><svg/></g>" } :=
  (split_written _ (by decide) _ (.swap ..)).1 _ (by decide +kernel)

end SkitPage.Markup
