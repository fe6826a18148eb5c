import Mathlib.Data.List.Chain
import SkitPage.Proofs.RichText

/-!
# Where a line is cut into runs does not matter

Two neighbouring runs of one style are written as one run with both texts (`RichText.html_run_boundaries`).
This holds in the middle of any line: whatever the runs before have left open, after a run just its own
styles are open, so a second run of the same style finds nothing to close and nothing to open
(`RichText.Writer.turn_eq_self`). The two writers may have cut their text into different pieces by then, so they
are compared by the characters that they have written and by what they have open (`RichText.Writer.Agree`),
and whatever is written next keeps them in agreement (`RichText.Writer.Agree.run`).

Hence a line may be brought into the form in which no two neighbours have the same style (`RichText.merged`).

Key definitions: `Run.SameStyle`, `RichText.merged`, `RichText.Writer.turn`, `RichText.Writer.Agree`.
Key theorems: `RichText.Writer.turn_eq_self`, `RichText.html_append_pair`, `RichText.html_append_merged`,
`RichText.html_run_boundaries`.
-/

namespace SkitPage

/-- Two runs are shown in the same styles. -/
def Run.SameStyle (r r' : Run) : Prop := r.bold = r'.bold ∧ r.italic = r'.italic ∧ r.code = r'.code

instance : DecidableRel Run.SameStyle := fun _ _ => inferInstanceAs (Decidable (_ ∧ _))

/-- A run, with more text at its end. -/
def Run.extend (r : Run) (text : String) : Run := { r with text := r.text ++ text }

theorem Run.SameStyle.wants_eq {r r' : Run} (h : r.SameStyle r') (s : Style) : r.wants s = r'.wants s := by
  obtain ⟨hbold, hitalic, hcode⟩ := h
  cases s with
  | strong => exact hbold
  | em => exact hitalic
  | code => exact hcode

theorem Run.wants_extend (r : Run) (text : String) : (r.extend text).wants = r.wants := by
  funext s
  cases s <;> rfl

namespace RichText

/-- A run before others, made one with the first of them if that has the same style. -/
def mergeCons (r : Run) : List Run → List Run
  | [] => [r]
  | r' :: rs => if r.SameStyle r' then r.extend r'.text :: rs else r :: r' :: rs

/-- The runs of a line with all neighbours of the same style made one. -/
def merged (runs : List Run) : List Run := runs.foldr mergeCons []

theorem merged_cons (r : Run) (runs : List Run) : merged (r :: runs) = mergeCons r (merged runs) := rfl

/-- In a merged line no two neighbours have the same style. -/
theorem isChain_merged : ∀ runs : List Run, (merged runs).IsChain fun r r' => ¬ r.SameStyle r'
  | [] => .nil
  | r :: runs => by
    have ih := isChain_merged runs
    rw [merged_cons]
    cases hm : merged runs with
    | nil => exact .singleton r
    | cons r' rs =>
      rw [hm] at ih
      by_cases hsame : r.SameStyle r'
      · -- The longer run has the style of the one that it takes in, so what comes next differs from it.
        rw [mergeCons, if_pos hsame]
        cases ih with
        | singleton => exact .singleton _
        | cons_cons hnext hrest =>
          refine .cons_cons (fun h => hnext ?_) hrest
          exact ⟨hsame.1.symm.trans h.1, hsame.2.1.symm.trans h.2.1, hsame.2.2.symm.trans h.2.2⟩
      · rw [mergeCons, if_neg hsame]
        exact .cons_cons hsame ih

namespace Writer

/-! ### Turning to a style -/

variable {w w' : Writer} {r r' : Run}

/-- The writer when the text of a run comes next: what the run does not want is closed, and what it lacks
is open. -/
def turn (w : Writer) (r : Run) : Writer :=
  Style.all.foldl (Writer.openIfWanted r) (Style.all.foldl (Writer.close r) w)

theorem run_eq (w : Writer) (r : Run) :
    w.run r = ⟨(w.turn r).written ++ [Text.escape r.text], (w.turn r).opened⟩ := rfl

theorem closing_of_not_mem {s : Style} {opened : List Style} (h : s ∉ opened) :
    closing s opened = ([], opened) := by
  cases opened with
  | nil => rfl
  | cons top rest => rw [closing, if_neg h]

/-- A writer that has just the styles of a run open stays as it is. -/
theorem turn_eq_self (h : ∀ s, s ∈ w.opened ↔ r.wants s = true) : w.turn r = w := by
  have hclose : ∀ s, w.close r s = w := by
    intro s
    unfold Writer.close
    split
    · rfl
    · rename_i hwants
      simp only [closing_of_not_mem (mt (h s).mp hwants), List.append_nil]
  have hopen : ∀ s, w.openIfWanted r s = w := by
    intro s
    unfold Writer.openIfWanted
    exact if_neg fun hs => hs.2 ((h s).mpr hs.1)
  rw [turn, List.foldl_fixed' hclose, List.foldl_fixed' hopen]

theorem turn_congr (h : ∀ s, r.wants s = r'.wants s) (w : Writer) : w.turn r = w.turn r' := by
  have hclose : Writer.close r = Writer.close r' := by
    funext w s
    rw [Writer.close, Writer.close, h s]
  have hopen : Writer.openIfWanted r = Writer.openIfWanted r' := by
    funext w s
    rw [Writer.openIfWanted, Writer.openIfWanted, h s]
  rw [turn, turn, hclose, hopen]

/-- After a run of the same style only the text is added. -/
theorem run_run (h : r.SameStyle r') (w : Writer) : (w.run r).run r' =
    ⟨(w.turn r).written ++ [Text.escape r.text] ++ [Text.escape r'.text], (w.turn r).opened⟩ := by
  have hopened : ∀ s, s ∈ (w.run r).opened ↔ r'.wants s = true := fun s => by
    rw [mem_opened_run, h.wants_eq s]
  rw [run_eq (w.run r), turn_eq_self hopened, run_eq w r]

/-! ### Writers in agreement -/

/-- Two writers have written the same characters and have the same styles open. -/
structure Agree (w w' : Writer) : Prop where
  text : w.text = w'.text
  opened : w.opened = w'.opened

namespace Agree

/-- The same pieces may be written by both. -/
theorem append (h : Agree w w') (pieces : List String) (opened : List Style) :
    Agree ⟨w.written ++ pieces, opened⟩ ⟨w'.written ++ pieces, opened⟩ := by
  refine ⟨?_, rfl⟩
  simp only [Writer.text, List.flatMap_append]
  exact congrArg (· ++ _) h.text

theorem close (h : Agree w w') (s : Style) : Agree (w.close r s) (w'.close r s) := by
  unfold Writer.close
  split
  · exact h
  · rw [h.opened]
    exact h.append _ _

theorem openIfWanted (h : Agree w w') (s : Style) : Agree (w.openIfWanted r s) (w'.openIfWanted r s) := by
  unfold Writer.openIfWanted
  rw [h.opened]
  split
  · exact h.append _ _
  · exact h

/-- Writers in agreement stay so while the same run is written. -/
theorem run (h : Agree w w') (r : Run) : Agree (w.run r) (w'.run r) := by
  have hclosed := List.foldl_rel (l := Style.all) (f := Writer.close r) (g := Writer.close r) h
    fun s _ _ _ h => h.close s
  have hturned : Agree (w.turn r) (w'.turn r) :=
    List.foldl_rel (l := Style.all) hclosed fun s _ _ _ h => h.openIfWanted s
  rw [run_eq, run_eq, hturned.opened]
  exact hturned.append _ _

theorem runs (h : Agree w w') (rs : List Run) : Agree (rs.foldl Writer.run w) (rs.foldl Writer.run w') :=
  List.foldl_rel h fun r _ _ _ h => h.run r

theorem join_eq (h : Agree w w') : String.join w.written = String.join w'.written := by
  apply String.toList_injective
  rw [String.toList_join, String.toList_join]
  exact h.text

end Agree

end Writer

/-! ### Lines -/

theorem escape_append (s t : String) : (Text.escape (s ++ t)).toList =
    (Text.escape s).toList ++ (Text.escape t).toList := by
  simp [Text.escape]

/-- In the middle of a line, two runs of the same style are written as one. -/
theorem html_append_pair {r r' : Run} (h : r.SameStyle r') (xs ys : List Run) :
    html (xs ++ r :: r' :: ys) = html (xs ++ r.extend r'.text :: ys) := by
  let before := xs.foldl Writer.run {}
  have hpair : Writer.Agree ((before.run r).run r') (before.run (r.extend r'.text)) := by
    have hturn : before.turn (r.extend r'.text) = before.turn r :=
      Writer.turn_congr (fun s => by rw [Run.wants_extend]) before
    rw [Writer.run_run h, Writer.run_eq before (r.extend r'.text), hturn]
    refine ⟨?_, rfl⟩
    simp [Writer.text, Run.extend, escape_append]
  have hline := hpair.runs (ys ++ [plainEnd])
  simpa [html, before] using hline.join_eq

theorem html_append_mergeCons (r : Run) (xs ys : List Run) :
    html (xs ++ mergeCons r ys) = html (xs ++ r :: ys) := by
  unfold mergeCons
  split
  · rfl
  · split
    · rename_i hsame
      exact (html_append_pair hsame xs _).symm
    · rfl

/-- Whatever stands before them, runs may be merged. -/
theorem html_append_merged : ∀ xs runs : List Run, html (xs ++ merged runs) = html (xs ++ runs)
  | _, [] => rfl
  | xs, r :: runs => by
    have ih := html_append_merged (xs ++ [r]) runs
    rw [List.append_assoc, List.append_assoc] at ih
    rw [merged_cons, html_append_mergeCons]
    exact ih

/-- **Where a line is cut into runs does not matter.** In any line, two neighbouring runs in the same styles are
written as one run in these styles with both texts. Hence a line is written as the one in which all such
neighbours are made one, and which has none left. -/
theorem html_run_boundaries :
    (∀ (xs ys : List Run) (b i c : Bool) (s t : String),
      html (xs ++ [⟨b, i, c, s⟩, ⟨b, i, c, t⟩] ++ ys) = html (xs ++ [⟨b, i, c, s ++ t⟩] ++ ys)) ∧
    ∀ runs : List Run, html (merged runs) = html runs ∧
      (merged runs).IsChain fun r r' => ¬ r.SameStyle r' := by
  refine ⟨fun xs ys b i c s t => ?_, fun runs => ⟨html_append_merged [] runs, isChain_merged runs⟩⟩
  have hsame : Run.SameStyle ⟨b, i, c, s⟩ ⟨b, i, c, t⟩ := ⟨rfl, rfl, rfl⟩
  simpa [Run.extend] using html_append_pair hsame xs ys

end RichText

end SkitPage
