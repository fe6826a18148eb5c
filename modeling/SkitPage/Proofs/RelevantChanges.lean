import SkitPage.Proofs.Work

/-!
# Only relevant changes matter

A run looks at the paths that it is told of in four places: it asks whether a source is among them, whether a
graphic that is needed has to be loaded, whether a kept graphic may still be shown, and which graphics to drop
afterwards. All it can learn there is which of the sources, and which of the graphics that the script at hand
needs, have changed. So two lists of changes that agree on these paths lead to the same run: the same work, the
same result, the same artifacts and the same store (`Compiler.recompile_eq_of_sameChanges`).

The graphics that count are those of the new script if the script is among the changes, and of the kept one if
not (`Compiler.assetsAtHand`). A graphic that only the script before needed is dropped in either case. What a page
shows is among the graphics that its script needs; for the kept script this is part of what a compiler keeps
between runs.

Key definitions: `Compiler.assetsAtHand`, `Compiler.SameChanges`.
Key theorems: `Artifacts.commit_congr`, `Compiler.stage_eq_of_sameChanges`, `Compiler.pageText_eq_of_agree`,
`Compiler.prepare_eq_of_sameChanges`, `Compiler.recompile_eq_of_sameChanges`.
-/

namespace SkitPage

/-- After a job, only what can come out of it matters. -/
theorem Job.bind_congr {α β : Type} {j : Job α} {next next' : α → Job β}
    (h : ∀ a, j.result = .ok a → next a = next' a) : (j >>= next) = (j >>= next') := by
  change j.bind next = j.bind next'
  unfold Job.bind
  split
  · rename_i a ha
    rw [h a ha]
  · rfl

section Agree

variable {p q : List Path}

/-- A graphic is shown or not whichever of two lists is told, if they agree on its path. -/
theorem Staged.graphic?_congr {path : Path} (h : path ∈ p ↔ path ∈ q) (s : Staged) (kept : Artifacts) :
    s.graphic? kept p path = s.graphic? kept q path := by
  unfold Staged.graphic?
  simp only [h]

/-- What is kept after a run depends on the changes of graphics that are needed then. -/
theorem Artifacts.commit_congr {kept : Artifacts} {s : Staged} {b : Blueprint}
    (hb : s.blueprint.or kept.blueprint = some b) (h : ∀ path ∈ b.assets, path ∈ p ↔ path ∈ q) :
    kept.commit s p = kept.commit s q := by
  have hkeep : (fun path => decide (path ∈ b.assets ∧ path ∉ p)) =
      fun path => decide (path ∈ b.assets ∧ path ∉ q) := by
    funext path
    rw [decide_eq_decide]
    exact and_congr_right fun hpath => not_congr (h path hpath)
  simp only [commit, hb, Option.map_some, Option.getD_some, hkeep]

theorem Compiler.toLoad_congr {needed : List Path} (kept : OrderedMap Path Graphic)
    (h : ∀ path ∈ needed, path ∈ p ↔ path ∈ q) : toLoad needed kept p = toLoad needed kept q := by
  refine List.filter_congr fun path hpath => ?_
  simp only [h path (List.mem_eraseDups.mp hpath)]

end Agree

namespace Compiler

variable {c : Compiler} {files : Files} {p q : List Path} {staged : Staged} {b : Blueprint}

/-! ### Changes that say the same -/

/-- The graphics that the script at hand needs: the script in the files if it is among the changes, else the
kept one. There are none if there is no such script. -/
def assetsAtHand (c : Compiler) (files : Files) (paths : List Path) : List Path :=
  let blueprint? := if c.options.layout.script ∈ paths then (c.loadBlueprint files).result.toOption
    else c.artifacts.blueprint
  (blueprint?.map (·.assets)).getD []

/-- Two lists of changes agree on the sources and on the graphics of the script at hand. -/
structure SameChanges (c : Compiler) (files : Files) (p q : List Path) : Prop where
  sources : ∀ path ∈ sources c.options.layout, path ∈ p ↔ path ∈ q
  assets : ∀ path ∈ c.assetsAtHand files p, path ∈ p ↔ path ∈ q

/-- The graphics that a run needs are those of the script at hand. -/
theorem assetsAtHand_eq {blueprint : Option Blueprint}
    (hload : (Job.onlyIf (Changes.classify p c.options.layout).script (c.loadBlueprint files)).result =
      .ok blueprint) (hb : blueprint.or c.artifacts.blueprint = some b) : c.assetsAtHand files p = b.assets := by
  rcases Job.onlyIf_or hload hb with ⟨hread, hload⟩ | ⟨hnot, hkept⟩
  · simp [assetsAtHand, of_decide_eq_true hread, hload, Except.toOption]
  · simp [assetsAtHand, of_decide_eq_false hnot, hkept]

theorem Stages.assetsAtHand_eq (hs : Stages c files (.classify p c.options.layout) staged b) :
    c.assetsAtHand files p = b.assets :=
  Compiler.assetsAtHand_eq hs.blueprint hs.current

namespace SameChanges

variable (h : SameChanges c files p q)

include h

/-- Whatever is told of the changes, the same sources are among them. -/
theorem classify_eq : Changes.classify q c.options.layout =
    { Changes.classify p c.options.layout with paths := q } := by
  have hscript := h.sources c.options.layout.script (by simp [Compiler.sources])
  have htemplate := h.sources c.options.layout.template (by simp [Compiler.sources])
  have hstylesheet := h.sources c.options.layout.stylesheet (by simp [Compiler.sources])
  simp only [Changes.classify, hscript, htemplate, hstylesheet]

end SameChanges

/-! ### A run -/

/-- The same is staged. -/
theorem stage_eq_of_sameChanges (h : SameChanges c files p q) :
    c.stage files (.classify p c.options.layout) = c.stage files (.classify q c.options.layout) := by
  rw [h.classify_eq]
  refine Job.bind_congr fun blueprint hblueprint => Job.bind_congr fun stylesheet _ => ?_
  refine Job.bind_congr fun b hb => Job.bind_congr fun css _ => Job.bind_congr fun template _ => ?_
  have hassets := assetsAtHand_eq hblueprint (available_eq_ok.mp hb)
  have hload : toLoad b.assets c.artifacts.graphics p = toLoad b.assets c.artifacts.graphics q :=
    toLoad_congr _ fun path hpath => h.assets path (hassets ▸ hpath)
  simp only [Changes.classify, hload]

/-- The same page is made. -/
theorem pageText_eq_of_agree {ch ch' : Changes} (hb : staged.blueprint.or c.artifacts.blueprint = some b)
    (hshown : ∀ path ∈ b.page.paths, path ∈ ch.paths ↔ path ∈ ch'.paths) :
    c.pageText staged ch = c.pageText staged ch' := by
  refine Job.bind_congr fun b' hb' => Job.bind_congr fun css _ => Job.bind_congr fun template _ => ?_
  obtain rfl : b = b' := Option.some.inj (hb.symm.trans (available_eq_ok.mp hb'))
  have hrender : b.page.render? (staged.graphic? c.artifacts ch.paths) =
      b.page.render? (staged.graphic? c.artifacts ch'.paths) :=
    Page.render?_congr fun path hpath => staged.graphic?_congr (hshown path hpath) c.artifacts
  rw [hrender]

variable {t : Template} {sheet css page : String} {old : Blueprint}

/-- The same is staged and made, or the same goes wrong. -/
theorem prepare_eq_of_sameChanges (hkept : Settled c old t sheet css page) (h : SameChanges c files p q) :
    c.prepare files (.classify p c.options.layout) = c.prepare files (.classify q c.options.layout) := by
  have hready : Ready c (.classify p c.options.layout) := Or.inr ⟨old, t, sheet, css, page, hkept⟩
  unfold prepare
  rw [← stage_eq_of_sameChanges h]
  refine Job.bind_congr fun staged hstaged => ?_
  obtain ⟨b, hs⟩ := stage_eq_ok.mp hstaged
  have hpage : c.pageText staged (.classify p c.options.layout) =
      c.pageText staged (.classify q c.options.layout) := by
    refine pageText_eq_of_agree hs.current fun path hpath => h.assets path ?_
    rw [hs.assetsAtHand_eq]
    exact mem_assets_of_drawn (hready.drawn hs) hpath
  rw [hpage, h.classify_eq]

variable {σ τ : Type} [Storage σ] [Storage τ] {tools : Toolchain} {options : BuildOptions} {j : Journaled σ}

/-- **Only relevant changes matter.** Take a compiler at any time after a first build, any store, and two lists
of changes that agree on the sources and on the graphics of the script at hand, whatever else is in them, in any
order and any number of times. Then the runs that are told of them do the same work, come to the same result
with the same artifacts, and leave the same store, with all that it holds and counts. -/
theorem recompile_eq_of_sameChanges (h : Reached tools options c j) {store : τ}
    (hsame : c.SameChanges (Storage.view store) p q) : c.recompile p store = c.recompile q store := by
  obtain ⟨-, -, old, t, sheet, css, page, hkept, -⟩ := h.settled
  have hprep : c.preparation p store = c.preparation q store := prepare_eq_of_sameChanges hkept hsame
  have hcharged : c.charged p store = c.charged q store := by rw [charged, charged, hprep]
  rw [recompile_eq, recompile_eq, ← hprep, ← hcharged]
  split
  case h_1 => rfl
  case h_2 => rfl
  case h_3 staged text hsome =>
    obtain ⟨hstage, -, -⟩ := prepare_eq_some.mp hsome
    obtain ⟨b, hs⟩ := stage_eq_ok.mp hstage
    rw [Artifacts.commit_congr hs.current fun path hpath => hsame.assets path (hs.assetsAtHand_eq ▸ hpath)]

end Compiler

/-- What is left of the outing when nobody comes along: the forest. -/
def Script.walk : Script where
  characters := []
  states := [⟨some "forest", [], [], none, .dismiss 0⟩]

/-- Plain tools that read an empty text as the outing, and any other as the walk. -/
def Toolchain.outingOrWalk : Toolchain where
  __ := Toolchain.plain .outing
  parse text := .ok (.bool text.isEmpty)
  map
    | .bool true => .ok .outing
    | _ => .ok .walk

namespace Compiler

/-- The script, a graphic that the outing needs and the walk does not, and one that both need. -/
def walkChanges : List Path :=
  [⟨["index.skitscript"]⟩, ⟨["backgrounds", "beach.svg"]⟩, ⟨["backgrounds", "forest.svg"]⟩]

/-- The same without the graphic of the outing, in another order, with repetitions and with a path that is
nothing to either. -/
def walkChanges' : List Path :=
  [⟨["backgrounds", "forest.svg"]⟩, ⟨["notes"]⟩, ⟨["index.skitscript"]⟩, ⟨["backgrounds", "forest.svg"]⟩]

/-- The outing was built, and its script became the walk. -/
theorem exists_walk : ∃ (c : Compiler) (j : Journaled MemoryStore), Reached .outingOrWalk {} c j ∧
    c.artifacts.graphics.contains ⟨["backgrounds", "beach.svg"]⟩ = true ∧
    c.assetsAtHand (Storage.view j.store) walkChanges = [⟨["backgrounds", "forest.svg"]⟩] ∧
    (c.recompile walkChanges j.store).result = .ok () := by
  let j : Journaled MemoryStore := ⟨.outing, []⟩
  let edited := MemoryStore.outing.put ⟨["index.skitscript"]⟩ "walk"
  exact ⟨(compile .outingOrWalk {} j).compiler, ⟨edited, (compile .outingOrWalk {} j).store.journal⟩,
    (Reached.compiled (by decide +kernel)).edited edited, by decide +kernel⟩

/-- A run that is told of the walk comes to the same whether or not it is told that a graphic of the outing changed
as well. -/
theorem recompile_eq_of_sameChanges_walk : ∃ (c : Compiler) (j : Journaled MemoryStore),
    Reached .outingOrWalk {} c j ∧
    c.artifacts.graphics.contains ⟨["backgrounds", "beach.svg"]⟩ = true ∧
    c.SameChanges (Storage.view j.store) walkChanges walkChanges' ∧
    (c.recompile walkChanges j.store).result = .ok () ∧
    c.recompile walkChanges j.store = c.recompile walkChanges' j.store := by
  obtain ⟨c, j, hreached, hbeach, hassets, hok⟩ := exists_walk
  obtain ⟨-, hoptions, -⟩ := hreached.settled
  have hsame : c.SameChanges (Storage.view j.store) walkChanges walkChanges' :=
    ⟨by rw [hoptions]; decide, by rw [hassets]; decide⟩
  exact ⟨c, j, hreached, hbeach, hsame, hok, recompile_eq_of_sameChanges hreached hsame⟩

end Compiler

end SkitPage
