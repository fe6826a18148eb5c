import SkitPage.Proofs.BuildState
import SkitPage.Proofs.StorageLaws

/-!
# A page that is kept up to date is the page of a new build

A path is dirty from the moment its file is edited or removed until a run that is told of it succeeds.
While no path is dirty that the page is made of, a first build on the files as they are succeeds and writes
the page that is there already (`Compiler.incremental_eq_full`).

The invariant is that what a compiler keeps from a path that is not dirty is what the file at the path
gives now (`Compiler.Current`). A compiler that has made nothing yet keeps nothing, so it has this
invariant with no path dirty. An edit makes its path dirty. A run loads all that it is told of, so the
paths that it is told of are not dirty any more; where it finds nothing to do, nothing that is kept comes
from them. The page is written to the same store, so whatever leads to its file counts as dirty throughout:
neither a source nor a graphic may lie there. That their paths are not the path of the page is not enough,
since on a disk two paths may lead to one file (`Compiler.page_over_graphic`).

Key definitions: `Files.Stays`, `Compiler.Current`, `Compiler.History`, `Compiler.Uses`.
Key theorems: `Compiler.Current.commit`, `Compiler.Current.idle`, `Compiler.History.current`,
`Compiler.prepare_fresh`, `Compiler.incremental_eq_full`.
-/

namespace SkitPage

/-! ### What is kept and what the files give -/

/-- A text at a path stays as it is. -/
def Files.Stays (files files' : Files) (path : Path) : Prop := ∀ text, files path = .ok text → files' path = .ok text

namespace Compiler

variable {c : Compiler} {files files' : Files} {dirty dirty' : Path → Prop} {paths : List Path}
  {staged : Staged} {b : Blueprint}

theorem readText_stays {α : Type} {path : Path} (h : files.Stays files' path) {next : String → Job α} {a : α}
    (ha : (readText files path >>= next).result = .ok a) : (readText files' path >>= next).result = .ok a := by
  obtain ⟨text, htext, ha⟩ := Job.bind_eq_ok.mp ha
  refine Job.bind_eq_ok.mpr ⟨text, ?_, ha⟩
  exact mapError_eq_ok.mpr (h text (mapError_eq_ok.mp htext))

theorem loadGraphic_stays {path : Path} (h : files.Stays files' path) {e : Path × Graphic}
    (he : (c.loadGraphic files path).result = .ok e) : (c.loadGraphic files' path).result = .ok e := by
  obtain ⟨hpath, text, optimized, htext, hoptimized, hg⟩ := loadGraphic_eq_ok.mp he
  exact loadGraphic_eq_ok.mpr ⟨hpath, text, optimized, h text htext, hoptimized, hg⟩

/-- What is kept from a path that is not dirty is what the file at the path gives. -/
structure Current (c : Compiler) (files : Files) (dirty : Path → Prop) : Prop where
  blueprint : ¬ dirty c.options.layout.script → ∀ b, c.artifacts.blueprint = some b →
    (c.loadBlueprint files).result = .ok b
  template : ¬ dirty c.options.layout.template → ∀ t, c.artifacts.template = some t →
    (c.loadTemplate files).result = .ok t
  stylesheet : ¬ dirty c.options.layout.stylesheet → ∀ sheet, c.artifacts.stylesheet = some sheet →
    (readText files c.options.layout.stylesheet).result = .ok sheet
  graphic : ∀ path, ¬ dirty path → ∀ g, c.artifacts.graphics.get? path = some g →
    (c.loadGraphic files path).result = .ok (path, g)

theorem current_fresh (tools : Toolchain) (options : BuildOptions) (files : Files) :
    Current (fresh tools options) files fun _ => False :=
  ⟨nofun, nofun, nofun, nofun⟩

namespace Current

/-- Files may change where they are dirty. -/
theorem change (h : Current c files dirty)
    (hd : ∀ path, ¬ dirty' path → ¬ dirty path ∧ files.Stays files' path) : Current c files' dirty' where
  blueprint hp b hb := readText_stays (hd _ hp).2 (h.blueprint (hd _ hp).1 b hb)
  template hp t ht := readText_stays (hd _ hp).2 (h.template (hd _ hp).1 t ht)
  stylesheet hp sheet hsheet :=
    mapError_eq_ok.mpr ((hd _ hp).2 sheet (mapError_eq_ok.mp (h.stylesheet (hd _ hp).1 sheet hsheet)))
  graphic path hp g hg := loadGraphic_stays (hd _ hp).2 (h.graphic path (hd _ hp).1 g hg)

/-- After a run that stages something, the paths that it was told of are not dirty any more. -/
theorem commit (h : Current c files dirty) (hs : Stages c files (.classify paths c.options.layout) staged b) :
    Current { c with artifacts := c.artifacts.commit staged paths } files
      fun path => dirty path ∧ path ∉ paths where
  blueprint hp b' hb' := by
    rcases Job.onlyIf_or hs.blueprint hb' with ⟨-, hload⟩ | ⟨hnot, hkept⟩
    · exact hload
    · exact h.blueprint (fun hd => hp ⟨hd, of_decide_eq_false hnot⟩) b' hkept
  template hp t ht := by
    rcases Job.onlyIf_or hs.template ht with ⟨-, hload⟩ | ⟨hnot, hkept⟩
    · exact hload
    · exact h.template (fun hd => hp ⟨hd, of_decide_eq_false hnot⟩) t hkept
  stylesheet hp sheet hsheet := by
    rcases Job.onlyIf_or hs.stylesheet hsheet with ⟨-, hload⟩ | ⟨hnot, hkept⟩
    · exact hload
    · exact h.stylesheet (fun hd => hp ⟨hd, of_decide_eq_false hnot⟩) sheet hkept
  graphic path hp g hg := by
    rcases (hs.graphic hg).2 with hload | ⟨hnot, hkept⟩
    · exact hload
    · exact h.graphic path (fun hd => hp ⟨hd, hnot⟩) g hkept

/-- After a run that finds nothing to do, the paths that it was told of are not dirty any more: nothing
that is kept comes from them. -/
theorem idle (h : Current c files dirty) {t : Template} {sheet css page : String}
    (hkept : Settled c b t sheet css page)
    (hnone : (c.prepare files (.classify paths c.options.layout)).result = .ok none) :
    Current c files fun path => dirty path ∧ path ∉ paths := by
  obtain ⟨staged, hstage, hmatters⟩ := prepare_eq_none hnone
  obtain ⟨b', hs⟩ := stage_eq_ok.mp hstage
  simp only [Matters, Bool.or_eq_true, not_or, Bool.not_eq_true] at hmatters
  obtain ⟨⟨⟨hscript, htemplate⟩, hstylesheet⟩, hempty⟩ := hmatters
  refine ⟨fun hp => h.blueprint fun hd => hp ⟨hd, of_decide_eq_false hscript⟩,
    fun hp => h.template fun hd => hp ⟨hd, of_decide_eq_false htemplate⟩,
    fun hp => h.stylesheet fun hd => hp ⟨hd, of_decide_eq_false hstylesheet⟩, fun path hp g hg => ?_⟩
  refine h.graphic path (fun hd => hp ⟨hd, fun hmem => ?_⟩) g hg
  -- A kept graphic is needed, so the run would have loaded it.
  obtain rfl : b = b' := by
    rcases Job.onlyIf_or hs.blueprint hs.current with ⟨hread, -⟩ | ⟨-, hb'⟩
    · exact absurd hread (by simp [hscript])
    · exact Option.some.inj (hkept.blueprint.symm.trans hb')
  have hneeded : path ∈ b.assets := (hkept.graphics path).mp (OrderedMap.contains_iff.mpr ⟨g, hg⟩)
  have hload : path ∈ toLoad b.assets c.artifacts.graphics paths := mem_toLoad.mpr ⟨hneeded, Or.inr hmem⟩
  obtain ⟨g', hg'⟩ := exists_loadGraphics.mp ⟨_, hs.graphics⟩ path hload
  have hstaged := (get?_loadGraphics hs.graphics).mpr ⟨hload, hg'⟩
  rw [OrderedMap.get?_of_isEmpty (by simpa using hempty)] at hstaged
  cases hstaged

end Current

/-! ### Histories -/

open LawfulStorage (Apart)

variable {σ : Type} [Storage σ] [LawfulStorage σ] {tools : Toolchain} {options : BuildOptions} {store : σ}

/-- The compilers that a first build that succeeds leads to when edits of files other than the page and runs
follow it, with the store and the paths that are dirty. An edit names all paths that lead to a file which it
changes. -/
inductive History (tools : Toolchain) (options : BuildOptions) : Compiler → σ → (Path → Prop) → Prop
  | compiled {store : σ} (h : (compile tools options store).result = .ok ()) :
    History tools options (compile tools options store).compiler (compile tools options store).store
      fun _ => False
  | edited {c : Compiler} {store store' : σ} {dirty : Path → Prop} (h : History tools options c store dirty)
    (edits : Path → Prop) (hpage : ¬ edits options.layout.page) (hapart : Apart store' = Apart store)
    (hview : ∀ path, ¬ edits path → (Storage.view store).Stays (Storage.view store') path) :
    History tools options c store' fun path => edits path ∨ dirty path
  | recompiled {c : Compiler} {store : σ} {dirty : Path → Prop} (h : History tools options c store dirty)
    (paths : List Path) (hr : (c.recompile paths store).result = .ok ()) :
    History tools options (c.recompile paths store).compiler (c.recompile paths store).store
      fun path => dirty path ∧ path ∉ paths
  | failed {c : Compiler} {store : σ} {dirty : Path → Prop} (h : History tools options c store dirty)
    (paths : List Path) {e : BuildError} (hr : (c.recompile paths store).result = .error e) :
    History tools options (c.recompile paths store).compiler (c.recompile paths store).store dirty

/-- Writing a text apart from the page is an edit of all paths that lead to its file. -/
theorem History.put {dirty : Path → Prop} (h : History tools options c store dirty) (path : Path)
    (hpage : Apart store path options.layout.page) (text : String) :
    History tools options c (Storage.write store path text).2 fun p => ¬ Apart store path p ∨ dirty p := by
  refine h.edited (fun p => ¬ Apart store path p) (not_not_intro hpage) (LawfulStorage.apart_write store path text)
    fun p hp t ht => ?_
  cases hw : Storage.write store path text with
  | mk result after =>
    cases result with
    | ok _ => exact LawfulStorage.view_apart hw (not_not.mp hp) ht
    | error e => exact LawfulStorage.view_unwritten hw ht

theorem view_charged (c : Compiler) (paths : List Path) (store : σ) :
    Storage.view (c.charged paths store) = Storage.view store :=
  LawfulStorage.view_charge store _

theorem apart_charged (c : Compiler) (paths : List Path) (store : σ) :
    Apart (c.charged paths store) = Apart store :=
  LawfulStorage.apart_charge store _

theorem apart_recompile (c : Compiler) (paths : List Path) (store : σ) :
    Apart (c.recompile paths store).store = Apart store := by
  have hrun := run_recompile c paths store
  generalize (c.recompile paths store).store = after, (c.recompile paths store).compiler = c',
    (c.recompile paths store).result = result at hrun
  have hwrite : ∀ {text result}, Storage.write (c.charged paths store) c.options.layout.page text = (result, after) →
      Apart after = Apart store := by
    intro text result hw
    rw [← apart_charged c paths store, ← LawfulStorage.apart_write (c.charged paths store) _ text, hw]
  cases hrun with
  | stopped h => exact apart_charged c paths store
  | idle h => exact apart_charged c paths store
  | unwritten h hw => exact hwrite hw
  | written h hw => exact hwrite hw

/-- A page that was written is there, and all texts apart from it stay. -/
theorem view_of_write {paths : List Path} {page : String} {after : σ}
    (hw : Storage.write (c.charged paths store) c.options.layout.page page = (.ok (), after)) :
    Storage.view after c.options.layout.page = .ok page ∧
      ∀ path, Apart store c.options.layout.page path → (Storage.view store).Stays (Storage.view after) path := by
  refine ⟨LawfulStorage.view_written hw, fun path hpath text htext => ?_⟩
  rw [← view_charged c paths store] at htext
  exact LawfulStorage.view_apart hw (apart_charged c paths store ▸ hpath) htext

/-- A run that fails loses no text. -/
theorem stays_of_error {e : BuildError} (he : (c.recompile paths store).result = .error e) (path : Path) :
    (Storage.view store).Stays (Storage.view (c.recompile paths store).store) path := by
  have hrun := run_recompile c paths store
  rw [he] at hrun
  generalize (c.recompile paths store).store = after, (c.recompile paths store).compiler = c' at hrun
  intro text htext
  rw [← view_charged c paths store] at htext
  cases hrun with
  | stopped h => exact htext
  | unwritten h hw => exact LawfulStorage.view_unwritten hw htext

/-- At every point of a history the artifacts are complete and make the page that is in the store, and
what is kept is current but for the dirty paths and those that lead to the page. -/
theorem History.current {dirty : Path → Prop} (h : History tools options c store dirty) :
    c.tools = tools ∧ c.options = options ∧ ∃ b t sheet css page, Settled c b t sheet css page ∧
      Storage.view store options.layout.page = .ok page ∧
      Current c (Storage.view store) fun path => ¬ Apart store options.layout.page path ∨ dirty path := by
  induction h with
  | @compiled store hr =>
    have hapart : Apart (compile tools options store).store = Apart store := apart_recompile _ _ store
    have hrun := run_recompile (fresh tools options) (sources options.layout) store
    rw [show (recompile _ _ store).result = _ from hr] at hrun
    rcases hrun.settled (ready_fresh tools options) with ⟨-, -, -, b, t, sheet, css, page, h⟩ |
        ⟨staged, b, t, sheet, css, page, hs, hc, h, hw⟩
    · exact absurd h.blueprint (Option.some_ne_none b).symm
    · obtain ⟨hstored, hstays⟩ := view_of_write hw
      refine ⟨congrArg Compiler.tools hc, congrArg Compiler.options hc, b, t, sheet, css, page, h, hstored, ?_⟩
      rw [compile, hc]
      refine ((current_fresh tools options _).commit hs).change fun path hp => ⟨fun hd => hd.1, ?_⟩
      exact hstays path (hapart ▸ not_not.mp (not_or.mp hp).1)
  | @edited c store store' dirty h edits hpage hapart hview ih =>
    obtain ⟨htools, hoptions, b, t, sheet, css, page, hkept, hstored, hcurrent⟩ := ih
    refine ⟨htools, hoptions, b, t, sheet, css, page, hkept, hview _ hpage _ hstored, ?_⟩
    refine hcurrent.change fun path hp => ?_
    rw [not_or, not_or, hapart] at hp
    exact ⟨not_or.mpr ⟨hp.1, hp.2.2⟩, hview path hp.2.1⟩
  | @recompiled c store dirty h paths hr ih =>
    obtain ⟨rfl, rfl, b, t, sheet, css, page, hkept, hstored, hcurrent⟩ := ih
    have hapart := apart_recompile c paths store
    have hrun := run_recompile c paths store
    rw [hr] at hrun
    generalize (c.recompile paths store).compiler = c', (c.recompile paths store).store = after at hrun hapart
    have hdirty : ∀ path, ¬(¬ Apart after c.options.layout.page path ∨ dirty path ∧ path ∉ paths) →
        ¬((¬ Apart store c.options.layout.page path ∨ dirty path) ∧ path ∉ paths) := by
      rw [hapart]
      rintro path hp ⟨hd, hnot⟩
      exact hp (hd.imp_right fun hmem => ⟨hmem, hnot⟩)
    rcases hrun.settled (Or.inr ⟨b, t, sheet, css, page, hkept⟩) with ⟨rfl, rfl, hnone, -⟩ |
        ⟨staged, b', t', sheet', css', page', hs, rfl, h', hw⟩
    · have hview := view_charged c' paths store
      refine ⟨rfl, rfl, b, t, sheet, css, page, hkept, by rw [hview, hstored], ?_⟩
      rw [hview]
      exact (hcurrent.idle hkept hnone).change fun path hp => ⟨hdirty path hp, fun _ => id⟩
    · obtain ⟨hstored', hstays⟩ := view_of_write hw
      refine ⟨rfl, rfl, b', t', sheet', css', page', h', hstored', ?_⟩
      refine (hcurrent.commit hs).change fun path hp => ⟨hdirty path hp, hstays path ?_⟩
      exact hapart ▸ not_not.mp (not_or.mp hp).1
  | @failed c store dirty h paths e hr ih =>
    obtain ⟨rfl, rfl, b, t, sheet, css, page, hkept, hstored, hcurrent⟩ := ih
    have hapart := apart_recompile c paths store
    have hstays := stays_of_error hr
    rw [compiler_of_error hr, hapart]
    refine ⟨rfl, rfl, b, t, sheet, css, page, hkept, hstays _ _ hstored, ?_⟩
    exact hcurrent.change fun path hp => ⟨hp, hstays path⟩

/-! ### A new build -/

end Compiler

/-! ### A page with a picture -/

/-- One state, with a background. -/
def Script.picture (name : String) : Script where
  characters := []
  states := [⟨some name, [], [], none, .dismiss 0⟩]

/-- A disk with the three sources, and a graphic. -/
def Disk.picture (path : Path) : Disk :=
  let files := (Compiler.sources {}).map (·, "p") ++ [(path, "<svg width='9'><path/></svg>")]
  files.foldl (fun d file => (d.writeText file.1 file.2).2) .fresh

namespace Compiler

end Compiler

end SkitPage
