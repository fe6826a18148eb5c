import SkitPage.Build.Compiler
import SkitPage.Proofs.Maps
import Mathlib.Data.List.Forall2

/-!
# What a run of a compiler can do

A run stages what the changes touch, makes the page, and writes it. This module says once what each of
these can come to, so that nothing after it has to open a run again.

A run that stages something and succeeds leaves the artifacts of `Artifacts.commit`. Each of them is made
from the files if its source changed, and is the one that was kept if not (`Job.onlyIf_or`); a graphic is
loaded if it was not kept or changed (`Compiler.Stages.graphic`), and every graphic that the script needs
is there afterwards (`Compiler.Stages.exists_graphic`).

Key definitions: `Compiler.Stages`, `Compiler.Run`.
Key theorems: `Compiler.loadGraphic_eq_ok`, `Compiler.stage_eq_ok`, `Compiler.pageText_eq_ok`,
`Compiler.prepare_eq_some`, `Compiler.run_recompile`.
-/

namespace SkitPage

/-! ### Jobs -/

namespace Job

variable {α β : Type} {j : Job α} {next : α → Job β}

@[simp] theorem result_done (r : Except BuildError α) : (done r).result = r := rfl

@[simp] theorem result_step (w : Work) (r : Except BuildError α) : (step w r).result = r := rfl

@[simp] theorem result_pure (a : α) : (pure a : Job α).result = .ok a := rfl

theorem bind_eq_ok {b : β} :
    (j >>= next).result = .ok b ↔ ∃ a, j.result = .ok a ∧ (next a).result = .ok b := by
  change (j.bind next).result = .ok b ↔ _
  unfold Job.bind
  cases h : j.result <;> simp

theorem bind_eq_error {e : BuildError} : (j >>= next).result = .error e ↔
    j.result = .error e ∨ ∃ a, j.result = .ok a ∧ (next a).result = .error e := by
  change (j.bind next).result = .error e ↔ _
  unfold Job.bind
  cases h : j.result <;> simp

theorem onlyIf_eq_ok {condition : Bool} {o : Option α} : (onlyIf condition j).result = .ok o ↔
    condition = true ∧ (∃ a, j.result = .ok a ∧ o = some a) ∨ condition = false ∧ o = none := by
  unfold onlyIf
  cases condition <;> cases h : j.result <;> simp [Except.map, eq_comm]

/-- What is at hand after a job that may have to be done was made by it, or was kept. -/
theorem onlyIf_or {condition : Bool} {o kept : Option α} (h : (onlyIf condition j).result = .ok o)
    {a : α} (ha : o.or kept = some a) :
    condition = true ∧ j.result = .ok a ∨ condition = false ∧ kept = some a := by
  rcases onlyIf_eq_ok.mp h with ⟨hc, a', hj, rfl⟩ | ⟨hc, rfl⟩
  · exact Or.inl ⟨hc, hj.trans (congrArg _ (Option.some.inj ha))⟩
  · exact Or.inr ⟨hc, ha⟩

theorem result_all_cons (j : Job α) (jobs : List (Job α)) : (all (j :: jobs)).result =
    j.result.bind fun a => (all jobs).result.map (a :: ·) := by
  change (j :: jobs).mapM (·.result) = _
  rw [List.mapM_cons]
  cases j.result <;> cases h : jobs.mapM (·.result) <;>
    simp [all, Bind.bind, Except.bind, pure, Except.pure, Except.map, h]

theorem all_eq_ok : ∀ {jobs : List (Job α)} {as : List α},
    (all jobs).result = .ok as ↔ List.Forall₂ (fun j a => j.result = .ok a) jobs as
  | [], as => by simp [all, pure, Except.pure, eq_comm]
  | j :: jobs, as => by
    have ih : ∀ as, (all jobs).result = .ok as ↔ List.Forall₂ (fun j a => j.result = .ok a) jobs as :=
      fun _ => all_eq_ok
    rw [result_all_cons, List.forall₂_cons_left_iff]
    simp only [← ih]
    cases j.result <;> cases (all jobs).result <;> simp [Except.bind, Except.map, eq_comm]

end Job

theorem mapError_eq_ok {ε ε' α : Type} {f : ε → ε'} {x : Except ε α} {a : α} :
    x.mapError f = .ok a ↔ x = .ok a := by
  cases x <;> simp [Except.mapError]

namespace Compiler

variable {c : Compiler} {files : Files} {ch : Changes} {staged : Staged}

/-! ### Graphics -/

theorem mem_toLoad {needed : List Path} {kept : OrderedMap Path Graphic} {changed : List Path} {path : Path} :
    path ∈ toLoad needed kept changed ↔ path ∈ needed ∧ (kept.get? path = none ∨ path ∈ changed) := by
  simp [toLoad, OrderedMap.contains, List.mem_eraseDups]

theorem makeGraphic_eq_ok {path : Path} {text : String} {g : Graphic} :
    (c.makeGraphic path text).result = .ok g ↔
      ∃ optimized, c.tools.optimize text = .ok optimized ∧ Markup.split optimized = .ok g := by
  simp only [makeGraphic, Job.bind_eq_ok, Job.result_step, Job.result_done, mapError_eq_ok]

/-- A graphic is loaded just if its text can be read, the optimiser takes it and what it gives can be
split. -/
theorem loadGraphic_eq_ok {path : Path} {e : Path × Graphic} : (c.loadGraphic files path).result = .ok e ↔
    e.1 = path ∧ ∃ text optimized, files path = .ok text ∧ c.tools.optimize text = .ok optimized ∧
      Markup.split optimized = .ok e.2 := by
  simp only [loadGraphic, readGraphic, Job.bind_eq_ok, makeGraphic_eq_ok, Job.result_step, Job.result_pure,
    mapError_eq_ok, Except.ok.injEq]
  constructor
  · rintro ⟨text, htext, g, ⟨optimized, hoptimized, hg⟩, rfl⟩
    exact ⟨rfl, text, optimized, htext, hoptimized, hg⟩
  · rintro ⟨rfl, text, optimized, htext, hoptimized, hg⟩
    exact ⟨text, htext, e.2, ⟨optimized, hoptimized, hg⟩, rfl⟩

theorem path_of_loadGraphic {path : Path} {e : Path × Graphic} (h : (c.loadGraphic files path).result = .ok e) :
    e.1 = path :=
  (loadGraphic_eq_ok.mp h).1

/-- A build loads a graphic as it is loaded alone; only the errors are worded for the build. -/
theorem result_loadGraphic (path : Path) : (c.loadGraphic files path).result =
    ((Graphic.load files c.tools.optimize path).map (path, ·)).mapError (.ofGraphic path) := by
  simp only [loadGraphic, readGraphic, makeGraphic, Graphic.load, Graphic.ofText, Bind.bind, Job.bind,
    Except.bind, Job.result_step]
  cases files path with
  | error e => rfl
  | ok text =>
    simp only [Except.mapError]
    cases c.tools.optimize text with
    | error f => rfl
    | ok optimized =>
      simp only [Job.result_done]
      cases Markup.split optimized <;> rfl

theorem loadGraphics_eq_ok {paths : List Path} {m : OrderedMap Path Graphic} :
    (c.loadGraphics files paths).result = .ok m ↔ ∃ loaded,
      List.Forall₂ (fun path e => (c.loadGraphic files path).result = .ok e) paths loaded ∧
        .ofList loaded = m := by
  simp only [loadGraphics, Job.bind_eq_ok, Job.all_eq_ok, List.forall₂_map_left_iff, Job.result_pure,
    Except.ok.injEq]

/-- The graphics that were loaded are those at the given paths. -/
theorem get?_loadGraphics {paths : List Path} {m : OrderedMap Path Graphic}
    (h : (c.loadGraphics files paths).result = .ok m) {path : Path} {g : Graphic} :
    m.get? path = some g ↔ path ∈ paths ∧ (c.loadGraphic files path).result = .ok (path, g) := by
  obtain ⟨loaded, hall, rfl⟩ := loadGraphics_eq_ok.mp h
  have hmem : ∀ {path g}, (path, g) ∈ loaded ↔
      path ∈ paths ∧ (c.loadGraphic files path).result = .ok (path, g) := by
    intro path g
    clear h
    induction hall with
    | nil => simp
    | cons hhead htail ih =>
      have hpath := path_of_loadGraphic hhead
      grind
  rw [OrderedMap.get?_ofList_iff, hmem]
  intro k v v' hv hv'
  have heq := (hmem.mp hv).2.symm.trans (hmem.mp hv').2
  exact congrArg Prod.snd (Except.ok.inj heq)

/-- Graphics are loaded if each of them is. -/
theorem exists_loadGraphics {paths : List Path} : (∃ m, (c.loadGraphics files paths).result = .ok m) ↔
    ∀ path ∈ paths, ∃ g, (c.loadGraphic files path).result = .ok (path, g) := by
  simp only [loadGraphics_eq_ok, ↓existsAndEq, and_true]
  induction paths with
  | nil => simp
  | cons path paths ih =>
    simp only [List.forall₂_cons_left_iff, List.forall_mem_cons, ← ih]
    constructor
    · rintro ⟨_, ⟨p, g⟩, loaded, hg, hall, rfl⟩
      obtain rfl : p = path := path_of_loadGraphic hg
      exact ⟨⟨g, hg⟩, loaded, hall⟩
    · rintro ⟨⟨g, hg⟩, loaded, hall⟩
      exact ⟨_, (path, g), loaded, hg, hall, rfl⟩

/-! ### Staging -/

theorem available_eq_ok {α : Type} {made kept : Option α} {artifact : Artifact} {a : α} :
    (available made kept artifact).result = .ok a ↔ made.or kept = some a := by
  unfold available
  cases made.or kept <;> simp

/-- What a run stages: each artifact whose source changed, and the graphics that the blueprint at hand
needs and that are not kept or changed. -/
structure Stages (c : Compiler) (files : Files) (ch : Changes) (staged : Staged) (b : Blueprint) : Prop where
  blueprint : (Job.onlyIf ch.script (c.loadBlueprint files)).result = .ok staged.blueprint
  stylesheet :
    (Job.onlyIf ch.stylesheet (readText files c.options.layout.stylesheet)).result = .ok staged.stylesheet
  current : staged.blueprint.or c.artifacts.blueprint = some b
  css : (Job.onlyIf (ch.script || ch.stylesheet) (do
    let source ← available staged.stylesheet c.artifacts.stylesheet .stylesheet
    c.compileCss source b.fragment)).result = .ok staged.css
  template : (Job.onlyIf ch.template (c.loadTemplate files)).result = .ok staged.template
  graphics :
    (c.loadGraphics files (toLoad b.assets c.artifacts.graphics ch.paths)).result = .ok staged.graphics

theorem stage_eq_ok : (c.stage files ch).result = .ok staged ↔ ∃ b, Stages c files ch staged b := by
  simp only [stage, Job.bind_eq_ok, available_eq_ok, Job.result_pure, Except.ok.injEq]
  constructor
  · rintro ⟨blueprint, h₁, stylesheet, h₂, b, h₃, css, h₄, template, h₅, graphics, h₆, rfl⟩
    exact ⟨b, h₁, h₂, h₃, h₄, h₅, h₆⟩
  · rintro ⟨b, h₁, h₂, h₃, h₄, h₅, h₆⟩
    exact ⟨_, h₁, _, h₂, b, h₃, _, h₄, _, h₅, _, h₆, rfl⟩

namespace Stages

variable {b : Blueprint} (h : Stages c files ch staged b)

include h

theorem graphics_commit (path : Path) : (c.artifacts.commit staged ch.paths).graphics.get? path =
    (staged.graphics.get? path).or
      (if path ∈ b.assets ∧ path ∉ ch.paths then c.artifacts.graphics.get? path else none) := by
  simp only [Artifacts.commit, h.current, Option.map_some, Option.getD_some]
  rw [OrderedMap.get?_absorb, OrderedMap.get?_filterKeys]
  simp only [decide_eq_true_eq]

/-- A graphic that is kept after a run was loaded in it, or was kept before and did not change. -/
theorem graphic {path : Path} {g : Graphic}
    (hg : (c.artifacts.commit staged ch.paths).graphics.get? path = some g) :
    path ∈ b.assets ∧ ((c.loadGraphic files path).result = .ok (path, g) ∨
      path ∉ ch.paths ∧ c.artifacts.graphics.get? path = some g) := by
  rw [h.graphics_commit, Option.or_eq_some_iff] at hg
  rcases hg with hg | ⟨-, hg⟩
  · obtain ⟨hmem, hload⟩ := (get?_loadGraphics h.graphics).mp hg
    exact ⟨(mem_toLoad.mp hmem).1, Or.inl hload⟩
  · split at hg
    · rename_i hpath
      exact ⟨hpath.1, Or.inr ⟨hpath.2, hg⟩⟩
    · cases hg

/-- The page is given the graphics that are kept after the run. -/
theorem graphic?_eq {path : Path} (hpath : path ∈ b.assets) :
    staged.graphic? c.artifacts ch.paths path =
      (c.artifacts.commit staged ch.paths).graphics.get? path := by
  rw [h.graphics_commit]
  unfold Staged.graphic?
  cases staged.graphics.get? path with
  | some g => rfl
  | none => by_cases hch : path ∈ ch.paths <;> simp [hpath, hch]

/-- After a run every graphic that the script needs is kept. -/
theorem exists_graphic {path : Path} (hpath : path ∈ b.assets) :
    ∃ g, (c.artifacts.commit staged ch.paths).graphics.get? path = some g := by
  by_cases hload : path ∈ toLoad b.assets c.artifacts.graphics ch.paths
  · obtain ⟨g, hg⟩ := exists_loadGraphics.mp ⟨_, h.graphics⟩ path hload
    have hstaged := (get?_loadGraphics h.graphics).mpr ⟨hload, hg⟩
    rw [h.graphics_commit, hstaged]
    exact ⟨g, Option.some_or⟩
  · rw [mem_toLoad, not_and_or, not_or] at hload
    obtain ⟨hkept, hch⟩ := hload.resolve_left (not_not_intro hpath)
    obtain ⟨g, hg⟩ := Option.ne_none_iff_exists'.mp hkept
    rw [h.graphics_commit, if_pos ⟨hpath, hch⟩, hg]
    cases staged.graphics.get? path <;> simp

end Stages

end Compiler

/-! ### The page -/

/-- Tools make a page of a blueprint, a template, a plain stylesheet and graphics: the page is rendered
and made small. -/
def Toolchain.Makes (tools : Toolchain) (b : Blueprint) (t : Template) (css : String)
    (graphics : Path → Option Graphic) (page : String) : Prop :=
  ∃ rendering html, b.page.render? graphics = some rendering ∧
    t.render (rendering.context b.page.scenes css) = .ok html ∧ tools.minifyMarkup html = .ok page

namespace Compiler

variable {c : Compiler} {files : Files} {ch : Changes} {staged : Staged}

theorem pageText_eq_ok {page : String} : (c.pageText staged ch).result = .ok page ↔ ∃ b css t,
    staged.blueprint.or c.artifacts.blueprint = some b ∧ staged.css.or c.artifacts.css = some css ∧
      staged.template.or c.artifacts.template = some t ∧
        c.tools.Makes b t css (staged.graphic? c.artifacts ch.paths) page := by
  simp only [pageText, Job.bind_eq_ok, available_eq_ok, Toolchain.Makes]
  constructor
  · rintro ⟨b, hb, css, hcss, t, ht, h⟩
    refine ⟨b, css, t, hb, hcss, ht, ?_⟩
    split at h
    · simp at h
    · rename_i rendering hr
      simpa [Job.bind_eq_ok, mapError_eq_ok, hr] using h
  · rintro ⟨b, css, t, hb, hcss, ht, rendering, html, hr, hh, hm⟩
    refine ⟨b, hb, css, hcss, t, ht, ?_⟩
    simpa [Job.bind_eq_ok, mapError_eq_ok, hr] using ⟨html, hh, hm⟩

/-- Something was done, so that the page has to be written. -/
def Matters (ch : Changes) (staged : Staged) : Prop :=
  (ch.script || ch.template || ch.stylesheet || !staged.graphics.isEmpty) = true

theorem prepare_eq_some {page : String} : (c.prepare files ch).result = .ok (some (staged, page)) ↔
    (c.stage files ch).result = .ok staged ∧ Matters ch staged ∧ (c.pageText staged ch).result = .ok page := by
  simp only [prepare, Job.bind_eq_ok]
  constructor
  · rintro ⟨staged', hs, h⟩
    split at h
    · rename_i hmatters
      obtain ⟨page', hp, heq⟩ := Job.bind_eq_ok.mp h
      cases heq
      exact ⟨hs, hmatters, hp⟩
    · simp at h
  · rintro ⟨hs, hmatters, hp⟩
    unfold Matters at hmatters
    refine ⟨staged, hs, ?_⟩
    rw [if_pos hmatters]
    exact Job.bind_eq_ok.mpr ⟨page, hp, rfl⟩

theorem prepare_eq_none (h : (c.prepare files ch).result = .ok none) :
    ∃ staged, (c.stage files ch).result = .ok staged ∧ ¬ Matters ch staged := by
  simp only [prepare, Job.bind_eq_ok] at h
  obtain ⟨staged, hs, h⟩ := h
  split at h
  · obtain ⟨page, -, heq⟩ := Job.bind_eq_ok.mp h
    cases heq
  · exact ⟨staged, hs, by assumption⟩

theorem prepare_eq_error {e : BuildError} (h : (c.prepare files ch).result = .error e) :
    (c.stage files ch).result = .error e ∨
      ∃ staged, (c.stage files ch).result = .ok staged ∧ (c.pageText staged ch).result = .error e := by
  simp only [prepare, Job.bind_eq_error] at h
  rcases h with h | ⟨staged, hs, h⟩
  · exact Or.inl h
  · split at h
    · rcases Job.bind_eq_error.mp h with h | ⟨page, -, heq⟩
      · exact Or.inr ⟨staged, hs, h⟩
      · cases heq
    · cases h

/-! ### Runs -/

variable {σ : Type} [Storage σ]

/-- The reading half of a run. -/
def preparation (c : Compiler) (paths : List Path) (store : σ) : Job (Option (Staged × String)) :=
  c.prepare (Storage.view store) (.classify paths c.options.layout)

/-- The store after the reading half of a run. -/
def charged (c : Compiler) (paths : List Path) (store : σ) : σ :=
  Storage.charge store (Work.readPaths (c.preparation paths store).log)

/-- What a run does to the store and to the compiler, and what comes out of it. -/
inductive Run (c : Compiler) (paths : List Path) (store : σ) : σ → Compiler → Except BuildError Unit → Prop
  | stopped {e : BuildError} (h : (c.preparation paths store).result = .error e) :
    Run c paths store (c.charged paths store) c (.error e)
  | idle (h : (c.preparation paths store).result = .ok none) :
    Run c paths store (c.charged paths store) c (.ok ())
  | unwritten {staged : Staged} {page : String} {e : IoError} {after : σ}
    (h : (c.preparation paths store).result = .ok (some (staged, page)))
    (hw : Storage.write (c.charged paths store) c.options.layout.page page = (.error e, after)) :
    Run c paths store after c (.error (.io c.options.layout.page .write e))
  | written {staged : Staged} {page : String} {after : σ}
    (h : (c.preparation paths store).result = .ok (some (staged, page)))
    (hw : Storage.write (c.charged paths store) c.options.layout.page page = (.ok (), after)) :
    Run c paths store after { c with artifacts := c.artifacts.commit staged paths } (.ok ())

theorem recompile_eq (c : Compiler) (paths : List Path) (store : σ) : c.recompile paths store =
    match (c.preparation paths store).result with
    | .error e => ⟨(c.preparation paths store).log, c.charged paths store, c, .error e⟩
    | .ok none => ⟨(c.preparation paths store).log, c.charged paths store, c, .ok ()⟩
    | .ok (some (staged, page)) =>
      match Storage.write (c.charged paths store) c.options.layout.page page with
      | (.error e, after) => ⟨(c.preparation paths store).log ++ [.write c.options.layout.page], after, c,
          .error (.io c.options.layout.page .write e)⟩
      | (.ok _, after) => ⟨(c.preparation paths store).log ++ [.write c.options.layout.page], after,
          { c with artifacts := c.artifacts.commit staged paths }, .ok ()⟩ := rfl

theorem run_recompile (c : Compiler) (paths : List Path) (store : σ) :
    Run c paths store (c.recompile paths store).store (c.recompile paths store).compiler
      (c.recompile paths store).result := by
  rw [recompile_eq]
  split
  case h_1 e h => exact .stopped h
  case h_2 h => exact .idle h
  case h_3 staged page h =>
    split
    case h_1 e after hw => exact .unwritten h hw
    case h_2 after hw => exact .written h hw

/-- A run that fails drops what it has staged. -/
theorem compiler_of_error {c : Compiler} {paths : List Path} {store : σ} {e : BuildError}
    (he : (c.recompile paths store).result = .error e) : (c.recompile paths store).compiler = c := by
  have hrun := run_recompile c paths store
  rw [he] at hrun
  generalize (c.recompile paths store).store = after, (c.recompile paths store).compiler = c' at hrun
  cases hrun <;> rfl

/-- A run keeps its options. -/
theorem options_recompile (c : Compiler) (paths : List Path) (store : σ) :
    (c.recompile paths store).compiler.options = c.options := by
  have hrun := run_recompile c paths store
  generalize (c.recompile paths store).store = after, (c.recompile paths store).compiler = c',
    (c.recompile paths store).result = result at hrun
  cases hrun <;> rfl

end Compiler

end SkitPage
