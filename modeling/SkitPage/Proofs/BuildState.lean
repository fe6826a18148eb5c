import SkitPage.Proofs.Faults
import SkitPage.Proofs.Stages
import SkitPage.Storage.Memory
import SkitPage.Toolchain.Rehearsal

/-!
# What a compiler keeps between runs

After a first build that succeeds, the artifacts of a compiler stay complete and fit together, whatever
runs follow: each of them may be told of any changes, find any files, and succeed or fail
(`Compiler.artifacts_settled`). The page that was written last is the one that they make, and no run fails
for want of an artifact.

The argument is one step. A run that has all its artifacts kept, or makes all of them anew, does not lack
one (`Compiler.Ready.supplied_prepare`), and leaves a complete set if it succeeds
(`Compiler.Ready.settled`). For the graphics this rests on a page showing only what its script names.

Key definitions: `Page.paths`, `Job.Supplied`, `Compiler.Settled`, `Compiler.Ready`, `Journaled`,
`Compiler.Reached`.
Key theorems: `Compiler.Ready.settled`, `Compiler.Ready.supplied_prepare`, `Compiler.artifacts_settled`.
-/

namespace SkitPage

/-! ### The graphics of a page -/

namespace Page

/-- The paths of all graphics that a page shows. -/
def paths (p : Page) : List Path :=
  p.backdrops.map (·.path) ++ p.actors.flatMap fun a => a.faces.map (·.path)

theorem paths_ofScript (s : Script) (n : Naming) : (ofScript s n).paths = s.assets := by
  simp [paths, ofScript, Script.assets, List.flatMap_map, Function.comp_def, backdrop, actor, face]

theorem mapM_option_congr {α β : Type} {f g : α → Option β} :
    ∀ {xs : List α}, (∀ x ∈ xs, f x = g x) → xs.mapM f = xs.mapM g
  | [], _ => rfl
  | x :: xs, h => by
    rw [List.mapM_cons, List.mapM_cons, h x List.mem_cons_self,
      mapM_option_congr fun y hy => h y (List.mem_cons_of_mem _ hy)]

theorem exists_mapM_option {α β : Type} {f : α → Option β} :
    ∀ {xs : List α}, (∀ x ∈ xs, ∃ y, f x = some y) → ∃ ys, xs.mapM f = some ys
  | [], _ => ⟨[], rfl⟩
  | x :: xs, h => by
    obtain ⟨y, hy⟩ := h x List.mem_cons_self
    obtain ⟨ys, hys⟩ := exists_mapM_option fun y hy => h y (List.mem_cons_of_mem _ hy)
    exact ⟨y :: ys, by simp [List.mapM_cons, hy, hys]⟩

variable {p : Page} {f g : Path → Option Graphic}

theorem mem_paths_of_backdrop {b : Backdrop} (h : b ∈ p.backdrops) : b.path ∈ p.paths :=
  List.mem_append_left _ (List.mem_map_of_mem h)

theorem mem_paths_of_face {a : Actor} (ha : a ∈ p.actors) {face : Face} (h : face ∈ a.faces) :
    face.path ∈ p.paths :=
  List.mem_append_right _ (List.mem_flatMap.mpr ⟨a, ha, List.mem_map_of_mem h⟩)

/-- An actor with its graphics in place, if all are there. -/
def dressed? (g : Path → Option Graphic) (a : Actor) : Option RenderedActor :=
  (a.faces.mapM fun f => placed? g f.path f.attributes).bind fun faces => some ⟨a.attributes, faces⟩

theorem render?_eq (p : Page) (g : Path → Option Graphic) : p.render? g =
    (p.backdrops.mapM fun b => placed? g b.path b.attributes).bind fun backdrops =>
      (p.actors.mapM (dressed? g)).bind fun actors => some ⟨backdrops, actors⟩ := rfl

/-- Only the graphics that a page shows matter to it. -/
theorem render?_congr (h : ∀ path ∈ p.paths, f path = g path) : p.render? f = p.render? g := by
  have hplaced : ∀ path ∈ p.paths, ∀ a, placed? f path a = placed? g path a := fun path hpath a => by
    rw [placed?, placed?, h path hpath]
  have hactors : ∀ a ∈ p.actors, dressed? f a = dressed? g a := fun a ha => by
    rw [dressed?, dressed?, mapM_option_congr fun face hf => hplaced _ (mem_paths_of_face ha hf) _]
  rw [render?_eq, render?_eq, mapM_option_congr fun b hb => hplaced _ (mem_paths_of_backdrop hb) _,
    mapM_option_congr hactors]

/-- A page can be rendered if all graphics that it shows are there. -/
theorem exists_render? (h : ∀ path ∈ p.paths, ∃ x, g path = some x) : ∃ r, p.render? g = some r := by
  have hplaced : ∀ path ∈ p.paths, ∀ a, ∃ x, placed? g path a = some x := fun path hpath a => by
    obtain ⟨x, hx⟩ := h path hpath
    exact ⟨_, by rw [placed?, hx, Option.map_some]⟩
  have hactors : ∀ a ∈ p.actors, ∃ x, dressed? g a = some x := fun a ha => by
    obtain ⟨faces, hf⟩ := exists_mapM_option fun f hf => hplaced _ (mem_paths_of_face ha hf) f.attributes
    exact ⟨_, by rw [dressed?, hf, Option.bind_some]⟩
  obtain ⟨backdrops, hb⟩ := exists_mapM_option fun b hb => hplaced _ (mem_paths_of_backdrop hb) b.attributes
  obtain ⟨actors, ha⟩ := exists_mapM_option hactors
  exact ⟨_, by rw [render?_eq, hb, ha, Option.bind_some, Option.bind_some]⟩

end Page

/-! ### Jobs that lack nothing -/

namespace Job

variable {α β ε : Type}

/-- A job does not fail for want of an artifact. -/
def Supplied (j : Job α) : Prop := ∀ artifact, j.result ≠ .error (.missing artifact)

theorem supplied_ok {j : Job α} {a : α} (h : j.result = .ok a) : j.Supplied := fun artifact he => by
  rw [h] at he
  cases he

theorem supplied_bind {j : Job α} {next : α → Job β} (hj : j.Supplied)
    (hn : ∀ a, j.result = .ok a → (next a).Supplied) : (j >>= next).Supplied := by
  intro artifact he
  rcases bind_eq_error.mp he with he | ⟨a, ha, he⟩
  · exact hj artifact he
  · exact hn a ha artifact he

/-- A tool reports its own failures. -/
theorem supplied_done {x : Except ε α} {f : ε → BuildError} (h : ∀ e artifact, f e ≠ .missing artifact) :
    (done (x.mapError f)).Supplied := by
  intro artifact he
  cases x with
  | ok a => cases he
  | error e => exact h e artifact (Except.error.inj he)

theorem supplied_step {w : Work} {x : Except ε α} {f : ε → BuildError}
    (h : ∀ e artifact, f e ≠ .missing artifact) : (step w (x.mapError f)).Supplied :=
  supplied_done h

theorem supplied_onlyIf {condition : Bool} {j : Job α} (h : condition = true → j.Supplied) :
    (onlyIf condition j).Supplied := by
  intro artifact he
  unfold onlyIf at he
  split at he
  · rename_i hc
    cases hj : j.result with
    | ok a => simp [hj, Except.map] at he
    | error e =>
      simp only [hj, Except.map, Except.error.injEq] at he
      exact h hc artifact (he ▸ hj)
  · cases he

theorem supplied_all : ∀ {jobs : List (Job α)}, (∀ j ∈ jobs, j.Supplied) → (all jobs).Supplied
  | [], _ => supplied_ok rfl
  | j :: jobs, h => by
    intro artifact he
    have ih := supplied_all fun j' hj' => h j' (List.mem_cons_of_mem _ hj')
    rw [result_all_cons] at he
    cases hj : j.result with
    | error e =>
      simp only [hj, Except.bind, Except.error.injEq] at he
      exact h j List.mem_cons_self artifact (he ▸ hj)
    | ok a =>
      cases hr : (all jobs).result with
      | error e =>
        simp only [hj, hr, Except.bind, Except.map, Except.error.injEq] at he
        exact ih artifact (he ▸ hr)
      | ok as => simp [hj, hr, Except.bind, Except.map] at he

/-- Where a job that need not be done has a kept result in its place, there is one. -/
theorem exists_onlyIf_or {condition : Bool} {j : Job α} {o kept : Option α}
    (h : (onlyIf condition j).result = .ok o) (hk : condition = false → ∃ a, kept = some a) :
    ∃ a, o.or kept = some a := by
  rcases onlyIf_eq_ok.mp h with ⟨-, a, -, rfl⟩ | ⟨hc, rfl⟩
  · exact ⟨a, rfl⟩
  · exact hk hc

end Job

namespace Compiler

variable {c : Compiler} {files : Files} {ch : Changes} {staged : Staged}

theorem supplied_available {α : Type} {made kept : Option α} {artifact : Artifact}
    (h : ∃ a, made.or kept = some a) : (available made kept artifact).Supplied := by
  obtain ⟨a, ha⟩ := h
  exact Job.supplied_ok (available_eq_ok.mpr ha)

theorem supplied_readText (path : Path) : (readText files path).Supplied :=
  Job.supplied_step fun _ _ => nofun

theorem supplied_loadBlueprint : (c.loadBlueprint files).Supplied := by
  refine Job.supplied_bind (supplied_readText _) fun text _ => ?_
  refine Job.supplied_bind (Job.supplied_step fun _ _ => nofun) fun tree _ => ?_
  refine Job.supplied_bind (Job.supplied_step fun _ _ => nofun) fun script _ => ?_
  exact Job.supplied_done fun _ _ => nofun

theorem supplied_compileCss (sheet fragment : String) : (c.compileCss sheet fragment).Supplied := by
  refine Job.supplied_bind (Job.supplied_step fun _ _ => nofun) fun css _ => ?_
  split
  · exact Job.supplied_done fun _ _ => nofun
  · exact Job.supplied_ok rfl

theorem supplied_loadTemplate : (c.loadTemplate files).Supplied :=
  Job.supplied_bind (supplied_readText _) fun _ _ => Job.supplied_step fun _ _ => nofun

theorem ofGraphic_ne_missing (path : Path) (e : GraphicError) (artifact : Artifact) :
    BuildError.ofGraphic path e ≠ .missing artifact := by
  cases e <;> simp [BuildError.ofGraphic]

theorem supplied_loadGraphic (path : Path) : (c.loadGraphic files path).Supplied := by
  refine Job.supplied_bind (Job.supplied_step fun e => ofGraphic_ne_missing path _) fun text _ => ?_
  refine Job.supplied_bind ?_ fun g _ => Job.supplied_ok rfl
  refine Job.supplied_bind (Job.supplied_step fun f => ofGraphic_ne_missing path _) fun optimized _ => ?_
  exact Job.supplied_done fun f => ofGraphic_ne_missing path _

theorem supplied_loadGraphics (paths : List Path) : (c.loadGraphics files paths).Supplied := by
  refine Job.supplied_bind (Job.supplied_all fun j hj => ?_) fun loaded _ => Job.supplied_ok rfl
  obtain ⟨path, -, rfl⟩ := List.mem_map.mp hj
  exact supplied_loadGraphic path

/-! ### Complete artifacts -/

/-- A compiler keeps a blueprint, a template, the text of the stylesheet and a plain stylesheet, which fit
together, and just the graphics that the blueprint needs; and they make a page. -/
structure Settled (c : Compiler) (b : Blueprint) (t : Template) (sheet css page : String) : Prop where
  blueprint : c.artifacts.blueprint = some b
  template : c.artifacts.template = some t
  stylesheet : c.artifacts.stylesheet = some sheet
  plain : c.artifacts.css = some css
  /-- The plain stylesheet is made of the text and the rules of the blueprint. -/
  compiled : (c.compileCss sheet b.fragment).result = .ok css
  graphics : ∀ path, c.artifacts.graphics.contains path = true ↔ path ∈ b.assets
  makes : c.tools.Makes b t css c.artifacts.graphics.get? page
  /-- The blueprint is that of a script. -/
  drawn : ∃ s, Blueprint.ofScript s = .ok b

/-- Before a run, either all sources are about to be read, or all artifacts are there. -/
def Ready (c : Compiler) (ch : Changes) : Prop :=
  (ch.script = true ∧ ch.template = true ∧ ch.stylesheet = true) ∨
    ∃ b t sheet css page, Settled c b t sheet css page

theorem loadBlueprint_eq_ok {b : Blueprint} (h : (c.loadBlueprint files).result = .ok b) :
    ∃ s, Blueprint.ofScript s = .ok b := by
  simp only [loadBlueprint, Job.bind_eq_ok, Job.result_done, mapError_eq_ok] at h
  obtain ⟨-, -, -, -, s, -, hs⟩ := h
  exact ⟨s, hs⟩

theorem mem_assets_of_drawn {b : Blueprint} (h : ∃ s, Blueprint.ofScript s = .ok b) {path : Path}
    (hpath : path ∈ b.page.paths) : path ∈ b.assets := by
  obtain ⟨s, hs⟩ := h
  obtain ⟨-, l, -, rfl⟩ := Blueprint.ofScript_eq_ok.mp hs
  change path ∈ s.assets
  rw [← Page.paths_ofScript s (s.naming l)]
  exact hpath

namespace Ready

variable (hr : Ready c ch)

include hr

/-- Where a source is not about to be read, everything is kept. -/
theorem kept (h : ch.script = false ∨ ch.template = false ∨ ch.stylesheet = false) :
    ∃ b t sheet css page, Settled c b t sheet css page := by
  rcases hr with ⟨h₁, h₂, h₃⟩ | hkept
  · simp [h₁, h₂, h₃] at h
  · exact hkept

theorem drawn {b : Blueprint} (hs : Stages c files ch staged b) : ∃ s, Blueprint.ofScript s = .ok b := by
  rcases Job.onlyIf_or hs.blueprint hs.current with ⟨-, hload⟩ | ⟨hscript, hkept⟩
  · exact loadBlueprint_eq_ok hload
  · obtain ⟨b', t, sheet, css, page, h⟩ := hr.kept (Or.inl hscript)
    obtain rfl : b = b' := Option.some.inj (hkept.symm.trans h.blueprint)
    exact h.drawn

/-- A run that is ready does not lack anything while it stages. -/
theorem supplied_stage : (c.stage files ch).Supplied := by
  refine Job.supplied_bind (Job.supplied_onlyIf fun _ => supplied_loadBlueprint) fun blueprint hb => ?_
  refine Job.supplied_bind (Job.supplied_onlyIf fun _ => supplied_readText _) fun stylesheet hsheet => ?_
  have hblueprint : ∃ b, blueprint.or c.artifacts.blueprint = some b :=
    Job.exists_onlyIf_or hb fun hscript => by
      obtain ⟨b, _, _, _, _, h⟩ := hr.kept (Or.inl hscript)
      exact ⟨b, h.blueprint⟩
  have hsource : ∃ source, stylesheet.or c.artifacts.stylesheet = some source :=
    Job.exists_onlyIf_or hsheet fun hstylesheet => by
      obtain ⟨_, _, sheet, _, _, h⟩ := hr.kept (Or.inr (Or.inr hstylesheet))
      exact ⟨sheet, h.stylesheet⟩
  refine Job.supplied_bind (supplied_available hblueprint) fun b _ => ?_
  refine Job.supplied_bind (Job.supplied_onlyIf fun _ => ?_) fun css _ => ?_
  · exact Job.supplied_bind (supplied_available hsource) fun source _ => supplied_compileCss source b.fragment
  refine Job.supplied_bind (Job.supplied_onlyIf fun _ => supplied_loadTemplate) fun template _ => ?_
  exact Job.supplied_bind (supplied_loadGraphics _) fun graphics _ => Job.supplied_ok rfl

/-- A run that is ready does not lack anything while it makes the page. -/
theorem supplied_pageText {b : Blueprint} (hs : Stages c files ch staged b) :
    (c.pageText staged ch).Supplied := by
  have hcss : ∃ css, staged.css.or c.artifacts.css = some css :=
    Job.exists_onlyIf_or hs.css fun hnone => by
      obtain ⟨_, _, _, css, _, h⟩ := hr.kept (Or.inl (Bool.or_eq_false_iff.mp hnone).1)
      exact ⟨css, h.plain⟩
  have htemplate : ∃ t, staged.template.or c.artifacts.template = some t :=
    Job.exists_onlyIf_or hs.template fun hnone => by
      obtain ⟨_, t, _, _, _, h⟩ := hr.kept (Or.inr (Or.inl hnone))
      exact ⟨t, h.template⟩
  refine Job.supplied_bind (supplied_available ⟨b, hs.current⟩) fun b' hb' => ?_
  obtain rfl : b = b' := Option.some.inj (hs.current.symm.trans (available_eq_ok.mp hb'))
  refine Job.supplied_bind (supplied_available hcss) fun css _ => ?_
  refine Job.supplied_bind (supplied_available htemplate) fun t _ => ?_
  obtain ⟨r, hrender⟩ : ∃ r, b.page.render? (staged.graphic? c.artifacts ch.paths) = some r := by
    refine Page.exists_render? fun path hpath => ?_
    have hmem := mem_assets_of_drawn (hr.drawn hs) hpath
    rw [hs.graphic?_eq hmem]
    exact hs.exists_graphic hmem
  rw [hrender]
  exact Job.supplied_bind (Job.supplied_step fun _ _ => nofun) fun html _ =>
    Job.supplied_step fun _ _ => nofun

theorem supplied_prepare : (c.prepare files ch).Supplied := by
  intro artifact he
  rcases prepare_eq_error he with he | ⟨staged, hstage, he⟩
  · exact hr.supplied_stage artifact he
  · obtain ⟨b, hs⟩ := stage_eq_ok.mp hstage
    exact hr.supplied_pageText hs artifact he

/-- The plain stylesheet at hand is made of the text of the stylesheet at hand and the rules of the
blueprint at hand. -/
theorem compiled {b : Blueprint} (hs : Stages c files ch staged b) {css : String}
    (hcss : staged.css.or c.artifacts.css = some css) :
    ∃ sheet, staged.stylesheet.or c.artifacts.stylesheet = some sheet ∧
      (c.compileCss sheet b.fragment).result = .ok css := by
  rcases Job.onlyIf_or hs.css hcss with ⟨-, hmade⟩ | ⟨hnone, hkept⟩
  · obtain ⟨sheet, hsheet, hcompiled⟩ := Job.bind_eq_ok.mp hmade
    exact ⟨sheet, available_eq_ok.mp hsheet, hcompiled⟩
  · -- Neither the script nor the stylesheet was read, so all three are the kept ones.
    obtain ⟨hscript, hstylesheet⟩ := Bool.or_eq_false_iff.mp hnone
    obtain ⟨b', t, sheet, css', page, h⟩ := hr.kept (Or.inl hscript)
    have hblueprint : staged.blueprint = none := by simpa [hscript, Job.onlyIf, eq_comm] using hs.blueprint
    have hsheet : staged.stylesheet = none := by
      simpa [hstylesheet, Job.onlyIf, eq_comm] using hs.stylesheet
    have hcurrent := hs.current
    rw [hblueprint, Option.none_or, h.blueprint] at hcurrent
    obtain rfl : b' = b := Option.some.inj hcurrent
    obtain rfl : css' = css := Option.some.inj (h.plain.symm.trans hkept)
    exact ⟨sheet, by rw [hsheet, Option.none_or, h.stylesheet], h.compiled⟩

/-- A run that is ready and makes a page leaves a complete set of artifacts, which make that page. -/
theorem settled {b : Blueprint} (hs : Stages c files ch staged b) {page : String}
    (hp : (c.pageText staged ch).result = .ok page) : ∃ t sheet css,
      Settled { c with artifacts := c.artifacts.commit staged ch.paths } b t sheet css page := by
  obtain ⟨b', css, t, hb', hcss, ht, r, html, hrender, hhtml, hpage⟩ := pageText_eq_ok.mp hp
  obtain rfl : b = b' := Option.some.inj (hs.current.symm.trans hb')
  have hdrawn := hr.drawn hs
  obtain ⟨sheet, hsheet, hcompiled⟩ := hr.compiled hs hcss
  refine ⟨t, sheet, css, ⟨hs.current, ht, hsheet, hcss, hcompiled, fun path => ?_, ?_, hdrawn⟩⟩
  · rw [OrderedMap.contains_iff]
    exact ⟨fun ⟨g, hg⟩ => (hs.graphic hg).1, hs.exists_graphic⟩
  · refine ⟨r, html, ?_, hhtml, hpage⟩
    rw [← hrender]
    exact Page.render?_congr fun path hpath => (hs.graphic?_eq (mem_assets_of_drawn hdrawn hpath)).symm

end Ready

/-! ### Runs -/

variable {σ : Type} [Storage σ] {paths : List Path} {store after : σ}

/-- A run that is ready and succeeds finds nothing to do with a complete set of artifacts, or leaves a new
one and writes the page that it makes. -/
theorem Run.settled (hr : Ready c (.classify paths c.options.layout)) {c' : Compiler}
    (h : Run c paths store after c' (.ok ())) :
    (c' = c ∧ after = c.charged paths store ∧ (c.preparation paths store).result = .ok none ∧
      ∃ b t sheet css page, Settled c b t sheet css page) ∨
    ∃ staged b t sheet css page,
      Stages c (Storage.view store) (.classify paths c.options.layout) staged b ∧
      c' = { c with artifacts := c.artifacts.commit staged paths } ∧ Settled c' b t sheet css page ∧
      Storage.write (c.charged paths store) c.options.layout.page page = (.ok (), after) := by
  cases h with
  | idle h =>
    obtain ⟨staged, -, hmatters⟩ := prepare_eq_none h
    have hscript : (Changes.classify paths c.options.layout).script = false := by
      simp only [Matters, Bool.or_eq_true, not_or, Bool.not_eq_true] at hmatters
      exact hmatters.1.1.1
    exact Or.inl ⟨rfl, rfl, h, hr.kept (Or.inl hscript)⟩
  | written h hw =>
    obtain ⟨hstage, -, hp⟩ := prepare_eq_some.mp h
    obtain ⟨b, hs⟩ := stage_eq_ok.mp hstage
    obtain ⟨t, sheet, css, hsettled⟩ := hr.settled hs hp
    exact Or.inr ⟨_, b, t, sheet, css, _, hs, rfl, hsettled, hw⟩

theorem Run.supplied (hr : Ready c (.classify paths c.options.layout)) {c' : Compiler} {artifact : Artifact}
    (h : Run c paths store after c' (.error (.missing artifact))) : False := by
  cases h with
  | stopped h => exact hr.supplied_prepare artifact h

theorem ready_fresh (tools : Toolchain) (options : BuildOptions) :
    Ready (fresh tools options) (.classify (sources options.layout) options.layout) :=
  Or.inl ⟨by simp [Changes.classify, sources], by simp [Changes.classify, sources],
    by simp [Changes.classify, sources]⟩

end Compiler

/-! ### Histories -/

/-- A store, with a record of what was written to it, the latest first. -/
structure Journaled (σ : Type) where
  /-- The store. -/
  store : σ
  /-- What was written where. -/
  journal : List (Path × String) := []

namespace Journaled

variable {σ : Type} [Storage σ]

instance : Storage (Journaled σ) where
  view j := Storage.view j.store
  charge j paths := { j with store := Storage.charge j.store paths }
  write j path text := match Storage.write j.store path text with
    | (.ok _, store) => (.ok (), ⟨store, (path, text) :: j.journal⟩)
    | (.error e, store) => (.error e, { j with store })

theorem journal_of_ok {j after : Journaled σ} {path : Path} {text : String}
    (h : Storage.write j path text = (.ok (), after)) : after.journal = (path, text) :: j.journal := by
  simp only [Storage.write] at h
  split at h <;> cases h
  rfl

theorem journal_of_error {j after : Journaled σ} {path : Path} {text : String} {e : IoError}
    (h : Storage.write j path text = (.error e, after)) : after.journal = j.journal := by
  simp only [Storage.write] at h
  split at h <;> cases h
  rfl

end Journaled

namespace Compiler

variable {σ : Type} [Storage σ] {tools : Toolchain} {options : BuildOptions} {c : Compiler} {j : Journaled σ}

/-- The compilers that a first build that succeeds and any runs after it lead to, with the store that they
leave. Runs may succeed or fail, and between them the files may become any others. -/
inductive Reached (tools : Toolchain) (options : BuildOptions) : Compiler → Journaled σ → Prop
  | compiled {j : Journaled σ} (h : (compile tools options j).result = .ok ()) :
    Reached tools options (compile tools options j).compiler (compile tools options j).store
  | edited {c : Compiler} {j : Journaled σ} (h : Reached tools options c j) (store : σ) :
    Reached tools options c { j with store }
  | recompiled {c : Compiler} {j : Journaled σ} (h : Reached tools options c j) (paths : List Path) :
    Reached tools options (c.recompile paths j).compiler (c.recompile paths j).store

theorem Reached.settled (h : Reached tools options c j) : c.tools = tools ∧ c.options = options ∧
    ∃ b t sheet css page, Settled c b t sheet css page ∧
      j.journal.head? = some (options.layout.page, page) := by
  induction h with
  | @compiled j hr =>
    have hrun := run_recompile (fresh tools options) (sources options.layout) j
    rw [show (recompile _ _ j).result = _ from hr] at hrun
    rcases hrun.settled (ready_fresh tools options) with ⟨-, -, -, b, t, sheet, css, page, h⟩ |
        ⟨staged, b, t, sheet, css, page, -, hc, h, hw⟩
    · exact absurd h.blueprint nofun
    · refine ⟨congrArg Compiler.tools hc, congrArg Compiler.options hc, b, t, sheet, css, page, h, ?_⟩
      rw [compile, Journaled.journal_of_ok hw, List.head?_cons]
      rfl
  | edited h store ih => exact ih
  | @recompiled c j h paths ih =>
    obtain ⟨rfl, rfl, b, t, sheet, css, page, hkept, hjournal⟩ := ih
    have hrun := run_recompile c paths j
    generalize (c.recompile paths j).store = after, (c.recompile paths j).compiler = c',
      (c.recompile paths j).result = result at hrun
    cases hrun with
    | stopped h => exact ⟨rfl, rfl, b, t, sheet, css, page, hkept, hjournal⟩
    | idle h => exact ⟨rfl, rfl, b, t, sheet, css, page, hkept, hjournal⟩
    | unwritten h hw =>
      refine ⟨rfl, rfl, b, t, sheet, css, page, hkept, ?_⟩
      rwa [Journaled.journal_of_error hw]
    | written h hw =>
      obtain ⟨hstage, -, hp⟩ := prepare_eq_some.mp h
      obtain ⟨b', hs⟩ := stage_eq_ok.mp hstage
      have hready : Ready c (.classify paths c.options.layout) := Or.inr ⟨b, t, sheet, css, page, hkept⟩
      obtain ⟨t', sheet', css', hsettled⟩ := hready.settled hs hp
      refine ⟨rfl, rfl, b', t', sheet', css', _, hsettled, ?_⟩
      rw [Journaled.journal_of_ok hw, List.head?_cons]

/-- **A compiler stays settled.** Let a first build succeed, and let any runs follow it, told of any
changes, on any files, that succeed or fail. Then all artifacts are there: the plain stylesheet is made of
the text of the stylesheet and the rules of the blueprint, the graphics are just those that the blueprint
needs, and the page that was written last is the one that these artifacts make. So no run that follows
lacks an artifact; nor does a first build. -/
theorem artifacts_settled (h : Reached tools options c j) :
    c.tools = tools ∧ c.options = options ∧
    (∃ b t sheet css page, c.Settled b t sheet css page ∧
      j.journal.head? = some (options.layout.page, page)) ∧
    (∀ {τ : Type} [Storage τ] (store : τ) paths artifact,
      (c.recompile paths store).result ≠ .error (.missing artifact)) ∧
    ∀ {τ : Type} [Storage τ] (store : τ) artifact,
      (compile tools options store).result ≠ .error (.missing artifact) := by
  obtain ⟨htools, hoptions, b, t, sheet, css, page, hkept, hjournal⟩ := h.settled
  refine ⟨htools, hoptions, ⟨b, t, sheet, css, page, hkept, hjournal⟩, ?_, ?_⟩
  · intro τ _ store paths artifact he
    have hrun := run_recompile c paths store
    rw [he] at hrun
    exact hrun.supplied (Or.inr ⟨b, t, sheet, css, page, hkept⟩)
  · intro τ _ store artifact he
    have hrun := run_recompile (fresh tools options) (sources options.layout) store
    rw [show (recompile _ _ store).result = _ from he] at hrun
    exact hrun.supplied (ready_fresh tools options)

end Compiler

/-- A plain stylesheet. -/
def Toolchain.sheet : String := ".a \x7b\n  color: red;\n\x7d\n\n.b:target ~ #c \x7b\n  display: none;\n\x7d\n"

/-- Tools that read every text as one script and make one plain stylesheet of every other. A page is its
template with the context after it, and graphics stay as they are. -/
def Toolchain.plain (s : Script) : Toolchain where
  parse _ := .ok .null
  map _ := .ok s
  compileTemplate text := .ok ⟨fun context => .ok (text ++ context.compact)⟩
  compileStylesheet _ := .ok sheet
  optimize := .ok
  minifyCss := Rehearsal.minifyCss
  minifyMarkup := .ok

/-- The sources of the outing, and a graphic wherever it needs one. -/
def MemoryStore.outing : MemoryStore where
  files := .ofList
    ((Compiler.sources {}).map (·, "") ++ Script.outing.assets.map (·, "<svg width='9'><path/></svg>"))

namespace Compiler

/-- The outing can be built: the plain stylesheet is made small, and the graphics are split. -/
theorem exists_outing : ∃ (c : Compiler) (j : Journaled MemoryStore), Reached (.plain .outing) {} c j ∧
    c.artifacts.css = some ".a\x7bcolor:red\x7d.b:target~#c\x7bdisplay:none\x7d" ∧
    c.artifacts.graphics.get? ⟨["backgrounds", "beach.svg"]⟩ = some ⟨.ofList [("width", "9")], "<path/>"⟩ := by
  let j : Journaled MemoryStore := ⟨.outing, []⟩
  exact ⟨(compile (.plain .outing) {} j).compiler, (compile (.plain .outing) {} j).store,
    .compiled (by decide +kernel), by decide +kernel⟩

/-- The outing was built. When all its files are gone afterwards, no run lacks an artifact. -/
theorem artifacts_settled_outing : ∃ (c : Compiler) (journal : List (Path × String)),
    Reached (.plain .outing) {} c ⟨MemoryStore.empty, journal⟩ ∧
      (∃ page, journal.head? = some (⟨["index.html"]⟩, page)) ∧
      c.artifacts.css = some ".a\x7bcolor:red\x7d.b:target~#c\x7bdisplay:none\x7d" ∧
      c.artifacts.graphics.get? ⟨["backgrounds", "beach.svg"]⟩ = some ⟨.ofList [("width", "9")], "<path/>"⟩ ∧
      ∀ paths artifact, (c.recompile paths MemoryStore.empty).result ≠ .error (.missing artifact) := by
  obtain ⟨c, j, hreached, hcss, hgraphic⟩ := exists_outing
  have hemptied := hreached.edited MemoryStore.empty
  obtain ⟨-, -, ⟨b, t, sheet, css, page, -, hjournal⟩, hrun, -⟩ := artifacts_settled hemptied
  exact ⟨c, j.journal, hemptied, ⟨page, hjournal⟩, hcss, hgraphic, hrun MemoryStore.empty⟩

end Compiler

end SkitPage
